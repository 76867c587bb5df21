import Mathlib.Data.List.Lex
import Mathlib.Tactic

/-! Numerals of a fixed width are in the order of their numbers. -/

namespace DriveIntegrity

section Words

variable {α : Type*} [LinearOrder α]

lemma append_lt_append_iff {s t u v : List α} (h : s.length = t.length) :
    s ++ u < t ++ v ↔ s < t ∨ s = t ∧ u < v := by
  induction s generalizing t with
  | nil =>
    obtain rfl := List.length_eq_zero_iff.mp h.symm
    simp
  | cons a s ih =>
    obtain ⟨b, t, rfl⟩ := List.exists_cons_of_length_eq_add_one h.symm
    rw [List.length_cons, List.length_cons, Nat.add_right_cancel_iff] at h
    rw [List.cons_append, List.cons_append, List.cons_lt_cons_iff, List.cons_lt_cons_iff, ih h,
      List.cons.injEq]
    tauto

end Words

section Numerals

variable {α β : Type*} {base width m n : ℕ} {digit : ℕ → α}

/-- The last digits of a number. -/
def numeral (base : ℕ) (digit : ℕ → α) : ℕ → ℕ → List α
  | 0, _ => []
  | width + 1, n => numeral base digit width (n / base) ++ [digit (n % base)]

@[simp] lemma length_numeral (width n : ℕ) : (numeral base digit width n).length = width := by
  induction width generalizing n with
  | zero => rfl
  | succ width ih => rw [numeral, List.length_append, ih, List.length_singleton]

lemma map_numeral (f : α → β) (width n : ℕ) :
    (numeral base digit width n).map f = numeral base (f ∘ digit) width n := by
  induction width generalizing n with
  | zero => rfl
  | succ width ih =>
      rw [numeral, List.map_append, ih, List.map_singleton, numeral, Function.comp_apply]

lemma numeral_zero (width : ℕ) : numeral base digit width 0 = List.replicate width (digit 0) := by
  induction width with
  | zero => rfl
  | succ width ih => rw [numeral, Nat.zero_div, Nat.zero_mod, ih, ← List.replicate_succ']

lemma div_mod_lt_iff : m / base < n / base ∨ m / base = n / base ∧ m % base < n % base ↔ m < n := by
  have hm := Nat.div_add_mod m base
  have hn := Nat.div_add_mod n base
  constructor
  · rintro (hlt | ⟨heq, hlt⟩)
    · exact lt_of_not_ge fun h => absurd (Nat.div_le_div_right h) (not_le.mpr hlt)
    · rw [heq] at hm
      omega
  · intro hlt
    rcases (Nat.div_le_div_right hlt.le : m / base ≤ n / base).lt_or_eq with h | h
    · exact Or.inl h
    · rw [h] at hm
      exact Or.inr ⟨h, by omega⟩

lemma div_lt_of_lt_pow (h : n < base ^ (width + 1)) : n / base < base ^ width :=
  Nat.div_lt_of_lt_mul (by rwa [pow_succ'] at h)

lemma numeral_inj (hd : Set.InjOn digit (Set.Iio base)) (hm : m < base ^ width)
    (hn : n < base ^ width) :
    numeral base digit width m = numeral base digit width n ↔ m = n := by
  refine ⟨fun h => ?_, fun h => congrArg _ h⟩
  induction width generalizing m n with
  | zero =>
    rw [pow_zero, Nat.lt_one_iff] at hm hn
    rw [hm, hn]
  | succ width ih =>
    have hb : 0 < base := Nat.pos_of_ne_zero (by rintro rfl; simp at hm)
    obtain ⟨hq, hr⟩ := List.append_inj h (by simp)
    have hdiv := ih (div_lt_of_lt_pow hm) (div_lt_of_lt_pow hn) hq
    have hmod := hd (Nat.mod_lt m hb) (Nat.mod_lt n hb) (List.singleton_inj.mp hr)
    rw [← Nat.div_add_mod m base, ← Nat.div_add_mod n base, hdiv, hmod]

variable [LinearOrder α]

/-- Where the digits are in order, numerals of one width are compared as numbers. -/
theorem numeral_lt_iff (hd : StrictMonoOn digit (Set.Iio base)) (hm : m < base ^ width)
    (hn : n < base ^ width) :
    numeral base digit width m < numeral base digit width n ↔ m < n := by
  induction width generalizing m n with
  | zero =>
    rw [pow_zero, Nat.lt_one_iff] at hm hn
    simp [numeral, hm, hn]
  | succ width ih =>
    have hb : 0 < base := Nat.pos_of_ne_zero (by rintro rfl; simp at hm)
    have hmod : [digit (m % base)] < [digit (n % base)] ↔ m % base < n % base := by
      rw [List.cons_lt_cons_iff, hd.lt_iff_lt (Nat.mod_lt m hb) (Nat.mod_lt n hb)]
      simp
    rw [numeral, numeral, append_lt_append_iff (by simp),
      ih (div_lt_of_lt_pow hm) (div_lt_of_lt_pow hn),
      numeral_inj hd.injOn (div_lt_of_lt_pow hm) (div_lt_of_lt_pow hn), hmod, div_mod_lt_iff]

lemma numeral_append_lt_iff (hd : StrictMonoOn digit (Set.Iio base)) (hm : m < base ^ width)
    (hn : n < base ^ width) {u v : List α} :
    numeral base digit width m ++ u < numeral base digit width n ++ v ↔ m < n ∨ m = n ∧ u < v := by
  rw [append_lt_append_iff (by simp), numeral_lt_iff hd hm hn, numeral_inj hd.injOn hm hn]

end Numerals

end DriveIntegrity
