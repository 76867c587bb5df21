import Mathlib.Data.Int.Log
import Mathlib.Data.Rat.Floor
import Mathlib.Tactic

/-! Binary numbers of a precision, rounded to the nearest, with no limit to the exponent. -/

namespace DriveIntegrity.Rounding

section Integers

/-- The nearest integer, and the even one of two -/
def roundEven (x : ℚ) : ℤ :=
  if Int.fract x < 1 / 2 ∨ Int.fract x = 1 / 2 ∧ Even ⌊x⌋ then ⌊x⌋ else ⌊x⌋ + 1

lemma le_roundEven_iff {a : ℤ} {x : ℚ} :
    a ≤ roundEven x ↔ (a : ℚ) - 1 / 2 < x ∨ (a : ℚ) - 1 / 2 = x ∧ Even a := by
  have hx := Int.floor_add_fract x
  have hnonneg := Int.fract_nonneg x
  have hlt := Int.fract_lt_one x
  rw [roundEven]
  generalize Int.fract x = f at *
  generalize ⌊x⌋ = n at *
  subst hx
  have hle (b : ℤ) : a ≤ b ↔ (a : ℚ) ≤ b := Int.cast_le.symm
  have hlt' (b : ℤ) : a < b ↔ (a : ℚ) < b := Int.cast_lt.symm
  rcases lt_trichotomy f (1 / 2) with hf | rfl | hf
  · rw [if_pos (Or.inl hf), hle]
    refine ⟨fun h => Or.inl (by linarith),
      fun h => (hle n).mp (Int.lt_add_one_iff.mp ((hlt' _).mpr ?_))⟩
    push_cast
    rcases h with h | ⟨h, -⟩ <;> linarith
  · rcases Int.even_or_odd n with hn | hn
    · rw [if_pos (Or.inr ⟨rfl, hn⟩)]
      refine ⟨fun h => Or.inl (by linarith [(hle n).mp h]), ?_⟩
      rintro (h | ⟨h, ha⟩)
      · exact Int.lt_add_one_iff.mp ((hlt' _).mpr (by push_cast; linarith))
      · have hsucc : a = n + 1 := Int.cast_injective (α := ℚ) (by push_cast; linarith)
        exact absurd ha (by rw [hsucc, Int.not_even_iff_odd]; exact hn.add_one)
    · rw [if_neg (by rintro (h | ⟨-, h⟩); exacts [lt_irrefl _ h, Int.not_even_iff_odd.mpr hn h])]
      constructor
      · intro h
        rcases h.lt_or_eq with h | rfl
        · exact Or.inl (by linarith [(hle n).mp (Int.lt_add_one_iff.mp h)])
        · exact Or.inr ⟨by push_cast; ring, hn.add_one⟩
      · refine fun h => (hle (n + 1)).mpr ?_
        push_cast
        rcases h with h | ⟨h, -⟩ <;> linarith
  · rw [if_neg (by rintro (h | ⟨h, -⟩) <;> linarith)]
    refine ⟨fun h => Or.inl ?_, fun h => Int.lt_add_one_iff.mp ((hlt' _).mpr ?_)⟩
    · have := (hle _).mp h
      push_cast at this
      linarith
    · push_cast
      rcases h with h | ⟨h, -⟩ <;> linarith

lemma roundEven_intCast (a : ℤ) : roundEven a = a := by
  rw [roundEven, Int.fract_intCast, Int.floor_intCast, if_pos (Or.inl one_half_pos)]

lemma abs_roundEven_sub_le (x : ℚ) : |(roundEven x : ℚ) - x| ≤ 1 / 2 := by
  have hx := Int.floor_add_fract x
  have hnonneg := Int.fract_nonneg x
  have hlt := Int.fract_lt_one x
  rw [abs_le, roundEven]
  split_ifs with h
  · rcases h with h | ⟨h, -⟩ <;> constructor <;> linarith
  · have hge : 1 / 2 ≤ Int.fract x := not_lt.mp fun hlt => h (Or.inl hlt)
    push_cast
    constructor <;> linarith

end Integers

section Precision

variable {p k m : ℕ} {x z g : ℚ}

/-- The unit of the last of `p` digits of a number -/
def ulp (p : ℕ) (x : ℚ) : ℚ :=
  2 ^ (Int.log 2 x + 1 - p)

def round (p : ℕ) (x : ℚ) : ℚ :=
  roundEven (x / ulp p x) * ulp p x

lemma ulp_pos (p : ℕ) (x : ℚ) : 0 < ulp p x :=
  zpow_pos two_pos _

lemma ulp_mono (hx : 0 < x) (hxz : x ≤ z) : ulp p x ≤ ulp p z := by
  have hlog := Int.log_mono_right (b := 2) hx hxz
  exact zpow_le_zpow_right₀ one_le_two (by omega)

lemma ulp_le (hx : 0 < x) : ulp p x ≤ 2 * x / 2 ^ p := by
  have hlog : (2 : ℚ) ^ Int.log 2 x ≤ x := by exact_mod_cast Int.zpow_log_le_self one_lt_two hx
  rw [ulp, zpow_sub₀ two_ne_zero, zpow_add_one₀ two_ne_zero, zpow_natCast]
  have hpow : (0 : ℚ) < 2 ^ p := by positivity
  exact div_le_div_of_nonneg_right (by linarith) hpow.le

lemma abs_round_sub_le (hx : 0 < x) : |round p x - x| ≤ x / 2 ^ p := by
  have hpos := ulp_pos p x
  have hscale : round p x - x = (roundEven (x / ulp p x) - x / ulp p x) * ulp p x := by
    rw [round, sub_mul, div_mul_cancel₀ _ hpos.ne']
  rw [hscale, abs_mul, abs_of_pos hpos]
  calc |(roundEven (x / ulp p x) : ℚ) - x / ulp p x| * ulp p x
      ≤ 1 / 2 * ulp p x := mul_le_mul_of_nonneg_right (abs_roundEven_sub_le _) hpos.le
    _ ≤ 1 / 2 * (2 * x / 2 ^ p) := mul_le_mul_of_nonneg_left (ulp_le hx) one_half_pos.le
    _ = x / 2 ^ p := by ring

lemma mul_ulp_le_round_iff {a : ℤ} : a * ulp p x ≤ round p x ↔
    (a - 1 / 2) * ulp p x < x ∨ (a - 1 / 2) * ulp p x = x ∧ Even a := by
  have hpos := ulp_pos p x
  rw [round, mul_le_mul_iff_left₀ hpos, Int.cast_le, le_roundEven_iff, lt_div_iff₀ hpos,
    eq_div_iff hpos.ne']

lemma exists_mul_ulp (hg : ∃ a : ℤ, g = a / 2 ^ k) (hx : 0 < x) (hlt : x < 2 ^ m) (hp : m + k ≤ p) :
    ∃ a : ℤ, g = a * ulp p x := by
  obtain ⟨a, rfl⟩ := hg
  have hlog : Int.log 2 x < m :=
    (Int.lt_zpow_iff_log_lt one_lt_two hx).mp (by rw [zpow_natCast]; exact_mod_cast hlt)
  obtain ⟨j, hj⟩ := Int.le.dest (show (k : ℤ) ≤ p - (Int.log 2 x + 1) by omega)
  refine ⟨a * 2 ^ j, ?_⟩
  have hexp : Int.log 2 x + 1 - p = -(j : ℤ) - k := by omega
  rw [ulp, hexp, zpow_sub₀ two_ne_zero, zpow_neg, zpow_natCast, zpow_natCast]
  push_cast
  field_simp

lemma le_round (hg : ∃ a : ℤ, g = a * ulp p x) (hle : g ≤ x) : g ≤ round p x := by
  obtain ⟨a, rfl⟩ := hg
  exact mul_ulp_le_round_iff.mpr (Or.inl (by linarith [ulp_pos p x]))

lemma round_eq_self (hx : ∃ a : ℤ, x = a * ulp p x) : round p x = x := by
  obtain ⟨a, ha⟩ := hx
  have hdiv : x / ulp p x = a := (div_eq_iff (ulp_pos p x).ne').mpr ha
  rw [round, hdiv, roundEven_intCast, ← ha]

lemma exists_round_eq (hx : 1 ≤ x) : ∃ a : ℤ, round (p + 1) x = a / 2 ^ p := by
  have hlog : 0 ≤ Int.log 2 x :=
    (Int.zpow_le_iff_le_log one_lt_two (one_pos.trans_le hx)).mp (by simpa using hx)
  obtain ⟨j, hj⟩ := Int.eq_ofNat_of_zero_le hlog
  have hexp : Int.log 2 x + 1 - (p + 1 : ℕ) = j - p := by omega
  refine ⟨roundEven (x / ulp (p + 1) x) * 2 ^ j, ?_⟩
  rw [round, ulp, hexp, zpow_sub₀ two_ne_zero, zpow_natCast, zpow_natCast]
  push_cast
  ring

/-- Where the halves are on the grid, rounding takes numbers that are one apart to different sides
of some half: a tie goes the same way at both, or the second grid is the coarser one. -/
lemma add_one_le_round (hg : ∃ a : ℤ, g = a / 2 ^ 1) (hx : 0 < x) (hxz : x + 1 ≤ z) (hz : z < 2 ^ m)
    (hp : m + 1 ≤ p) (hle : g ≤ round p x) : g + 1 ≤ round p z := by
  have hzpos : 0 < z := by linarith
  have hmono : ulp p x ≤ ulp p z := ulp_mono hx (by linarith)
  obtain ⟨a, ha⟩ := exists_mul_ulp hg hx (by linarith) hp
  obtain ⟨c, hc⟩ := exists_mul_ulp (g := 1 / 2) (k := 1) ⟨1, by norm_num⟩ hzpos hz hp
  obtain ⟨b, hb⟩ : ∃ b : ℤ, g + 1 = b * ulp p z := by
    obtain ⟨a', ha'⟩ := hg
    exact exists_mul_ulp ⟨a' + 2, by rw [ha']; push_cast; ring⟩ hzpos hz hp
  rw [ha] at hle
  rw [hb, mul_ulp_le_round_iff]
  rcases hmono.lt_or_eq with hcoarser | hsame
  · refine Or.inl ?_
    rcases mul_ulp_le_round_iff.mp hle with h | ⟨h, -⟩ <;> linarith
  · rw [hsame] at ha hle
    have heven : b = a + 2 * c := by
      have hcast : ((b - (a + 2 * c) : ℤ) : ℚ) * ulp p z = 0 := by
        push_cast
        linarith
      have hzero := (mul_eq_zero.mp hcast).resolve_right (ulp_pos p z).ne'
      exact sub_eq_zero.mp (by exact_mod_cast hzero)
    have hshift : ((b : ℚ) - 1 / 2) * ulp p z = (a - 1 / 2) * ulp p z + 1 := by linarith
    rw [← hsame] at hle
    rcases mul_ulp_le_round_iff.mp hle with h | ⟨h, heq⟩
    · exact Or.inl (by rw [hshift, ← hsame]; linarith)
    · rw [hshift, ← hsame, h]
      rcases hxz.lt_or_eq with hlt | heq'
      · exact Or.inl hlt
      · exact Or.inr ⟨heq', by rw [heven]; exact heq.add (even_two_mul c)⟩

end Precision

end DriveIntegrity.Rounding
