import Mathlib.Order.Interval.Finset.Nat
import Mathlib.Data.Nat.Nth
import Mathlib.Tactic

/-! The numbers below a bound that none of some moduli divides. -/

namespace DriveIntegrity.Sieve

/-- No modulus divides the number. -/
def Survives (ps : List ℕ) (n : ℕ) : Prop :=
  ∀ p ∈ ps, ¬ p ∣ n

instance (ps : List ℕ) : DecidablePred (Survives ps) :=
  fun n => inferInstanceAs (Decidable (∀ p ∈ ps, ¬ p ∣ n))

/-- How many survive below a bound, one modulus struck out after the other. -/
def survivors : List ℕ → ℕ → ℕ
  | [], n => n
  | p :: ps, n => survivors ps n - survivors ps ((n + p - 1) / p)

lemma survives_cons {p n : ℕ} {ps : List ℕ} : Survives (p :: ps) n ↔ ¬ p ∣ n ∧ Survives ps n :=
  List.forall_mem_cons

lemma survives_mul_iff {p n : ℕ} {ps : List ℕ} (hco : ∀ q ∈ ps, p.Coprime q) :
    Survives ps (p * n) ↔ Survives ps n :=
  forall₂_congr fun q hq => not_congr (hco q hq).symm.dvd_mul_left

/-- Those struck out by a modulus are its multiples, which the others thin as they thin all
numbers. -/
lemma count_cons_add {p : ℕ} {ps : List ℕ} (hp : 0 < p) (hco : ∀ q ∈ ps, p.Coprime q) (n : ℕ) :
    Nat.count (Survives (p :: ps)) n + Nat.count (Survives ps) ((n + p - 1) / p) =
      Nat.count (Survives ps) n := by
  induction n with
  | zero => simp [Nat.div_eq_of_lt (show p - 1 < p by omega)]
  | succ n ih =>
    have hround : (n + 1 + p - 1) / p = (n + p - 1) / p + if p ∣ n then 1 else 0 := by
      have hdvd : p ∣ n ↔ p ∣ n + p - 1 + 1 := by
        rw [Nat.sub_add_cancel (by omega)]
        exact (Nat.dvd_add_self_right).symm
      rw [show n + 1 + p - 1 = n + p - 1 + 1 by omega, Nat.succ_div]
      exact congrArg _ (if_congr hdvd.symm rfl rfl)
    rw [hround, Nat.count_succ, Nat.count_succ (Survives ps)]
    by_cases hdvd : p ∣ n
    · obtain ⟨m, rfl⟩ := hdvd
      have hm : (p * m + p - 1) / p = m := by
        rw [Nat.add_sub_assoc (by omega), Nat.mul_add_div hp, Nat.div_eq_of_lt (by omega), add_zero]
      have hstruck : ¬ Survives (p :: ps) (p * m) := fun h =>
        (survives_cons.mp h).1 (dvd_mul_right p m)
      rw [hm] at ih ⊢
      rw [if_pos (dvd_mul_right p m), if_neg hstruck, Nat.count_succ,
        if_congr (survives_mul_iff hco).symm rfl rfl]
      omega
    · have hiff : Survives (p :: ps) n ↔ Survives ps n := by
        rw [survives_cons]
        exact and_iff_right hdvd
      rw [if_neg hdvd, if_congr hiff rfl rfl, add_zero]
      omega

lemma count_eq_survivors {ps : List ℕ} (hpos : ∀ p ∈ ps, 0 < p)
    (hco : ps.Pairwise Nat.Coprime) (n : ℕ) :
    Nat.count (Survives ps) n = survivors ps n := by
  induction ps generalizing n with
  | nil =>
    rw [survivors]
    exact Nat.count_true n ▸ Nat.count_of_forall fun _ _ => List.forall_mem_nil _
  | cons p ps ih =>
    rw [List.pairwise_cons] at hco
    have hadd := count_cons_add (hpos p List.mem_cons_self) hco.1 n
    have htail := ih (fun q hq => hpos q (List.mem_cons_of_mem p hq)) hco.2
    rw [htail, htail] at hadd
    rw [survivors]
    omega

/-- What part of all numbers survives. -/
def density (ps : List ℕ) : ℚ :=
  (ps.map fun p : ℕ => (1 - 1 / p : ℚ)).prod

lemma density_nonneg_le_one {ps : List ℕ} (hpos : ∀ p ∈ ps, 0 < p) :
    0 ≤ density ps ∧ density ps ≤ 1 := by
  induction ps with
  | nil => simp [density]
  | cons p ps ih =>
    obtain ⟨h0, h1⟩ := ih fun q hq => hpos q (List.mem_cons_of_mem p hq)
    have hp : (1 : ℚ) ≤ p := by exact_mod_cast hpos p List.mem_cons_self
    have hinv : 0 < 1 / (p : ℚ) ∧ 1 / (p : ℚ) ≤ 1 :=
      ⟨by positivity, by rw [div_le_one (by positivity)]; exact hp⟩
    rw [density, List.map_cons, List.prod_cons]
    change 0 ≤ (1 - 1 / (p : ℚ)) * density ps ∧ (1 - 1 / (p : ℚ)) * density ps ≤ 1
    constructor
    · exact mul_nonneg (by linarith) h0
    · nlinarith

/-- Each modulus at most doubles the deviation from an even spread and adds one. -/
lemma abs_count_sub_le {ps : List ℕ} (hpos : ∀ p ∈ ps, 0 < p)
    (hco : ps.Pairwise Nat.Coprime) (n : ℕ) :
    |(Nat.count (Survives ps) n : ℚ) - n * density ps| ≤ 2 ^ ps.length - 1 := by
  induction ps generalizing n with
  | nil =>
    rw [count_eq_survivors hpos hco]
    simp [survivors, density]
  | cons p ps ih =>
    rw [List.pairwise_cons] at hco
    have htail := ih (fun q hq => hpos q (List.mem_cons_of_mem p hq)) hco.2
    have hp : 0 < p := hpos p List.mem_cons_self
    obtain ⟨h0, h1⟩ := density_nonneg_le_one fun q hq => hpos q (List.mem_cons_of_mem p hq)
    set m := (n + p - 1) / p with hm
    have hadd : (Nat.count (Survives (p :: ps)) n : ℚ) + Nat.count (Survives ps) m =
        Nat.count (Survives ps) n := by
      exact_mod_cast count_cons_add hp hco.1 n
    -- the multiples of `p` below `n` number `n / p`, rounded up
    have hlow : (n : ℚ) / p ≤ m := by
      rw [div_le_iff₀ (by exact_mod_cast hp)]
      have : n ≤ m * p := by
        have hlt : n + p - 1 < m * p + p := Nat.lt_div_mul_add hp
        omega
      exact_mod_cast this
    have hhigh : (m : ℚ) ≤ n / p + 1 := by
      have hmul : (m : ℚ) * p ≤ n + p := by
        have := Nat.div_mul_le_self (n + p - 1) p
        exact_mod_cast this.trans (Nat.sub_le _ _)
      have hpq : (0 : ℚ) < p := by exact_mod_cast hp
      rw [div_add_one hpq.ne', le_div_iff₀ hpq]
      exact hmul
    have hdensity : density (p :: ps) = density ps - 1 / p * density ps := by
      rw [density, List.map_cons, List.prod_cons]
      change (1 - 1 / (p : ℚ)) * density ps = _
      ring
    have hmid : 0 ≤ (m - n / p) * density ps ∧ (m - n / p) * density ps ≤ 1 :=
      ⟨mul_nonneg (by linarith) h0, by nlinarith⟩
    have hn := abs_le.mp (htail n)
    have hmb := abs_le.mp (htail m)
    have hsplit : (n : ℚ) * density (p :: ps) = n * density ps - n / p * density ps := by
      rw [hdensity]
      ring
    rw [List.length_cons, pow_succ, abs_le, hsplit]
    constructor <;> linarith [hn.1, hn.2, hmb.1, hmb.2, hmid.1, hmid.2]

end DriveIntegrity.Sieve
