import Mathlib.Algebra.CharP.Two
import Mathlib.Algebra.Polynomial.Roots
import Mathlib.Tactic

/-! Inversion of a matrix in its own place, over a field where adding is subtracting. -/

namespace DriveIntegrity.Elimination

open Finset

variable {K : Type*} {width first : ℕ}

section Operand

variable {x y : ℕ → K} {level : ℕ}

/-- Column `first + j` belongs to row `j`: in a row that is solved up to `level` the columns of the
rows below it are factors of the outputs, and all the other columns are factors of the inputs. -/
def operand (first level : ℕ) (x y : ℕ → K) (c : ℕ) : K :=
  if first ≤ c ∧ c < first + level then y (c - first) else x c

lemma operand_of_lt (j : ℕ) (hj : j < level) : operand first level x y (first + j) = y j := by
  rw [operand, if_pos ⟨Nat.le_add_right first j, by omega⟩, Nat.add_sub_cancel_left]

lemma operand_of_le (j : ℕ) (hj : level ≤ j) :
    operand first level x y (first + j) = x (first + j) :=
  if_neg (by omega)

lemma operand_of_lt_first {c : ℕ} (hc : c < first) : operand first level x y c = x c :=
  if_neg (by omega)

lemma operand_congr {a b c : ℕ} (h : (first ≤ c ∧ c < first + a) ↔ (first ≤ c ∧ c < first + b)) :
    operand first a x y c = operand first b x y c :=
  if_congr h rfl rfl

end Operand

variable [Field K]

/-- The equation that a row stands for when it is solved up to `level`: for its own input once its
column has been turned into a factor of its output, and for its output before. -/
def Solves (width first : ℕ) (x y : ℕ → K) (row : ℕ → K) (k level : ℕ) : Prop :=
  (if k < level then x (first + k) else y k) = ∑ c ∈ range width, row c * operand first level x y c

variable {x y row : ℕ → K} {k level : ℕ}

/-- The row is divided by its pivot, whose place takes the factor of the output. -/
lemma Solves.scale [CharP K 2] (hwidth : first + k < width) (hpivot : row (first + k) ≠ 0)
    (h : Solves width first x y row k k) :
    Solves width first x y (fun c => Function.update row (first + k) 1 c * (row (first + k))⁻¹)
      k (k + 1) := by
  have hmem : first + k ∈ range width := mem_range.mpr hwidth
  rw [Solves, if_neg (lt_irrefl k), ← add_sum_erase _ _ hmem, operand_of_le k le_rfl] at h
  rw [Solves, if_pos (Nat.lt_succ_self k), ← add_sum_erase _ _ hmem, Function.update_self,
    operand_of_lt k (Nat.lt_succ_self k)]
  have hrest : ∀ c ∈ (range width).erase (first + k),
      Function.update row (first + k) 1 c * (row (first + k))⁻¹ * operand first (k + 1) x y c =
        (row (first + k))⁻¹ * (row c * operand first k x y c) := by
    intro c hc
    have hne : c ≠ first + k := (mem_erase.mp hc).1
    rw [Function.update_of_ne hne, operand_congr (show _ ↔ (first ≤ c ∧ c < first + k) by omega)]
    ring
  rw [sum_congr rfl hrest, ← mul_sum]
  set rest := ∑ c ∈ (range width).erase (first + k), row c * operand first k x y c
  have hcancel : rest + rest = 0 := CharTwo.add_self_eq_zero rest
  field_simp
  linear_combination -h - hcancel

/-- The rows that follow the level, once they are solved together, are put in for their inputs. -/
lemma Solves.addRows {n : ℕ} {rows : ℕ → ℕ → K} (hwidth : first + (level + n) ≤ width)
    (hk : k < level ∨ level + n ≤ k) (h : Solves width first x y row k level)
    (hrows : ∀ i < n, Solves width first x y (rows i) (level + i) (level + n)) :
    Solves width first x y
      (fun c => (if first + level ≤ c ∧ c < first + (level + n) then 0 else row c) +
      ∑ i ∈ range n, row (first + level + i) * rows i c) k (level + n) := by
  have hterm : ∀ c ∈ range width, row c * operand first level x y c =
      (if first + level ≤ c ∧ c < first + (level + n) then 0 else row c) * operand first
        (level + n) x y c +
        if first + level ≤ c ∧ c < first + (level + n) then row c * x c else 0 := by
    intro c _
    split_ifs with hin
    · rw [zero_mul, zero_add, operand, if_neg (by omega)]
    · rw [add_zero, operand_congr (show _ ↔ (first ≤ c ∧ c < first + (level + n)) by omega)]
  have hin : ∑ c ∈ range width,
      (if first + level ≤ c ∧ c < first + (level + n) then row c * x c else 0) =
      ∑ i ∈ range n, row (first + level + i) * x (first + level + i) := by
    have hset : (range width).filter (fun c => first + level ≤ c ∧ c < first + (level + n)) =
        (range n).image (first + level + ·) := by
      ext c
      simp only [mem_filter, mem_range, mem_image]
      constructor
      · intro hc
        exact ⟨c - (first + level), by omega, by omega⟩
      · rintro ⟨i, hi, rfl⟩
        omega
    rw [← sum_filter, hset, sum_image fun a _ b _ => (add_right_injective _).eq_iff.mp]
  have hsub : ∀ i ∈ range n, row (first + level + i) * x (first + level + i) =
      ∑ c ∈ range width, row (first + level + i) * rows i c * operand first (level + n) x y c := by
    intro i hi
    have hi := mem_range.mp hi
    have hsolved := hrows i hi
    rw [Solves, if_pos (by omega), ← add_assoc] at hsolved
    rw [hsolved, mul_sum]
    exact sum_congr rfl fun c _ => (mul_assoc _ _ _).symm
  have hside :
      (if k < level + n then x (first + k) else y k) = if k < level then x (first + k) else y k :=
    if_congr (by omega) rfl rfl
  rw [Solves, hside, h, sum_congr rfl hterm, sum_add_distrib, hin, sum_congr rfl hsub, sum_comm,
    ← sum_add_distrib]
  refine sum_congr rfl fun c _ => ?_
  rw [add_mul, sum_mul]

section Dependency

variable {count : ℕ} {matrix : ℕ → ℕ → K}

/-- Outputs made by a matrix from inputs. -/
def Encodes (width count : ℕ) (matrix : ℕ → ℕ → K) (x y : ℕ → K) : Prop :=
  ∀ k < count, y k = ∑ c ∈ range width, matrix k c * x c

/-- A row of the tableau keeps to its equation whatever the inputs are. -/
def Row (width first count : ℕ) (matrix : ℕ → ℕ → K) (row : ℕ → K) (k level : ℕ) : Prop :=
  ∀ x y, Encodes width count matrix x y → Solves width first x y row k level

lemma row_zero (hk : k < count) : Row width first count matrix (matrix k) k 0 := by
  intro x y hxy
  rw [Solves, if_neg (Nat.not_lt_zero k), hxy k hk]
  refine sum_congr rfl fun c _ => ?_
  rw [operand, if_neg (by omega)]

/-- Where a pivot is missing, the row of the matrix is a combination of those above it, as far as
the columns of these rows and its own go. -/
lemma Row.dependent (hwidth : first + k < width)
    (h : Row width first count matrix row k k) (hpivot : row (first + k) = 0) (i : ℕ) (hi : i ≤ k) :
    matrix k (first + i) = ∑ j ∈ range k, row (first + j) * matrix j (first + i) := by
  set x : ℕ → K := Pi.single (first + i) 1 with hx
  have hcolumn (j : ℕ) : ∑ c ∈ range width, matrix j c * x c = matrix j (first + i) := by
    rw [sum_eq_single_of_mem (first + i) (mem_range.mpr (by omega)), hx, Pi.single_eq_same, mul_one]
    intro c _ hc
    rw [hx, Pi.single_eq_of_ne hc, mul_zero]
  have hsolved := h x (fun j => matrix j (first + i)) fun j _ => (hcolumn j).symm
  rw [Solves, if_neg (lt_irrefl k)] at hsolved
  rw [hsolved]
  have hsub : (range k).image (first + ·) ⊆ range width := by
    intro c hc
    obtain ⟨j, hj, rfl⟩ := mem_image.mp hc
    have := mem_range.mp hj
    exact mem_range.mpr (by omega)
  rw [← sum_subset hsub, sum_image fun a _ b _ => (add_right_injective first).eq_iff.mp]
  · exact sum_congr rfl fun j hj => by rw [operand_of_lt j (mem_range.mp hj)]
  · intro c _ hc
    by_cases hin : first ≤ c ∧ c < first + k
    · exact absurd (mem_image.mpr ⟨c - first, mem_range.mpr (by omega), by omega⟩) hc
    rw [operand, if_neg hin]
    rcases eq_or_ne c (first + i) with rfl | hne
    · rw [show first + i = first + k by omega, hpivot, zero_mul]
    · rw [hx, Pi.single_eq_of_ne hne, mul_zero]

/-- The powers of so many different numbers do not depend on the powers below them. -/
lemma not_dependent_powers {point scale : ℕ → K} (hpoint : Set.InjOn point (Set.Iic k))
    (hscale : ∀ i ≤ k, scale i ≠ 0)
    (factor : ℕ → K) : ¬ ∀ i ≤ k, scale i * point i ^ k = ∑ j ∈ range k,
    factor j * (scale i * point i ^ j) := by
  classical
  intro hdependent
  let p : Polynomial K := Polynomial.X ^ k - ∑ j ∈ range k,
    Polynomial.C (factor j) * Polynomial.X ^ j
  have hlow :
      (∑ j ∈ range k, Polynomial.C (factor j) * Polynomial.X ^ j).degree < (k : WithBot ℕ) := by
    refine (Polynomial.degree_lt_iff_coeff_zero _ _).mpr fun i hi => ?_
    rw [Polynomial.finsetSum_coeff]
    refine sum_eq_zero fun j hj => ?_
    rw [Polynomial.coeff_C_mul_X_pow, if_neg]
    have := mem_range.mp hj
    omega
  have hmonic : p.Monic := by
    rw [show p = Polynomial.X ^ k - _ from rfl, sub_eq_add_neg]
    exact Polynomial.monic_X_pow_add (by rwa [Polynomial.degree_neg])
  have hdegree : p.natDegree = k := by
    refine Polynomial.natDegree_eq_of_degree_eq_some ?_
    rw [show p = Polynomial.X ^ k - _ from rfl, Polynomial.degree_sub_eq_left_of_degree_lt] <;>
      rw [Polynomial.degree_X_pow]
    exact hlow
  have hroots : (range (k + 1)).image point ⊆ p.roots.toFinset := by
    intro a ha
    obtain ⟨i, hi, rfl⟩ := mem_image.mp ha
    have hi : i ≤ k := Nat.lt_succ_iff.mp (mem_range.mp hi)
    refine Multiset.mem_toFinset.mpr ((Polynomial.mem_roots hmonic.ne_zero).mpr ?_)
    have hsum := hdependent i hi
    rw [sum_congr rfl fun j _ => mul_left_comm (factor j) (scale i) (point i ^ j),
      ← mul_sum] at hsum
    have hpow := mul_left_cancel₀ (hscale i hi) hsum
    rw [Polynomial.IsRoot, show p = Polynomial.X ^ k - _ from rfl, Polynomial.eval_sub,
      Polynomial.eval_pow, Polynomial.eval_X, Polynomial.eval_finsetSum, hpow, sub_eq_zero]
    exact sum_congr rfl fun j _ => by simp
  have hcard : k + 1 ≤ k := by
    calc k + 1 = ((range (k + 1)).image point).card := by
          rw [card_image_of_injOn, card_range]
          intro a ha b hb hab
          refine hpoint ?_ ?_ hab
          · exact Nat.lt_succ_iff.mp (mem_range.mp (mem_coe.mp ha))
          · exact Nat.lt_succ_iff.mp (mem_range.mp (mem_coe.mp hb))
      _ ≤ p.roots.toFinset.card := card_le_card hroots
      _ ≤ p.roots.card := Multiset.toFinset_card_le _
      _ ≤ p.natDegree := Polynomial.card_roots' p
      _ = k := hdegree
  omega

end Dependency

end DriveIntegrity.Elimination
