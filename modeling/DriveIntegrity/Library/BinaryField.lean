import Mathlib.RingTheory.AdjoinRoot
import Mathlib.GroupTheory.OrderOfElement
import Mathlib.Algebra.Field.ZMod
import Mathlib.Algebra.Module.ZMod
import Mathlib.Tactic

/-! Machine words as residues of polynomials over two elements. -/

namespace DriveIntegrity.BinaryWord

open Polynomial Finset

variable {w : ℕ}

/-- The polynomial with a word for its coefficients, lowest bit first. -/
noncomputable def toPoly (a : BitVec w) : (ZMod 2)[X] :=
  ∑ i ∈ range w, if a.getLsbD i then X ^ i else 0

lemma coeff_toPoly (a : BitVec w) (i : ℕ) : (toPoly a).coeff i = if a.getLsbD i then 1 else 0 := by
  have hterm (j : ℕ) : (if a.getLsbD j then (X : (ZMod 2)[X]) ^ j else 0).coeff i =
      if j = i then (if a.getLsbD i then 1 else 0) else 0 := by
    rw [apply_ite (coeff · i), coeff_X_pow, coeff_zero]
    rcases eq_or_ne j i with rfl | hne
    · simp
    · simp [hne, Ne.symm hne]
  rw [toPoly, finsetSum_coeff, sum_congr rfl fun j _ => hterm j, sum_ite_eq']
  split_ifs with hmem hbit hbit
  · rfl
  · rfl
  · exact absurd (BitVec.lt_of_getLsbD hbit) (by simpa using hmem)
  · rfl

lemma toPoly_injective : Function.Injective (toPoly : BitVec w → (ZMod 2)[X]) := by
  intro a b hab
  refine BitVec.eq_of_getLsbD_eq fun i _ => ?_
  have h := congrArg (coeff · i) hab
  simp only [coeff_toPoly] at h
  by_cases ha : a.getLsbD i <;> by_cases hb : b.getLsbD i <;> simp_all

lemma degree_toPoly_lt (a : BitVec w) : (toPoly a).degree < w := by
  refine (degree_lt_iff_coeff_zero _ _).mpr fun i hi => ?_
  rw [coeff_toPoly, BitVec.getLsbD_of_ge a i hi]
  rfl

@[simp] lemma toPoly_zero : toPoly (0#w) = 0 := by
  ext i
  simp [coeff_toPoly]

lemma toPoly_xor (a b : BitVec w) : toPoly (a ^^^ b) = toPoly a + toPoly b := by
  ext i
  rw [coeff_add, coeff_toPoly, coeff_toPoly, coeff_toPoly, BitVec.getLsbD_xor]
  cases a.getLsbD i <;> cases b.getLsbD i <;> decide

lemma toPoly_twoPow {i : ℕ} (hi : i < w) : toPoly (BitVec.twoPow w i) = X ^ i := by
  ext j
  rw [coeff_toPoly, coeff_X_pow, BitVec.getLsbD_twoPow]
  simp [hi, eq_comm]

lemma toPoly_shiftLeft {m : ℕ} (a : BitVec m) (n s : ℕ)
    (hfit : ∀ i, n ≤ i + s → a.getLsbD i = false) :
    toPoly (a.setWidth n <<< s) = X ^ s * toPoly a := by
  ext i
  rw [coeff_toPoly, coeff_X_pow_mul', coeff_toPoly, BitVec.getLsbD_shiftLeft,
    BitVec.getLsbD_setWidth]
  by_cases hs : s ≤ i
  · by_cases hn : i < n
    · simp [hs, hn, show i - s < n by omega]
    · simp [hs, hn, hfit (i - s) (by omega)]
  · simp [hs]

lemma toPoly_eq_add {m : ℕ} (a : BitVec m) (k : ℕ) :
    toPoly a = toPoly (a.setWidth k) + X ^ k * toPoly (a >>> k) := by
  ext i
  rw [coeff_add, coeff_X_pow_mul', coeff_toPoly, coeff_toPoly, coeff_toPoly,
    BitVec.getLsbD_setWidth, BitVec.getLsbD_ushiftRight]
  by_cases hk : k ≤ i
  · simp [hk, show ¬ i < k by omega, show k + (i - k) = i by omega]
  · simp [hk, show i < k by omega]

lemma sum_twoPow_induction {P : BitVec w → Prop} (hzero : P 0#w)
    (hxor : ∀ a b, P a → P b → P (a ^^^ b))
    (hbit : ∀ i < w, P (BitVec.twoPow w i)) (a : BitVec w) : P a := by
  have hlow : ∀ n ≤ w, P (a &&& BitVec.ofNat w (2 ^ n - 1)) := by
    intro n hn
    induction n with
    | zero => simpa using hzero
    | succ n ih =>
      have hsplit : a &&& BitVec.ofNat w (2 ^ (n + 1) - 1) =
          (a &&& BitVec.ofNat w (2 ^ n - 1)) ^^^ (if a.getLsbD n then BitVec.twoPow w
            n else 0#w) := by
        refine BitVec.eq_of_getLsbD_eq fun i hi => ?_
        rw [BitVec.getLsbD_xor, BitVec.getLsbD_and, BitVec.getLsbD_and, BitVec.getLsbD_ofNat,
          BitVec.getLsbD_ofNat, Nat.testBit_two_pow_sub_one, Nat.testBit_two_pow_sub_one,
          apply_ite (BitVec.getLsbD · i), BitVec.getLsbD_twoPow]
        rcases lt_trichotomy i n with hlt | rfl | hgt
        · simp [hi, hlt, show i < n + 1 by omega, show n ≠ i by omega]
        · by_cases hbit : a.getLsbD i <;> simp [hi, hbit]
        · simp [show ¬ i < n by omega, show ¬ i < n + 1 by omega, show n ≠ i by omega]
      rw [hsplit]
      refine hxor _ _ (ih (by omega)) ?_
      split_ifs
      · exact hbit n (by omega)
      · exact hzero
  have hones : BitVec.ofNat w (2 ^ w - 1) = BitVec.allOnes w := by
    apply BitVec.eq_of_toNat_eq
    simp
  have hall := hlow w le_rfl
  rwa [hones, BitVec.and_allOnes] at hall

lemma ext_twoPow {v : ℕ} {f g : BitVec w → BitVec v} (hf : ∀ a b, f (a ^^^ b) = f a ^^^ f b)
    (hg : ∀ a b, g (a ^^^ b) = g a ^^^ g b)
    (hbit : ∀ i < w, f (BitVec.twoPow w i) = g (BitVec.twoPow w i))
    (a : BitVec w) : f a = g a := by
  have hzero {f : BitVec w → BitVec v} (hf : ∀ a b, f (a ^^^ b) = f a ^^^ f b) : f 0#w = 0#v := by
    have h := hf 0#w 0#w
    rwa [BitVec.xor_self, BitVec.xor_self] at h
  have hsum : ∀ a b, f a = g a → f b = g b → f (a ^^^ b) = g (a ^^^ b) := fun a b ha hb => by
    rw [hf, hg, ha, hb]
  exact sum_twoPow_induction (by rw [hzero hf, hzero hg]) hsum hbit a

/-- The modulus whose terms below the highest are the bits of a word. -/
noncomputable def modulus (poly : BitVec w) : (ZMod 2)[X] :=
  X ^ w + toPoly poly

lemma degree_modulus (poly : BitVec w) : (modulus poly).degree = w := by
  rw [modulus, degree_add_eq_left_of_degree_lt, degree_X_pow]
  rw [degree_X_pow]
  exact degree_toPoly_lt poly

abbrev Residue (poly : BitVec w) : Type :=
  AdjoinRoot (modulus poly)

variable {poly : BitVec w}

lemma residue_add_self (x : Residue poly) : x + x = 0 := by
  obtain ⟨p, rfl⟩ := AdjoinRoot.mk_surjective x
  rw [← map_add, CharTwo.add_self_eq_zero, map_zero]

lemma residue_neg (x : Residue poly) : -x = x :=
  neg_eq_of_add_eq_zero_left (residue_add_self x)

noncomputable def value (poly a : BitVec w) : Residue poly :=
  AdjoinRoot.mk (modulus poly) (toPoly a)

lemma value_injective : Function.Injective (value poly) := by
  intro a b hab
  have hdvd : modulus poly ∣ toPoly a - toPoly b := AdjoinRoot.mk_eq_mk.mp hab
  have hdeg : (toPoly a - toPoly b).degree < (modulus poly).degree := by
    rw [degree_modulus]
    exact lt_of_le_of_lt (degree_sub_le _ _) (max_lt (degree_toPoly_lt a) (degree_toPoly_lt b))
  exact toPoly_injective (sub_eq_zero.mp (eq_zero_of_dvd_of_degree_lt hdvd hdeg))

@[simp] lemma value_zero : value poly 0#w = 0 := by
  rw [value, toPoly_zero, map_zero]

lemma value_xor (a b : BitVec w) : value poly (a ^^^ b) = value poly a + value poly b := by
  rw [value, toPoly_xor, map_add, value, value]

lemma value_twoPow {i : ℕ} (hi : i < w) :
    value poly (BitVec.twoPow w i) = AdjoinRoot.root (modulus poly) ^ i := by
  rw [value, toPoly_twoPow hi, map_pow, AdjoinRoot.mk_X]

/-- A word times the indeterminate: a shift, reduced when a bit leaves it. -/
def xtime (poly a : BitVec w) : BitVec w :=
  (a <<< 1) ^^^ (if a.msb then poly else 0#w)

lemma xtime_xor (a b : BitVec w) : xtime poly (a ^^^ b) = xtime poly a ^^^ xtime poly b := by
  have hmsb : (a ^^^ b).msb = (a.msb ^^ b.msb) := BitVec.msb_xor
  rw [xtime, xtime, xtime, hmsb, BitVec.shiftLeft_xor_distrib]
  have hcarry : (if (a.msb ^^ b.msb) = true then poly else 0#w)
      = (if a.msb then poly else 0#w) ^^^ (if b.msb then poly else 0#w) := by
    cases a.msb <;> cases b.msb <;> simp
  rw [hcarry]
  ac_rfl

lemma neg_ushiftRight (a : BitVec (w + 1)) :
    -(a >>> w) = if a.msb then BitVec.allOnes (w + 1) else 0#(w + 1) := by
  have hbit : a >>> w = BitVec.ofNat (w + 1) a.msb.toNat := by
    refine BitVec.eq_of_getLsbD_eq fun i hi => ?_
    rw [BitVec.getLsbD_ushiftRight, BitVec.msb_eq_getLsbD_last, BitVec.getLsbD_ofNat,
      Nat.add_sub_cancel]
    rcases i with - | i
    · cases a.getLsbD w <;> simp
    · rw [BitVec.getLsbD_of_ge a _ (by omega)]
      cases a.getLsbD w <;> simp [Nat.testBit_succ]
  rw [hbit]
  cases a.msb
  · simp
  · rw [if_pos rfl]
    apply BitVec.eq_of_toNat_eq
    simp

lemma toPoly_xtime (a : BitVec w) :
    toPoly (xtime poly a) = X * toPoly a + (if a.msb then modulus poly else 0) := by
  have htwo (c : ZMod 2) : c + c = 0 := CharTwo.add_self_eq_zero c
  rw [xtime, toPoly_xor, apply_ite toPoly, toPoly_zero]
  have hshift : toPoly (a <<< 1) = X * toPoly a + (if a.msb then X ^ w else 0) := by
    ext i
    rw [coeff_add, coeff_toPoly, BitVec.getLsbD_shiftLeft, BitVec.msb_eq_getLsbD_last]
    rcases i with - | i
    · rcases w with - | w
      · simp [BitVec.getLsbD_of_ge]
      · simp [apply_ite (coeff · 0)]
    · rw [coeff_X_mul, coeff_toPoly]
      by_cases hlt : i + 1 < w
      · have hne : i + 1 ≠ w := by omega
        simp [hlt, hne, apply_ite (coeff · (i + 1)), coeff_X_pow]
      · rcases eq_or_ne (i + 1) w with rfl | hne
        · rw [show i + 1 - 1 = i by omega]
          cases a.getLsbD i <;> simp [htwo]
        · have hbit : a.getLsbD i = false := BitVec.getLsbD_of_ge a i (by omega)
          simp [hlt, hbit, hne, apply_ite (coeff · (i + 1)), coeff_X_pow]
  rw [hshift]
  split_ifs
  · rw [modulus]
    ring
  · ring

lemma value_xtime (a : BitVec w) :
    value poly (xtime poly a) = AdjoinRoot.root (modulus poly) * value poly a := by
  rw [value, toPoly_xtime, map_add, map_mul, AdjoinRoot.mk_X,
    apply_ite (AdjoinRoot.mk (modulus poly)),
    AdjoinRoot.mk_self, map_zero, ite_self, add_zero, value]

lemma value_iterate_xtime (n : ℕ) (a : BitVec w) :
    value poly ((xtime poly)^[n] a) = AdjoinRoot.root (modulus poly) ^ n * value poly a := by
  induction n with
  | zero => simp
  | succ n ih => rw [Function.iterate_succ_apply', value_xtime, ih, pow_succ']; ring

lemma value_eq_sum (a : BitVec w) :
    value poly a = ∑ i ∈ range w,
    if a.getLsbD i then AdjoinRoot.root (modulus poly) ^ i else 0 := by
  rw [value, toPoly, map_sum]
  refine sum_congr rfl fun i _ => ?_
  rw [apply_ite (AdjoinRoot.mk (modulus poly)), map_pow, AdjoinRoot.mk_X, map_zero]

lemma value_one : value poly (1#w) = 1 := by
  rcases w with - | w
  · have hone : modulus poly = 1 := by
      rw [modulus, pow_zero, BitVec.eq_nil poly]
      exact add_eq_left.mpr toPoly_zero
    rw [value, ← map_one (AdjoinRoot.mk (modulus poly)), AdjoinRoot.mk_eq_mk, hone]
    exact one_dvd _
  · rw [← BitVec.twoPow_zero, value_twoPow w.succ_pos, pow_zero]

def mulBits (poly : BitVec w) : ℕ → BitVec w → BitVec w → BitVec w
  | 0, _, _ => 0#w
  | n + 1, a, b => (if b.getLsbD 0 then a else 0#w) ^^^ mulBits poly n (xtime poly a) (b >>> 1)

lemma value_mulBits (n : ℕ) (a b : BitVec w) :
    value poly (mulBits poly n a b) =
      value poly a * ∑ i ∈ range n,
      if b.getLsbD i then AdjoinRoot.root (modulus poly) ^ i else 0 := by
  induction n generalizing a b with
  | zero => simp [mulBits]
  | succ n ih =>
    rw [mulBits, value_xor, ih, value_xtime, sum_range_succ', apply_ite (value poly),
      value_zero, mul_add, mul_comm _ (value poly a), mul_assoc, mul_sum, pow_zero]
    have hterm (i : ℕ) : AdjoinRoot.root (modulus poly) *
        (if (b >>> 1).getLsbD i then AdjoinRoot.root (modulus poly) ^ i else 0) =
        if b.getLsbD (i + 1) then AdjoinRoot.root (modulus poly) ^ (i + 1) else 0 := by
      rw [BitVec.getLsbD_ushiftRight, Nat.add_comm 1 i, mul_ite, mul_zero, ← pow_succ']
    rw [sum_congr rfl fun i _ => hterm i]
    split_ifs <;> ring

end DriveIntegrity.BinaryWord

namespace DriveIntegrity

open BinaryWord Finset

variable {w : ℕ} {poly : BitVec w}

/-- A word taken as a residue. -/
@[ext] structure Element (poly : BitVec w) where
  word : BitVec w
deriving DecidableEq

namespace Element

noncomputable def residue (a : Element poly) : Residue poly :=
  value poly a.word

lemma residue_injective : Function.Injective (residue : Element poly → Residue poly) :=
  fun _ _ h => Element.ext (value_injective h)

instance : Zero (Element poly) := ⟨⟨0#w⟩⟩
instance : One (Element poly) := ⟨⟨1#w⟩⟩
instance : Add (Element poly) := ⟨fun a b => ⟨a.word ^^^ b.word⟩⟩
instance : Neg (Element poly) := ⟨id⟩
instance : Mul (Element poly) := ⟨fun a b => ⟨mulBits poly w a.word b.word⟩⟩

@[simp] lemma word_zero : (0 : Element poly).word = 0#w := rfl
@[simp] lemma word_add (a b : Element poly) : (a + b).word = a.word ^^^ b.word := rfl
lemma word_mul (a b : Element poly) : (a * b).word = mulBits poly w a.word b.word := rfl

lemma residue_zero : residue (0 : Element poly) = 0 := value_zero
lemma residue_one : residue (1 : Element poly) = 1 := value_one
lemma residue_add (a b : Element poly) : residue (a + b) = residue a + residue b := value_xor _ _
lemma residue_neg (a : Element poly) : residue (-a) = -residue a := (BinaryWord.residue_neg _).symm

lemma residue_mul (a b : Element poly) : residue (a * b) = residue a * residue b := by
  rw [residue, word_mul, value_mulBits, ← value_eq_sum, residue, residue]

instance : CommRing (Element poly) where
  add_assoc a b c := residue_injective (by simp only [residue_add]; ring)
  zero_add a := residue_injective (by simp only [residue_add, residue_zero]; ring)
  add_zero a := residue_injective (by simp only [residue_add, residue_zero]; ring)
  add_comm a b := residue_injective (by simp only [residue_add]; ring)
  neg_add_cancel a :=
    residue_injective (by simp only [residue_add, residue_neg, residue_zero]; ring)
  mul_assoc a b c := residue_injective (by simp only [residue_mul]; ring)
  one_mul a := residue_injective (by simp only [residue_mul, residue_one]; ring)
  mul_one a := residue_injective (by simp only [residue_mul, residue_one]; ring)
  mul_comm a b := residue_injective (by simp only [residue_mul]; ring)
  zero_mul a := residue_injective (by simp only [residue_mul, residue_zero]; ring)
  mul_zero a := residue_injective (by simp only [residue_mul, residue_zero]; ring)
  left_distrib a b c := residue_injective (by simp only [residue_add, residue_mul]; ring)
  right_distrib a b c := residue_injective (by simp only [residue_add, residue_mul]; ring)
  nsmul := nsmulRec
  zsmul := zsmulRec

lemma add_self (a : Element poly) : a + a = 0 :=
  residue_injective (by rw [residue_add, residue_add_self, residue_zero])

instance : Fintype (Element poly) :=
  Fintype.ofEquiv (Fin (2 ^ w))
    ⟨fun n => ⟨BitVec.ofFin n⟩, fun a => a.word.toFin, fun _ => rfl, fun _ => rfl⟩

lemma card : Fintype.card (Element poly) = 2 ^ w :=
  (Fintype.ofEquiv_card _).trans (Fintype.card_fin _)

def generator (poly : BitVec w) : Element poly :=
  ⟨xtime poly (1#w)⟩

lemma generator_mul (a : Element poly) : generator poly * a = ⟨xtime poly a.word⟩ := by
  refine residue_injective ?_
  rw [residue_mul, residue, residue, residue, generator, value_xtime, value_xtime,
    value_one, mul_one]

lemma generator_pow_mul (n : ℕ) (a : Element poly) :
    generator poly ^ n * a = ⟨(xtime poly)^[n] a.word⟩ := by
  induction n with
  | zero => rw [pow_zero, one_mul, Function.iterate_zero_apply]
  | succ n ih => rw [pow_succ', mul_assoc, ih, generator_mul, Function.iterate_succ_apply']

lemma twoPow_eq {i : ℕ} (hi : i < w) :
    (⟨BitVec.twoPow w i⟩ : Element poly) = generator poly ^ i := by
  refine residue_injective ?_
  have hpow : generator poly ^ i = ⟨(xtime poly)^[i] 1#w⟩ := by
    rw [← mul_one (generator poly ^ i), generator_pow_mul]; rfl
  rw [hpow, residue, residue, value_twoPow hi, value_iterate_xtime, value_one, mul_one]

/-- The powers of the indeterminate are all the residues other than zero. -/
class Primitive (poly : BitVec w) : Prop where
  orderOf_generator : orderOf (generator poly) = 2 ^ w - 1

section Primitive

variable [Primitive poly]

lemma order_generator (poly : BitVec w) [Primitive poly] : orderOf (generator poly) = 2 ^ w - 1 :=
  Primitive.orderOf_generator

lemma generator_pow_order : generator poly ^ (2 ^ w - 1) = 1 := by
  rw [← order_generator poly, pow_orderOf_eq_one]

lemma width_pos (poly : BitVec w) [Primitive poly] : 0 < w := by
  refine Nat.pos_of_ne_zero fun hw => ?_
  subst hw
  have horder := order_generator poly
  have hone : generator poly = 1 := Element.ext (Subsingleton.elim _ _)
  rw [hone, orderOf_one] at horder
  omega

instance : Nontrivial (Element poly) := by
  refine Fintype.one_lt_card_iff_nontrivial.mp ?_
  rw [card]
  exact Nat.one_lt_two_pow (width_pos poly).ne'

lemma generator_pow_ne_zero (n : ℕ) : generator poly ^ n ≠ 0 := by
  intro h
  have hpow : (1 : Element poly) = generator poly ^ (n * (2 ^ w - 1)) := by
    rw [mul_comm, pow_mul, generator_pow_order, one_pow]
  rw [pow_mul, h, zero_pow] at hpow
  · exact one_ne_zero hpow
  · have := Nat.one_lt_two_pow (width_pos poly).ne'
    omega

lemma exists_generator_pow {a : Element poly} (ha : a ≠ 0) :
    ∃ n < 2 ^ w - 1, generator poly ^ n = a := by
  have hsub : (range (2 ^ w - 1)).image (generator poly ^ ·) ⊆ univ.erase 0 := by
    intro b hb
    obtain ⟨n, -, rfl⟩ := mem_image.mp hb
    exact mem_erase.mpr ⟨generator_pow_ne_zero n, mem_univ _⟩
  have hinj : Set.InjOn (generator poly ^ ·) (range (2 ^ w - 1) : Set ℕ) := by
    rw [← order_generator poly, coe_range]
    exact pow_injOn_Iio_orderOf
  have hall := eq_of_subset_of_card_le hsub (by
    rw [card_image_of_injOn hinj, card_range, card_erase_of_mem (mem_univ _), card_univ, card])
  have hmem : a ∈ (range (2 ^ w - 1)).image (generator poly ^ ·) :=
    hall ▸ mem_erase.mpr ⟨ha, mem_univ _⟩
  obtain ⟨n, hn, rfl⟩ := mem_image.mp hmem
  exact ⟨n, mem_range.mp hn, rfl⟩

instance : Field (Element poly) where
  inv a := if a = 0 then 0 else a ^ (2 ^ w - 2)
  exists_pair_ne := exists_pair_ne _
  inv_zero := if_pos rfl
  mul_inv_cancel a ha := by
    have hpow : 2 ^ w - 2 + 1 = 2 ^ w - 1 := by
      have := Nat.one_lt_two_pow (width_pos poly).ne'
      omega
    obtain ⟨n, -, rfl⟩ := exists_generator_pow ha
    rw [if_neg ha, ← pow_succ', hpow, ← pow_mul, mul_comm n, pow_mul, generator_pow_order, one_pow]
  nnqsmul := _
  nnqsmul_def _ _ := rfl
  qsmul := _
  qsmul_def _ _ := rfl

instance : CharP (Element poly) 2 :=
  CharTwo.of_one_ne_zero_of_two_eq_zero one_ne_zero (by rw [← one_add_one_eq_two, add_self])

lemma generator_pow_eq_iff {m n : ℕ} :
    generator poly ^ m = generator poly ^ n ↔ m ≡ n [MOD 2 ^ w - 1] := by
  have hfin : IsOfFinOrder (generator poly) := by
    rw [← orderOf_pos_iff, order_generator]
    have := Nat.one_lt_two_pow (width_pos poly).ne'
    omega
  rw [← order_generator poly]
  exact hfin.pow_eq_pow_iff_modEq

end Primitive

/-- A power by squaring, for exponents of at most so many bits. -/
def powBits : ℕ → Element poly → ℕ → Element poly
  | 0, _, _ => 1
  | k + 1, a, n => (if n % 2 = 1 then a else 1) * powBits k (a * a) (n / 2)

lemma powBits_eq_pow {k n : ℕ} (h : n < 2 ^ k) (a : Element poly) : powBits k a n = a ^ n := by
  induction k generalizing a n with
  | zero => rw [powBits, Nat.lt_one_iff.mp h, pow_zero]
  | succ k ih =>
    rw [powBits, ih (by omega), ← sq, ← pow_mul]
    rcases Nat.mod_two_eq_zero_or_one n with hmod | hmod
    · rw [if_neg (by omega), one_mul]
      congr 1
      omega
    · rw [if_pos hmod, ← pow_succ']
      congr 1
      omega

lemma orderOf_eq_of_powBits {k n : ℕ} (hpos : 0 < n) (hk : n < 2 ^ k) (a : Element poly)
    (hpow : powBits k a n = 1)
    (hprime : ∀ p, p.Prime → p ∣ n → powBits k a (n / p) ≠ 1) : orderOf a = n := by
  refine orderOf_eq_of_pow_and_pow_div_prime hpos (powBits_eq_pow hk a ▸ hpow) fun p hp hdvd => ?_
  rw [← powBits_eq_pow (lt_of_le_of_lt (Nat.div_le_self n p) hk) a]
  exact hprime p hp hdvd

end Element

end DriveIntegrity
