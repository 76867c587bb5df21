import DriveIntegrity.Parity.Coefficients
import DriveIntegrity.Library.Lanes
import DriveIntegrity.Library.Bytes

/-! The multiplication of a block by one factor, with the tables of `calc_table`. -/

namespace DriveIntegrity.Parity

open BinaryWord Lanes

section Macros

def multByTwo (p : BitVec 16) : BitVec 16 :=
  ((p.setWidth 32 <<< 1) ^^^ (0x1100B#32 &&& -(p.setWidth 32 >>> 15))).setWidth 16

def multByTwoX2 (p : BitVec 32) : BitVec 32 :=
  ((p <<< 1) &&& 0xFFFFFFFF#32) ^^^
    ((0x1100B#32 ^^^ ((0x1100B#32 &&& 0xFFFF#32) <<< 16)) &&& -(p >>> 31))

def multByTwoX4 (p : BitVec 64) : BitVec 64 :=
  ((p <<< 1) &&& 0xFFFFFFFFFFFFFFFF#64) ^^^
    ((0x1100B#64 ^^^ (0x1100B#64 <<< 16) ^^^ (0x1100B#64 <<< 32) ^^^
      ((0x1100B#64 &&& 0xFFFF#64) <<< 48)) &&&
      -(p >>> 63))

lemma multByTwo_eq (p : BitVec 16) : multByTwo p = xtime polynomial p := by
  have hbit : p.setWidth 32 >>> 15 = if p.msb then 1#32 else 0#32 := by
    refine BitVec.eq_of_getLsbD_eq fun i hi => ?_
    rw [BitVec.getLsbD_ushiftRight, BitVec.getLsbD_setWidth, BitVec.msb_eq_getLsbD_last]
    rcases i with - | i
    · cases p.getLsbD 15 <;> simp
    · rw [BitVec.getLsbD_of_ge p _ (by omega)]
      cases p.getLsbD 15 <;> simp
  have hshift : (p.setWidth 32 <<< 1).setWidth 16 = p <<< 1 := by
    refine BitVec.eq_of_getLsbD_eq fun i hi => ?_
    simp only [BitVec.getLsbD_setWidth, BitVec.getLsbD_shiftLeft]
    simp [hi, show i < 32 by omega, show i - 1 < 32 by omega]
  rw [multByTwo, hbit, xtime, BitVec.setWidth_xor, hshift]
  cases p.msb <;> rfl

lemma multByTwoX2_eq (p : BitVec 32) : multByTwoX2 p = xtime 0x100A100B#32 p := by
  have hall : (p <<< 1) &&& 0xFFFFFFFF#32 = p <<< 1 := BitVec.and_allOnes
  rw [multByTwoX2, neg_ushiftRight (w := 31), hall, xtime]
  cases p.msb <;> rfl

lemma multByTwoX4_eq (p : BitVec 64) : multByTwoX4 p = xtime 0x100A100A100A100B#64 p := by
  have hall : (p <<< 1) &&& 0xFFFFFFFFFFFFFFFF#64 = p <<< 1 := BitVec.and_allOnes
  rw [multByTwoX4, neg_ushiftRight (w := 63), hall, xtime]
  cases p.msb <;> rfl

lemma multByTwoX2_replicate (a : BitVec 16) :
    multByTwoX2 (a.replicate 2) = (xtime polynomial a).replicate 2 := by
  have h := ext_twoPow (f := fun a : BitVec 16 => xtime 0x100A100B#32 (a.replicate 2))
    (g := fun a => (xtime polynomial a).replicate 2) (fun a b => by rw [replicate_xor, xtime_xor])
    (fun a b => by rw [xtime_xor, replicate_xor]) (by decide +kernel) a
  rw [multByTwoX2_eq, h]

lemma multByTwoX4_replicate (a : BitVec 16) :
    multByTwoX4 (a.replicate 4) = (xtime polynomial a).replicate 4 := by
  have h := ext_twoPow (f := fun a : BitVec 16 => xtime 0x100A100A100A100B#64 (a.replicate 4))
    (g := fun a => (xtime polynomial a).replicate 4) (fun a b => by rw [replicate_xor, xtime_xor])
    (fun a b => by rw [xtime_xor, replicate_xor]) (by decide +kernel) a
  rw [multByTwoX4_eq, h]

end Macros

section Table

abbrev LhTable : Type := Vector (BitVec 16) 512

def LhTable.entry (t : LhTable) (i : ℕ) : BitVec 16 :=
  t[i]?.getD 0

/-- `write16`, `write32` and `write64` on a little-endian processor -/
def LhTable.write (lanes : ℕ) (t : LhTable) (at' : ℕ) (v : BitVec (16 * lanes)) : LhTable :=
  (List.range lanes).foldl (fun t l => t.setIfInBounds (at' + l) (lane 16 v l)) t

def LhTable.read (lanes : ℕ) (t : LhTable) (at' : ℕ) : BitVec (16 * lanes) :=
  pack (fun l => t.entry (at' + l)) lanes

/-- `for (k = 0; k < j; k++)` of `calc_table` -/
def fillInner (lanes base j : ℕ) (coefficient : BitVec (16 * lanes)) (lhtable : LhTable) :
    LhTable :=
  (List.range j).foldl
    (fun t k => t.write lanes (base + lanes * (k + j))
      (coefficient ^^^ t.read lanes (base + k * lanes))) lhtable

/-- `for (j = 1; …; j <<= 1)` of `calc_table`, with what is left of `coefficient` -/
def fill (lanes base : ℕ) (twice : BitVec (16 * lanes) → BitVec (16 * lanes)) :
    ℕ → ℕ → BitVec (16 * lanes) → LhTable → BitVec (16 * lanes) × LhTable
  | 0, _, coefficient, lhtable => (coefficient, lhtable)
  | rounds + 1, j, coefficient, lhtable =>
    fill lanes base twice rounds (j <<< 1) (twice coefficient)
      (fillInner lanes base j coefficient lhtable)

/-- `calc_table` where `sizeof(uintptr_t) >= 8` -/
def calcTable64 (coefficient : BitVec 16) (lhtable : LhTable) : LhTable :=
  let coefficient2 := coefficient.setWidth 32 <<< 16
  let tmp := multByTwoX2 (coefficient2 ||| coefficient.setWidth 32)
  let lhtable :=
    lhtable.write 4 0 (coefficient2.setWidth 64 ||| ((tmp ^^^ coefficient2).setWidth 64 <<< 32))
  let coefficient4 := tmp.setWidth 64 ||| (tmp.setWidth 64 <<< 32)
  let coefficient4 := multByTwoX4 coefficient4
  let (coefficient4, lhtable) := fill 4 0 multByTwoX4 6 1 coefficient4 lhtable
  let tmp2 := coefficient4 &&& 0xFFFF0000FFFF0000#64
  let coefficient4 := multByTwoX4 coefficient4
  let lhtable := lhtable.write 4 256 (tmp2 ^^^ (coefficient4 <<< 32))
  (fill 4 256 multByTwoX4 6 1 (multByTwoX4 coefficient4) lhtable).2

/-- `calc_table` where `sizeof(uintptr_t) >= 4` -/
def calcTable32 (coefficient : BitVec 16) (lhtable : LhTable) : LhTable :=
  let coefficient2 := coefficient.setWidth 32 <<< 16
  let lhtable := lhtable.write 2 0 coefficient2
  let coefficient2 := multByTwoX2 (coefficient2 ||| coefficient.setWidth 32)
  let (coefficient2, lhtable) := fill 2 0 multByTwoX2 7 1 coefficient2 lhtable
  let lhtable := lhtable.write 2 256 (coefficient2 &&& 0xFFFF0000#32)
  (fill 2 256 multByTwoX2 7 1 (multByTwoX2 coefficient2) lhtable).2

/-- `calc_table` elsewhere -/
def calcTable16 (coefficient : BitVec 16) (lhtable : LhTable) : LhTable :=
  let lhtable := lhtable.setIfInBounds 0 0
  let (coefficient, lhtable) := fill 1 0 multByTwo 8 1 coefficient lhtable
  let lhtable := lhtable.setIfInBounds 256 0
  (fill 1 256 multByTwo 8 1 coefficient lhtable).2

end Table

section Spec

variable {t : LhTable} {lanes base : ℕ}

lemma entry_setIfInBounds {i k : ℕ} (hi : i < 512) (v : BitVec 16) :
    LhTable.entry (t.setIfInBounds i v) k = if k = i then v else t.entry k := by
  rw [LhTable.entry, LhTable.entry, Vector.getElem?_setIfInBounds, if_pos hi]
  rcases eq_or_ne k i with rfl | hne
  · simp
  · rw [if_neg hne, if_neg hne.symm]

lemma LhTable.entry_write {at' : ℕ} (hfit : at' + lanes ≤ 512) (v : BitVec (16 * lanes)) (k : ℕ) :
    (t.write lanes at' v).entry k = if at' ≤ k ∧ k < at' + lanes
    then lane 16 v (k - at') else t.entry k := by
  have hpart : ∀ m ≤ lanes,
      ((List.range m).foldl (fun t l => t.setIfInBounds (at' + l) (lane 16 v l)) t).entry k =
      if at' ≤ k ∧ k < at' + m then lane 16 v (k - at') else t.entry k := by
    intro m hm
    induction m with
    | zero => rw [if_neg (by omega)]; rfl
    | succ m ih =>
      rw [List.range_succ, List.foldl_append, List.foldl_cons, List.foldl_nil,
        entry_setIfInBounds (by omega), ih (by omega)]
      split_ifs <;> first | rfl | omega | (congr 1; omega)
  exact hpart lanes le_rfl

lemma LhTable.lane_read {at' l : ℕ} (hl : l < lanes) :
    lane 16 (t.read lanes at') l = t.entry (at' + l) :=
  lane_pack hl

lemma entry_fillInner {j : ℕ} (hfit : base + lanes * (j + j) ≤ 512) (a : BitVec 16) (k : ℕ) :
    (fillInner lanes base j (a.replicate lanes) t).entry k =
      if base + lanes * j ≤ k ∧ k < base + lanes * (j + j) then a ^^^ t.entry (k - lanes * j)
        else t.entry k := by
  have hpart :
      ∀ m ≤ j, ∀ k, ((List.range m).foldl (fun t k => t.write lanes (base + lanes * (k + j))
      (a.replicate lanes ^^^ t.read lanes (base + k * lanes))) t).entry k =
      if base + lanes * j ≤ k ∧ k < base + lanes * (m + j) then a ^^^ t.entry (k - lanes * j)
        else t.entry k := by
    intro m hm
    induction m with
    | zero => exact fun k => by rw [Nat.zero_add, if_neg (by omega)]; rfl
    | succ m ih =>
      intro k
      have hspan : lanes * (m + 1 + j) = lanes * (m + j) + lanes := by ring
      have hmj : lanes * (m + j) = lanes * m + lanes * j := by ring
      have hjj : lanes * (j + j) = lanes * j + lanes * j := by ring
      have hle : lanes * m + lanes ≤ lanes * j := by
        rw [← Nat.mul_succ]
        exact Nat.mul_le_mul_left lanes hm
      rw [List.range_succ, List.foldl_append, List.foldl_cons, List.foldl_nil,
        LhTable.entry_write (by omega), ih (by omega)]
      by_cases hnew : base + lanes * (m + j) ≤ k ∧ k < base + lanes * (m + j) + lanes
      · rw [if_pos hnew, if_pos (by omega), lane_xor, lane_replicate (by omega),
          LhTable.lane_read (by omega), ih (by omega), if_neg (by rw [Nat.mul_comm m]; omega)]
        congr 2
        rw [Nat.mul_comm m]
        omega
      · rw [if_neg hnew]
        exact if_congr (by omega) rfl rfl
  exact hpart j le_rfl k

def Products (x : Galois16) (base count : ℕ) (t : LhTable) : Prop :=
  ∀ i < count, t.entry (base + i) = (x * ⟨BitVec.ofNat 16 i⟩).word

lemma ofNat_two_pow_add {m i : ℕ} (hm : m < 16) (hi : i < 2 ^ m) :
    (⟨BitVec.ofNat 16 (2 ^ m + i)⟩ : Galois16) = two ^ m + ⟨BitVec.ofNat 16 i⟩ := by
  rw [← Element.twoPow_eq hm]
  refine Element.ext (BitVec.eq_of_getLsbD_eq fun k hk => ?_)
  rw [Element.word_add, BitVec.getLsbD_xor, BitVec.getLsbD_ofNat, BitVec.getLsbD_ofNat,
    BitVec.getLsbD_twoPow]
  have hor := Nat.two_pow_add_eq_or_of_lt hi 1
  rw [mul_one] at hor
  rw [hor, Nat.testBit_or, Nat.testBit_two_pow]
  rcases eq_or_ne m k with rfl | hne
  · simp [Nat.testBit_lt_two_pow hi, hk]
  · simp [hne, hk]

lemma products_fillInner {x : Galois16} {j m : ℕ} (hj : lanes * j = 2 ^ m) (hm : m < 16)
    (hfit : base + 2 ^ (m + 1) ≤ 512) (h : Products x base (2 ^ m) t) :
    Products x base (2 ^ (m + 1))
      (fillInner lanes base j ((two ^ m * x).word.replicate lanes) t) := by
  intro i hi
  have hjj : lanes * (j + j) = 2 ^ (m + 1) := by rw [Nat.mul_add, hj, pow_succ]; ring
  rw [entry_fillInner (by omega), hjj, hj]
  split_ifs with hnew
  · obtain ⟨d, rfl⟩ := Nat.exists_eq_add_of_le (show 2 ^ m ≤ i by omega)
    have hd : d < 2 ^ m := by rw [pow_succ] at hi; omega
    rw [show base + (2 ^ m + d) - 2 ^ m = base + d by omega, h d hd,
      ofNat_two_pow_add hm hd, mul_add, mul_comm x (two ^ m)]
    rfl
  · exact h i (by omega)

lemma products_fill (lanes base : ℕ) {x : Galois16}
    {twice : BitVec (16 * lanes) → BitVec (16 * lanes)} (rounds j m : ℕ)
    (htwice : ∀ a : BitVec 16, twice (a.replicate lanes) = (xtime polynomial a).replicate lanes)
    (hj : lanes * j = 2 ^ m) (hm : m + rounds ≤ 16) (hfit : base + 2 ^ (m + rounds) ≤ 512)
    (h : Products x base (2 ^ m) t) :
    (fill lanes base twice rounds j ((two ^ m * x).word.replicate lanes) t).1 =
        (two ^ (m + rounds) * x).word.replicate lanes ∧
      Products x base (2 ^ (m + rounds))
        (fill lanes base twice rounds j ((two ^ m * x).word.replicate lanes) t).2 ∧
      ∀ k < base,
      (fill lanes base twice rounds j ((two ^ m * x).word.replicate lanes) t).2.entry k =
        t.entry k := by
  induction rounds generalizing t j m with
  | zero => exact ⟨rfl, h, fun _ _ => rfl⟩
  | succ rounds ih =>
    have hle : 2 ^ (m + 1) ≤ 2 ^ (m + (rounds + 1)) := Nat.pow_le_pow_right (by norm_num) (by omega)
    have hnext : lanes * (j <<< 1) = 2 ^ (m + 1) := by
      rw [Nat.shiftLeft_eq, pow_succ 2 m, ← hj]; ring
    have hfactor :
        twice ((two ^ m * x).word.replicate lanes) = (two ^ (m + 1) * x).word.replicate lanes := by
      rw [htwice, pow_succ', mul_assoc, Element.generator_mul]
    have hsum : m + (rounds + 1) = m + 1 + rounds := by omega
    rw [hsum] at hm hfit hle ⊢
    obtain ⟨hrest, hproducts, hframe⟩ :=
      ih _ _ hnext hm hfit (products_fillInner hj (by omega) (by omega) h)
    rw [fill, hfactor]
    refine ⟨hrest, hproducts, fun k hk => ?_⟩
    have hjj : lanes * (j + j) = 2 ^ (m + 1) := by rw [Nat.mul_add, hj, pow_succ]; ring
    rw [hframe k hk, entry_fillInner (by omega), if_neg (by omega)]

lemma products_write {x : Galois16} (hfit : base + lanes ≤ 512) {v : BitVec (16 * lanes)}
    (h : ∀ l < lanes, lane 16 v l = (x * ⟨BitVec.ofNat 16 l⟩).word) :
    Products x base lanes (t.write lanes base v) := by
  intro i hi
  rw [LhTable.entry_write hfit, if_pos (by omega), Nat.add_sub_cancel_left, h i hi]

lemma mul_ofNat_zero (x : Galois16) : (x * ⟨BitVec.ofNat 16 0⟩).word = 0#16 :=
  congrArg Element.word (mul_zero x)

lemma mul_ofNat_one (x : Galois16) : x * ⟨BitVec.ofNat 16 1⟩ = x :=
  mul_one x

lemma mul_ofNat_two (x : Galois16) : x * ⟨BitVec.ofNat 16 2⟩ = two * x := by
  rw [mul_comm, ← show two = ⟨BitVec.ofNat 16 2⟩ from rfl]

lemma mul_ofNat_three (x : Galois16) : x * ⟨BitVec.ofNat 16 3⟩ = two * x + x := by
  rw [show (⟨BitVec.ofNat 16 3⟩ : Galois16) = two + 1 from rfl, mul_add, mul_one, mul_comm]

/-- The first half of a table has the products of the lower byte of a word, the second those of the
upper one. -/
def Multiplies (c : Galois16) (t : LhTable) : Prop :=
  Products c 0 256 t ∧ Products (two ^ 8 * c) 256 256 t


lemma append_eq_replicate (a : BitVec 16) :
    (a.setWidth 32 <<< 16) ||| a.setWidth 32 = a.replicate 2 := by
  refine eq_of_lanes (w := 16) (n := 2) fun l hl => ?_
  rw [lane_replicate hl]
  interval_cases l
  · simp (disch := norm_num) [lane_shiftLeft_of_lt, lane_setWidth, lane_self]
  · simp (disch := norm_num) [lane_shiftLeft_of_le, lane_setWidth, lane_of_le, lane_self]

lemma double_eq_replicate (a : BitVec 16) :
    (a.replicate 2).setWidth 64 ||| ((a.replicate 2).setWidth 64 <<< 32) = a.replicate 4 := by
  have hlow := lane_replicate (n := 2) (l := 0) (by norm_num) a
  have hhigh := lane_replicate (n := 2) (l := 1) (by norm_num) a
  refine eq_of_lanes (w := 16) (n := 4) fun l hl => ?_
  rw [lane_replicate hl]
  generalize a.replicate 2 = v at hlow hhigh
  interval_cases l
  · simp (disch := norm_num) [lane_shiftLeft_of_lt, lane_setWidth, hlow]
  · simp (disch := norm_num) [lane_shiftLeft_of_lt, lane_setWidth, hhigh]
  · simp (disch := norm_num) [lane_shiftLeft_of_le, lane_setWidth, lane_of_le, hlow]
  · simp (disch := norm_num) [lane_shiftLeft_of_le, lane_setWidth, lane_of_le, hhigh]

lemma products_first64 (c : Galois16) (lhtable : LhTable) :
    Products c 0 4 (lhtable.write 4 0 ((c.word.setWidth 32 <<< 16).setWidth 64 |||
      (((two * c).word.replicate 2 ^^^ (c.word.setWidth 32 <<< 16)).setWidth 64 <<< 32))) := by
  have hlow := lane_replicate (n := 2) (l := 0) (by norm_num) (two * c).word
  have hhigh := lane_replicate (n := 2) (l := 1) (by norm_num) (two * c).word
  generalize (two * c).word.replicate 2 = v at hlow hhigh ⊢
  refine products_write (by norm_num) fun l hl => ?_
  interval_cases l
  · simp (disch := norm_num) [lane_shiftLeft_of_lt, lane_setWidth, mul_ofNat_zero]
  · simp (disch := norm_num) [lane_shiftLeft_of_lt, lane_shiftLeft_of_le, lane_setWidth, lane_self,
      mul_ofNat_one]
  · simp (disch := norm_num) [lane_shiftLeft_of_lt, lane_shiftLeft_of_le, lane_setWidth,
      lane_of_le, hlow, mul_ofNat_two]
  · simp (disch := norm_num) [lane_shiftLeft_of_le, lane_setWidth, lane_of_le, lane_self, hhigh,
      mul_ofNat_three]

lemma products_second64 (x : Galois16) (lhtable : LhTable) :
    Products x 256 4 (lhtable.write 4 256 ((x.word.replicate 4 &&& 0xFFFF0000FFFF0000#64) ^^^
      ((two * x).word.replicate 4 <<< 32))) := by
  have hmask : lane 16 0xFFFF0000FFFF0000#64 0 = 0#16 ∧
      lane 16 0xFFFF0000FFFF0000#64 1 = BitVec.allOnes 16 ∧
      lane 16 0xFFFF0000FFFF0000#64 2 = 0#16 ∧
      lane 16 0xFFFF0000FFFF0000#64 3 = BitVec.allOnes 16 := by decide
  obtain ⟨hm0, hm1, hm2, hm3⟩ := hmask
  have hx (l : ℕ) (hl : l < 4) := lane_replicate (n := 4) hl x.word
  have hy (l : ℕ) (hl : l < 4) := lane_replicate (n := 4) hl (two * x).word
  generalize x.word.replicate 4 = u at hx ⊢
  generalize (two * x).word.replicate 4 = v at hy ⊢
  refine products_write (by norm_num) fun l hl => ?_
  rw [lane_xor, lane_and]
  interval_cases l
  · rw [hm0, lane_shiftLeft_of_lt (by norm_num), mul_ofNat_zero]
    simp
  · rw [hm1, lane_shiftLeft_of_lt (by norm_num), hx 1 (by norm_num), mul_ofNat_one,
      BitVec.and_allOnes, BitVec.xor_zero]
  · rw [hm2, lane_shiftLeft_of_le (by norm_num) (by norm_num) (by norm_num), hy _ (by norm_num),
      mul_ofNat_two]
    simp
  · rw [hm3, lane_shiftLeft_of_le (by norm_num) (by norm_num) (by norm_num), hx 3 (by norm_num),
      hy _ (by norm_num), BitVec.and_allOnes, mul_ofNat_three, BitVec.xor_comm]
    rfl

lemma multiplies_calcTable64 (c : Galois16) (lhtable : LhTable) :
    Multiplies c (calcTable64 c.word lhtable) := by
  have htwice (a : Galois16) : multByTwoX4 (a.word.replicate 4) = (two * a).word.replicate 4 := by
    rw [multByTwoX4_replicate, Element.generator_mul]
  have htmp : multByTwoX2 ((c.word.setWidth 32 <<< 16) ||| c.word.setWidth 32) =
      (two * c).word.replicate 2 := by
    rw [append_eq_replicate, multByTwoX2_replicate, Element.generator_mul]
  have hfour : multByTwoX4 ((two * c).word.replicate 4) = (two ^ 2 * c).word.replicate 4 := by
    rw [htwice, ← mul_assoc, sq]
  obtain ⟨hrest, hlow, -⟩ := products_fill 4 0 6 1 2 multByTwoX4_replicate
    (by norm_num) (by norm_num) (by norm_num) (products_first64 c lhtable)
  rw [calcTable64]
  simp only [htmp, double_eq_replicate, hfour]
  rcases hfill : fill 4 0 multByTwoX4 6 1 ((two ^ 2 * c).word.replicate 4) _ with ⟨rest, t⟩
  rw [hfill] at hrest hlow
  simp only at hrest hlow ⊢
  obtain ⟨-, hhigh, hframe⟩ := products_fill 4 256 6 1 2 multByTwoX4_replicate
    (by norm_num) (by norm_num) (by norm_num) (products_second64 (two ^ 8 * c) t)
  rw [hrest, htwice, htwice, ← mul_assoc, ← sq]
  refine ⟨fun i hi => ?_, hhigh⟩
  rw [hframe _ (by omega), LhTable.entry_write (by norm_num), if_neg (by omega), hlow i hi]

lemma multiplies_calcTable32 (c : Galois16) (lhtable : LhTable) :
    Multiplies c (calcTable32 c.word lhtable) := by
  have htwice (a : Galois16) : multByTwoX2 (a.word.replicate 2) = (two * a).word.replicate 2 := by
    rw [multByTwoX2_replicate, Element.generator_mul]
  have hfirst : Products c 0 2 (lhtable.write 2 0 (c.word.setWidth 32 <<< 16)) := by
    refine products_write (by norm_num) fun l hl => ?_
    interval_cases l
    · simp (disch := norm_num) [lane_shiftLeft_of_lt, mul_ofNat_zero]
    · simp (disch := norm_num) [lane_shiftLeft_of_le, lane_setWidth, lane_self, mul_ofNat_one]
  have hsecond (x : Galois16) (t : LhTable) :
      Products x 256 2 (t.write 2 256 (x.word.replicate 2 &&& 0xFFFF0000#32)) := by
    have hmask : lane 16 0xFFFF0000#32 0 = 0#16 ∧
        lane 16 0xFFFF0000#32 1 = BitVec.allOnes 16 := by decide
    have hx := lane_replicate (n := 2) (l := 1) (by norm_num) x.word
    generalize x.word.replicate 2 = u at hx ⊢
    refine products_write (by norm_num) fun l hl => ?_
    rw [lane_and]
    interval_cases l
    · rw [hmask.1, mul_ofNat_zero, BitVec.and_zero]
    · rw [hmask.2, hx, mul_ofNat_one, BitVec.and_allOnes]
  obtain ⟨hrest, hlow, -⟩ := products_fill 2 0 7 1 1 multByTwoX2_replicate
    (by norm_num) (by norm_num) (by norm_num) hfirst
  rw [calcTable32]
  simp only [append_eq_replicate, htwice]
  rw [pow_one] at hrest hlow
  rcases hfill : fill 2 0 multByTwoX2 7 1 ((two * c).word.replicate 2) _ with ⟨rest, t⟩
  rw [hfill] at hrest hlow
  simp only at hrest hlow ⊢
  obtain ⟨-, hhigh, hframe⟩ := products_fill 2 256 7 1 1 multByTwoX2_replicate
    (by norm_num) (by norm_num) (by norm_num) (hsecond (two ^ 8 * c) t)
  rw [pow_one] at hhigh hframe
  rw [hrest, htwice]
  refine ⟨fun i hi => ?_, hhigh⟩
  rw [hframe _ (by omega), LhTable.entry_write (by norm_num), if_neg (by omega), hlow i hi]

lemma multiplies_calcTable16 (c : Galois16) (lhtable : LhTable) :
    Multiplies c (calcTable16 c.word lhtable) := by
  have htwice (a : BitVec 16) : multByTwo (a.replicate 1) = (xtime polynomial a).replicate 1 := by
    rw [BitVec.replicate_one, BitVec.replicate_one]
    exact multByTwo_eq a
  have hfirst (x : Galois16) {base : ℕ} (hbase : base < 512) (t : LhTable) :
      Products x base 1 (t.setIfInBounds base 0) := by
    intro i hi
    obtain rfl := Nat.lt_one_iff.mp hi
    rw [entry_setIfInBounds hbase, if_pos (by omega), mul_ofNat_zero]
    rfl
  have hone (x : Galois16) : (two ^ 0 * x).word.replicate 1 = x.word := by
    rw [pow_zero, one_mul]
    exact BitVec.replicate_one
  obtain ⟨hrest, hlow, -⟩ := products_fill 1 0 8 1 0 htwice
    (by norm_num) (by norm_num) (by norm_num) (hfirst c (by norm_num) lhtable)
  rw [calcTable16]
  rw [hone] at hrest hlow
  simp only
  rcases hfill : fill 1 0 multByTwo 8 1 c.word _ with ⟨rest, t⟩
  rw [hfill] at hrest hlow
  simp only at hrest hlow ⊢
  obtain ⟨-, hhigh, hframe⟩ := products_fill 1 256 8 1 0 htwice
    (by norm_num) (by norm_num) (by norm_num) (hfirst (two ^ 8 * c) (by norm_num) t)
  rw [hone] at hhigh hframe
  rw [hrest,
    show (two ^ (0 + 8) * c).word.replicate 1 = (two ^ 8 * c).word from BitVec.replicate_one]
  refine ⟨fun i hi => ?_, hhigh⟩
  rw [hframe _ (by omega), entry_setIfInBounds (by norm_num), if_neg (by omega), hlow i hi]

end Spec

section Blocks

open Bytes

/-- The table that `calc_table` makes, by the size of a pointer. -/
def calcTable (sizeofUintptr : ℕ) (coefficient : BitVec 16) (lhtable : LhTable) : LhTable :=
  if sizeofUintptr ≥ 8 then calcTable64 coefficient lhtable
  else if sizeofUintptr ≥ 4 then calcTable32 coefficient lhtable
  else calcTable16 coefficient lhtable

def gf16LookupStride (sizeofUintptr : ℕ) : ℕ :=
  if sizeofUintptr ≥ 8 then 8 else if sizeofUintptr ≥ 4 then 4 else 2

def LhTable.product (t : LhTable) (src : List UInt8) (ptr : ℕ) : BitVec 16 :=
  t.entry (src.getD ptr 0).toNat ^^^ t.entry (256 + (src.getD (ptr + 1) 0).toNat)

/-- The loop over a block, `lanes` words at a time; `put` makes what is written of what is there and
the products. -/
def lookupLoop (lanes : ℕ) (put : BitVec (16 * lanes) → BitVec (16 * lanes) → BitVec (16 * lanes))
    (lhtable : LhTable) :
    ℕ → List UInt8 → List UInt8 → List UInt8
  | 0, dst, _ => dst
  | groups + 1, dst, src =>
    let old := BitVec.ofNat (16 * lanes) (decode (dst.take (2 * lanes)))
    let products := pack (fun l => lhtable.product src (2 * l)) lanes
    encode (2 * lanes) (put old products).toNat ++
      lookupLoop lanes put lhtable groups (dst.drop (2 * lanes)) (src.drop (2 * lanes))

def gf16LookupMul (sizeofUintptr : ℕ) (memory : LhTable) (dst src : List UInt8)
    (coefficient : BitVec 16) :
    List UInt8 :=
  let stride := gf16LookupStride sizeofUintptr
  lookupLoop (stride / 2) (fun _ v => v) (calcTable sizeofUintptr coefficient memory)
    (src.length / stride) dst src

def gf16LookupMuladd (sizeofUintptr : ℕ) (memory : LhTable) (dst src : List UInt8)
    (coefficient : BitVec 16) :
    List UInt8 :=
  let stride := gf16LookupStride sizeofUintptr
  lookupLoop (stride / 2) (fun old v => v ^^^ old) (calcTable sizeofUintptr coefficient memory)
    (src.length / stride)
    dst src

def word (buf : List UInt8) (i : ℕ) : Galois16 :=
  ⟨BitVec.ofNat 16 (decode (block 2 buf i))⟩

lemma multiplies_calcTable (sizeofUintptr : ℕ) (c : Galois16) (memory : LhTable) :
    Multiplies c (calcTable sizeofUintptr c.word memory) := by
  rw [calcTable]
  split_ifs
  · exact multiplies_calcTable64 c memory
  · exact multiplies_calcTable32 c memory
  · exact multiplies_calcTable16 c memory

lemma two_pow_eight_mul {b : ℕ} (hb : b < 256) :
    two ^ 8 * (⟨BitVec.ofNat 16 b⟩ : Galois16) = ⟨BitVec.ofNat 16 (2 ^ 8 * b)⟩ := by
  have h := ext_twoPow (f := fun a : BitVec 8 => (xtime polynomial)^[8] (a.setWidth 16))
    (g := fun a => a.setWidth 16 <<< 8) (fun a b => by
      rw [BitVec.setWidth_xor]
      simp only [Function.iterate_succ_apply', Function.iterate_zero_apply, xtime_xor])
    (fun a b => by rw [BitVec.setWidth_xor, BitVec.shiftLeft_xor_distrib]) (by decide +kernel)
    (BitVec.ofNat 8 b)
  have hwide : (BitVec.ofNat 8 b).setWidth 16 = BitVec.ofNat 16 b := by
    apply BitVec.eq_of_toNat_eq
    simp [Nat.mod_eq_of_lt hb]
  rw [hwide] at h
  rw [Element.generator_pow_mul, h]
  congr 1
  apply BitVec.eq_of_toNat_eq
  simp [Nat.shiftLeft_eq, mul_comm]

lemma ofNat_bytes {lo hi : ℕ} (hlo : lo < 256) (hhi : hi < 256) :
    (⟨BitVec.ofNat 16 (lo + 256 * hi)⟩ : Galois16) =
      ⟨BitVec.ofNat 16 lo⟩ + two ^ 8 * ⟨BitVec.ofNat 16 hi⟩ := by
  rw [two_pow_eight_mul hhi]
  refine Element.ext (BitVec.eq_of_getLsbD_eq fun k hk => ?_)
  rw [Element.word_add, BitVec.getLsbD_xor, BitVec.getLsbD_ofNat, BitVec.getLsbD_ofNat,
    BitVec.getLsbD_ofNat, decide_eq_true hk, Bool.true_and, Bool.true_and, Bool.true_and,
    show lo + 256 * hi = 2 ^ 8 * hi + lo by omega,
    Nat.testBit_two_pow_mul_add hi (show lo < 2 ^ 8 from hlo), Nat.testBit_two_pow_mul]
  split_ifs with hlow
  · simp [Nat.not_le_of_lt hlow]
  · have hzero : lo.testBit k = false :=
      Nat.testBit_lt_two_pow
        (lt_of_lt_of_le hlo (Nat.pow_le_pow_right (n := 2) (i := 8) (by norm_num) (by omega)))
    simp [hzero, Nat.le_of_not_lt hlow]

lemma decode_block_two (buf : List UInt8) (i : ℕ) :
    decode (block 2 buf i) = (buf.getD (2 * i) 0).toNat + 256 * (buf.getD (2 * i + 1) 0).toNat := by
  rw [block, List.getD_eq_getElem?_getD, List.getD_eq_getElem?_getD, ← Nat.add_zero (2 * i),
    ← List.getElem?_drop, Nat.add_assoc, ← List.getElem?_drop]
  rcases buf.drop (2 * i) with - | ⟨a, - | ⟨b, l⟩⟩ <;> simp [decode]

lemma product_eq {c : Galois16} {t : LhTable} (h : Multiplies c t) (src : List UInt8) (i : ℕ) :
    t.product src (2 * i) = (c * word src i).word := by
  have hlow := h.1 _ (src.getD (2 * i) 0).toNat_lt
  have hhigh := h.2 _ (src.getD (2 * i + 1) 0).toNat_lt
  rw [Nat.zero_add] at hlow
  rw [LhTable.product, hlow, hhigh, word, decode_block_two,
    ofNat_bytes (UInt8.toNat_lt _) (UInt8.toNat_lt _), mul_add, mul_comm (two ^ 8) c, mul_assoc]
  rfl

lemma decode_drop (bs : List UInt8) (k : ℕ) : decode (bs.drop k) = decode bs / 256 ^ k := by
  induction k generalizing bs with
  | zero => simp
  | succ k ih =>
    cases bs with
    | nil => simp [decode]
    | cons b bs =>
      have hrest : decode (b :: bs) / 256 = decode bs := by have := b.toNat_lt; rw [decode]; omega
      rw [List.drop_succ_cons, ih, pow_succ', ← Nat.div_div_eq_div_mul, hrest]

lemma lane_ofNat_decode {lanes l : ℕ} (hl : l < lanes) (bs : List UInt8) :
    lane 16 (BitVec.ofNat (16 * lanes) (decode bs)) l = (word bs l).word := by
  refine BitVec.eq_of_getLsbD_eq fun i hi => ?_
  rw [getLsbD_lane hi, word, block, decode_take, decode_drop, BitVec.getLsbD_ofNat,
    BitVec.getLsbD_ofNat,
    show (256 : ℕ) ^ 2 = 2 ^ 16 by norm_num, Nat.testBit_mod_two_pow, show (256 : ℕ) = 2 ^ 8 by
      norm_num, ← pow_mul,
    Nat.testBit_div_two_pow, decide_eq_true hi, decide_eq_true (by omega), Bool.true_and,
    Bool.true_and, Bool.true_and]
  congr 1
  omega

lemma word_append_of_lt {xs : List UInt8} {l : ℕ} (hl : 2 * l + 2 ≤ xs.length) (ys : List UInt8) :
    word (xs ++ ys) l = word xs l := by
  rw [word, word, block, block, List.drop_append_of_le_length (by omega),
    List.take_append_of_le_length (by rw [List.length_drop]; omega)]

lemma word_append_of_le {xs : List UInt8} {k l : ℕ} (hk : xs.length = 2 * k) (hl : k ≤ l)
    (ys : List UInt8) :
    word (xs ++ ys) l = word ys (l - k) := by
  rw [word, word, block, block, List.drop_append, List.drop_eq_nil_of_le (by omega),
    List.nil_append, hk, ← Nat.mul_sub]

lemma word_encode {lanes l : ℕ} (hl : l < lanes) (v : BitVec (16 * lanes)) :
    (word (encode (2 * lanes) v.toNat) l).word = lane 16 v l := by
  rw [← lane_ofNat_decode hl, decode_encode, show 256 ^ (2 * lanes) = 2 ^ (16 * lanes) by
    rw [show (256 : ℕ) = 2 ^ 8 by norm_num, ← pow_mul]; congr 1; omega, Nat.mod_eq_of_lt v.isLt,
      BitVec.ofNat_toNat,
    BitVec.setWidth_eq]

lemma word_drop (buf : List UInt8) (k l : ℕ) : word (buf.drop (2 * k)) l = word buf (k + l) := by
  rw [word, word, block, block, List.drop_drop, Nat.mul_add]

lemma word_take {buf : List UInt8} {k l : ℕ} (hl : l < k) :
    word (buf.take (2 * k)) l = word buf l := by
  rw [word, word, block, block, List.drop_take, List.take_take, Nat.min_eq_left (by omega)]

lemma lookupLoop_spec {c : Galois16} {t : LhTable} (h : Multiplies c t) (lanes : ℕ)
    (put : BitVec (16 * lanes) → BitVec (16 * lanes) → BitVec (16 * lanes))
    (one : BitVec 16 → BitVec 16 → BitVec 16)
    (hput : ∀ u v, ∀ l < lanes, lane 16 (put u v) l = one (lane 16 u l) (lane 16 v l)) (groups : ℕ)
    {dst src : List UInt8} (hdst : dst.length = 2 * lanes * groups)
    (hsrc : src.length = 2 * lanes * groups) :
    (lookupLoop lanes put t groups dst src).length = dst.length ∧
      ∀ i < lanes * groups, (word (lookupLoop lanes put t groups dst src) i).word =
        one (word dst i).word (c * word src i).word := by
  induction groups generalizing dst src with
  | zero => exact ⟨rfl, fun i hi => absurd hi (Nat.not_lt_zero i)⟩
  | succ groups ih =>
    rw [Nat.mul_succ] at hdst hsrc
    have hdst' : (dst.drop (2 * lanes)).length = 2 * lanes * groups := by
      rw [List.length_drop]; omega
    have hsrc' : (src.drop (2 * lanes)).length = 2 * lanes * groups := by
      rw [List.length_drop]; omega
    obtain ⟨hlen, hwords⟩ := ih hdst' hsrc'
    rw [lookupLoop]
    refine ⟨by rw [List.length_append, encode_length, hlen, List.length_drop]; omega,
      fun i hi => ?_⟩
    rw [Nat.mul_succ] at hi
    rcases lt_or_ge i lanes with hlt | hge
    · rw [word_append_of_lt (by rw [encode_length]; omega), word_encode hlt, hput _ _ i hlt,
        lane_ofNat_decode hlt, word_take hlt, lane_pack hlt, product_eq h]
    · rw [word_append_of_le (encode_length _ _) hge, hwords (i - lanes) (by omega),
        word_drop, word_drop, Nat.add_sub_cancel' hge]

/-- Every variant of the loop, over any memory, gives each word of a block the product with the
factor. -/
theorem gf16Lookup_words (sizeofUintptr : ℕ) (memory : LhTable) (c : Galois16)
    (dst src : List UInt8)
    (hlen : dst.length = src.length) (hstride : gf16LookupStride sizeofUintptr ∣ src.length) :
    ((gf16LookupMul sizeofUintptr memory dst src c.word).length = src.length ∧
      ∀ i < src.length / 2, word (gf16LookupMul sizeofUintptr memory dst src c.word) i =
        c * word src i) ∧
    (gf16LookupMuladd sizeofUintptr memory dst src c.word).length = src.length ∧
      ∀ i < src.length / 2, word (gf16LookupMuladd sizeofUintptr memory dst src c.word) i =
        word dst i + c * word src i := by
  have htable := multiplies_calcTable sizeofUintptr c memory
  obtain ⟨lanes, hlanes⟩ : ∃ lanes, gf16LookupStride sizeofUintptr = 2 * lanes ∧ 0 < lanes := by
    rw [gf16LookupStride]
    split_ifs
    exacts [⟨4, by norm_num⟩, ⟨2, by norm_num⟩, ⟨1, by norm_num⟩]
  obtain ⟨groups, hgroups⟩ := hstride
  have hdiv : src.length / gf16LookupStride sizeofUintptr = groups := by
    rw [hgroups, Nat.mul_div_cancel_left _ (by omega)]
  have hhalf : gf16LookupStride sizeofUintptr / 2 = lanes := by omega
  have hwords : src.length / 2 = lanes * groups := by
    rw [hgroups, hlanes.1, Nat.mul_assoc, Nat.mul_div_cancel_left _ (by norm_num)]
  rw [hlanes.1] at hgroups
  have hmul := lookupLoop_spec htable lanes (fun _ v => v) (fun _ v => v)
    (fun _ _ _ _ => rfl) groups (hlen.trans hgroups) hgroups
  have hadd := lookupLoop_spec htable lanes (fun old v => v ^^^ old) (fun old v => v ^^^ old)
    (fun u v l _ => lane_xor v u l) groups (hlen.trans hgroups) hgroups
  simp only [gf16LookupMul, gf16LookupMuladd, hdiv, hwords]
  rw [hhalf]
  refine ⟨⟨hmul.1.trans hlen, fun i hi => Element.ext (hmul.2 i hi)⟩, hadd.1.trans hlen,
    fun i hi => ?_⟩
  exact Element.ext ((hadd.2 i hi).trans (BitVec.xor_comm _ _))

theorem gf16Lookup_words_eight :
    word (gf16LookupMuladd 8 (Vector.replicate 512 7#16) [9, 9, 9, 9, 9, 9, 9, 9]
      [1, 2, 3, 4, 5, 6, 7, 8] two.word) 3 =
      word [9, 9, 9, 9, 9, 9, 9, 9] 3 + two * word [1, 2, 3, 4, 5, 6, 7, 8] 3 :=
  (gf16Lookup_words 8 (Vector.replicate 512 7#16) two [9, 9, 9, 9, 9, 9, 9, 9]
    [1, 2, 3, 4, 5, 6, 7, 8] rfl
    ⟨1, rfl⟩).2.2 3 (by norm_num)

end Blocks

end DriveIntegrity.Parity
