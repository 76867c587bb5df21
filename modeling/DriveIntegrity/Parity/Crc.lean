import DriveIntegrity.Library.BinaryField

/-! The CRC that slides along a file with a window of one block. -/

namespace DriveIntegrity.Parity

section Multiplication

variable (polynom : BitVec 32)

def negate32 (n : BitVec 32) : BitVec 32 :=
  -n

def gf32Rounds : ℕ → BitVec 32 → BitVec 32 → BitVec 32 → BitVec 32
  | 0, product, a, b => product ^^^ (negate32 (b >>> 31) &&& a)
  | n + 1, product, a, b =>
    gf32Rounds n (product ^^^ (negate32 (b >>> 31) &&& a))
      ((a >>> 1) ^^^ (polynom &&& negate32 (a &&& 1#32))) (b <<< 1)

def gf32Multiply (a b : BitVec 32) : BitVec 32 :=
  gf32Rounds polynom 31 0#32 a b

def shifted (crc : BitVec 32) : BitVec 32 :=
  (crc >>> 1) ^^^ (if crc &&& 1#32 ≠ 0#32 then polynom else 0#32)

/-- A CRC has its bits in the order of falling powers. -/
def residueOf (crc : BitVec 32) : Element polynom.reverse :=
  ⟨crc.reverse⟩

variable {polynom}

lemma reverse_xor {w : ℕ} (a b : BitVec w) : (a ^^^ b).reverse = a.reverse ^^^ b.reverse := by
  refine BitVec.eq_of_getLsbD_eq fun i _ => ?_
  rw [BitVec.getLsbD_xor, BitVec.getLsbD_reverse, BitVec.getLsbD_reverse, BitVec.getLsbD_reverse,
    BitVec.getMsbD_xor]

lemma reverse_ushiftRight {w : ℕ} (a : BitVec w) (n : ℕ) : (a >>> n).reverse = a.reverse <<< n := by
  refine BitVec.eq_of_getLsbD_eq fun i hi => ?_
  rw [BitVec.getLsbD_reverse, BitVec.getLsbD_shiftLeft, BitVec.getLsbD_reverse,
    BitVec.getMsbD_ushiftRight]
  by_cases hn : i < n <;> simp [hi, hn]

lemma reverse_shiftLeft {w : ℕ} (a : BitVec w) (n : ℕ) : (a <<< n).reverse = a.reverse >>> n := by
  rw [← BitVec.reverse_reverse_eq (x := a.reverse >>> n), reverse_ushiftRight,
    BitVec.reverse_reverse_eq]

lemma and_one_eq (a : BitVec 32) : a &&& 1#32 = if a.getLsbD 0 then 1#32 else 0#32 := by
  refine BitVec.eq_of_getLsbD_eq fun i hi => ?_
  rw [BitVec.getLsbD_and]
  rcases i with - | i
  · cases a.getLsbD 0 <;> simp
  · cases a.getLsbD 0 <;> simp

lemma negate32_and_one (a : BitVec 32) :
    negate32 (a &&& 1#32) = if a.getLsbD 0 then BitVec.allOnes 32 else 0#32 := by
  rw [and_one_eq, negate32]
  split_ifs <;> rfl

lemma residueOf_injective : Function.Injective (residueOf polynom) := fun a b h => by
  have hword : a.reverse = b.reverse := congrArg Element.word h
  rw [← BitVec.reverse_reverse_eq (x := a), hword, BitVec.reverse_reverse_eq]

lemma residueOf_xor (a b : BitVec 32) :
    residueOf polynom (a ^^^ b) = residueOf polynom a + residueOf polynom b :=
  Element.ext (reverse_xor a b)

lemma residueOf_zero : residueOf polynom 0#32 = 0 :=
  Element.ext (BitVec.reverse_eq_zero_iff.mpr rfl)

lemma residueOf_one : residueOf polynom 0x80000000#32 = 1 :=
  Element.ext (show (0x80000000#32).reverse = 1#32 by decide +kernel)

lemma reverse_shifted (a : BitVec 32) :
    (shifted polynom a).reverse = BinaryWord.xtime polynom.reverse a.reverse := by
  rw [shifted, BinaryWord.xtime, reverse_xor, reverse_ushiftRight, BitVec.msb_reverse, and_one_eq]
  cases a.getLsbD 0 <;> simp [BitVec.reverse_eq_zero_iff.mpr]

lemma residueOf_shifted (a : BitVec 32) :
    residueOf polynom (shifted polynom a) =
      Element.generator polynom.reverse * residueOf polynom a := by
  rw [Element.generator_mul]
  exact Element.ext (reverse_shifted a)

lemma residueOf_iterate_shifted (n : ℕ) (a : BitVec 32) :
    residueOf polynom ((shifted polynom)^[n] a) =
      Element.generator polynom.reverse ^ n * residueOf polynom a := by
  induction n with
  | zero => rw [Function.iterate_zero_apply, pow_zero, one_mul]
  | succ n ih => rw [Function.iterate_succ_apply', residueOf_shifted, ih, pow_succ', mul_assoc]

lemma gf32_shift (a : BitVec 32) :
    (a >>> 1) ^^^ (polynom &&& negate32 (a &&& 1#32)) = shifted polynom a := by
  rw [negate32_and_one, shifted, and_one_eq]
  cases a.getLsbD 0
  · simp
  · rw [if_pos rfl, if_pos rfl, BitVec.and_allOnes, if_pos (by decide)]

lemma gf32_term (a b : BitVec 32) :
    (negate32 (b >>> 31) &&& a).reverse = if b.reverse.getLsbD 0 then a.reverse else 0#32 := by
  have hmsb : b.reverse.getLsbD 0 = b.msb := by rw [BitVec.getLsbD_reverse, BitVec.msb]
  rw [negate32, BinaryWord.neg_ushiftRight, hmsb]
  cases b.msb
  · rw [if_neg Bool.false_ne_true, if_neg Bool.false_ne_true, BitVec.zero_and,
      BitVec.reverse_eq_zero_iff.mpr rfl]
  · rw [if_pos rfl, if_pos rfl, BitVec.allOnes_and]

lemma reverse_gf32Rounds (n : ℕ) (product a b : BitVec 32) :
    (gf32Rounds polynom n product a b).reverse =
      product.reverse ^^^ BinaryWord.mulBits polynom.reverse (n + 1) a.reverse b.reverse := by
  induction n generalizing product a b with
  | zero =>
    rw [gf32Rounds, reverse_xor, gf32_term, BinaryWord.mulBits, BinaryWord.mulBits, BitVec.xor_zero]
  | succ n ih =>
    rw [gf32Rounds, ih, gf32_shift, reverse_xor, gf32_term, reverse_shifted, reverse_shiftLeft,
      BinaryWord.mulBits.eq_def _ (n + 1 + 1), BitVec.xor_assoc]

lemma residueOf_gf32Multiply (a b : BitVec 32) :
    residueOf polynom (gf32Multiply polynom a b) = residueOf polynom a * residueOf polynom b := by
  refine Element.ext ?_
  rw [residueOf, gf32Multiply, reverse_gf32Rounds, BitVec.reverse_eq_zero_iff.mpr rfl,
    BitVec.zero_xor]
  rfl

end Multiplication

section Tables

structure Crc32table where
  polynom : BitVec 32
  table : Vector (BitVec 32) 256
  power : Vector (BitVec 32) 32

/-- The loop that fills `power`, rotated by three places -/
def fillPower (polynom : BitVec 32) :
    ℕ → ℕ → BitVec 32 → Vector (BitVec 32) 32 → Vector (BitVec 32) 32
  | 0, _, _, power => power
  | n + 1, i, k, power =>
    fillPower polynom n (i + 1) (gf32Multiply polynom k k)
      (power.setIfInBounds ((BitVec.ofNat 32 i - 3#32) &&& 31#32).toNat k)

/-- The constructor, over what the fields held before -/
def crc32table (polynom : BitVec 32) (memory : Crc32table) : Crc32table where
  polynom := polynom
  table := .ofFn fun i => (shifted polynom)^[8] (BitVec.ofNat 32 i)
  power := fillPower polynom 32 0 (0x80000000#32 >>> 1) memory.power

/-- The polynomial of CRC-32, reversed -/
abbrev ccitt : BitVec 32 := 0xEDB88320#32

def ccitttable : Crc32table :=
  crc32table ccitt ⟨0#32, .replicate _ 0#32, .replicate _ 0#32⟩

/-- The loop of `CRCExp8`, for numbers of at most so many bits -/
def crcExp8Loop : ℕ → ℕ → ℕ → BitVec 32 → BitVec 32
  | 0, _, _, result => result
  | fuel + 1, n, power, result =>
    if n = 0 then result
    else crcExp8Loop fuel (n / 2) ((power + 1) % 32)
      (if n % 2 = 1
        then gf32Multiply ccitttable.polynom result (ccitttable.power[power]?.getD 0) else result)

def crcExp8 (n : ℕ) : BitVec 32 :=
  crcExp8Loop 32 (n % 0xffffffff) 0 0x80000000#32

def crcUpdateChar (crc : BitVec 32) (ch : BitVec 8) : BitVec 32 :=
  ((crc >>> 8) &&& 0x00ffffff#32) ^^^ ccitttable.table.get (crc.setWidth 8 ^^^ ch).toFin

def crcUpdateBlock (crc : BitVec 32) (buffer : List (BitVec 8)) : BitVec 32 :=
  buffer.foldl crcUpdateChar crc

/-- `CRCUpdateBlock` over so many zeros -/
def crcUpdateZeros (crc : BitVec 32) (length : ℕ) : BitVec 32 :=
  gf32Multiply ccitttable.polynom crc (crcExp8 length)

def generateWindowTable (window : ℕ) : Vector (BitVec 32) 256 :=
  let coeff := crcExp8 window
  let mask := gf32Multiply ccitttable.polynom (BitVec.allOnes 32) coeff
  let mask := gf32Multiply ccitttable.polynom mask 0x80800000#32
  let mask := mask ^^^ BitVec.allOnes 32
  .ofFn fun i => gf32Multiply ccitttable.polynom (ccitttable.table.get i) coeff ^^^ mask

def crcSlideChar (crc : BitVec 32) (chNew chOld : BitVec 8) (windowtable : Vector (BitVec 32) 256) :
    BitVec 32 :=
  let crc := crc ^^^ BitVec.allOnes 32
  ((crc >>> 8) &&& 0x00ffffff#32) ^^^ ccitttable.table.get (crc.setWidth 8 ^^^ chNew).toFin ^^^
    windowtable.get chOld.toFin

/-- The value of `CRCCompute`, by the loop over the bytes; the source calls `CRC32_Calc`. -/
def crcCompute (buffer : List (BitVec 8)) : BitVec 32 :=
  BitVec.allOnes 32 ^^^ crcUpdateBlock (BitVec.allOnes 32) buffer

end Tables

section Spec

abbrev Crc : Type := Element ccitt.reverse

abbrev var : Crc := Element.generator ccitt.reverse

def ofCrc (crc : BitVec 32) : Crc := residueOf ccitt crc

lemma ofCrc_injective : Function.Injective ofCrc := residueOf_injective

lemma ofCrc_xor (a b : BitVec 32) : ofCrc (a ^^^ b) = ofCrc a + ofCrc b := residueOf_xor a b

lemma ofCrc_zero : ofCrc 0#32 = 0 := residueOf_zero

lemma ofCrc_one : ofCrc 0x80000000#32 = 1 := residueOf_one

lemma ofCrc_iterate_shifted (n : ℕ) (a : BitVec 32) :
    ofCrc ((shifted ccitt)^[n] a) = var ^ n * ofCrc a :=
  residueOf_iterate_shifted n a

lemma ofCrc_gf32Multiply (a b : BitVec 32) :
    ofCrc (gf32Multiply ccitttable.polynom a b) = ofCrc a * ofCrc b :=
  residueOf_gf32Multiply a b

lemma table_get_eq {n : ℕ} (table : Vector (BitVec 32) n) (i : Fin n) :
    table.get i = table[i.val] := rfl

lemma table_get (i : Fin 256) :
    ofCrc (ccitttable.table.get i) = var ^ 8 * ofCrc (BitVec.ofNat 32 i) := by
  rw [table_get_eq, ccitttable, crc32table, Vector.getElem_ofFn, ofCrc_iterate_shifted]

lemma power_zero : ccitttable.power[0]? = some ((shifted ccitt)^[8] 0x80000000#32) := by
    decide +kernel

lemma power_succ : ∀ i < 31, ccitttable.power[i + 1]? =
    (ccitttable.power[i]?).map fun k => gf32Multiply ccitt k k := by decide +kernel

lemma var_order : var ^ 4294967295 = 1 := by
  rw [← Element.powBits_eq_pow (show 4294967295 < 2 ^ 32 by norm_num)]
  decide +kernel

lemma power_get {i : ℕ} (hi : i < 32) :
    ∃ k, ccitttable.power[i]? = some k ∧ ofCrc k = var ^ (8 * 2 ^ i) := by
  induction i with
  | zero =>
    refine ⟨_, power_zero, ?_⟩
    rw [ofCrc_iterate_shifted, ofCrc_one, mul_one, pow_zero, mul_one]
  | succ i ih =>
    obtain ⟨k, hk, hpow⟩ := ih (by omega)
    refine ⟨gf32Multiply ccitt k k, by rw [power_succ i (by omega), hk, Option.map_some], ?_⟩
    refine (ofCrc_gf32Multiply k k).trans ?_
    rw [hpow, ← pow_add]
    congr 1
    ring

lemma crcExp8Loop_eq {fuel n power : ℕ} (hn : n < 2 ^ fuel) (hpower : power + fuel ≤ 32)
    (result : BitVec 32) :
    ofCrc (crcExp8Loop fuel n power result) = ofCrc result * var ^ (8 * (2 ^ power * n)) := by
  induction fuel generalizing n power result with
  | zero => rw [crcExp8Loop, Nat.lt_one_iff.mp hn, Nat.mul_zero, Nat.mul_zero, pow_zero, mul_one]
  | succ fuel ih =>
    rw [crcExp8Loop]
    split_ifs with hzero hodd
    · rw [hzero, Nat.mul_zero, Nat.mul_zero, pow_zero, mul_one]
    all_goals
      have hhalf : n / 2 < 2 ^ fuel := by omega
      have hrest : 2 ^ ((power + 1) % 32) * (n / 2) = 2 ^ (power + 1) * (n / 2) := by
        rcases (show power + 1 ≤ 32 by omega).lt_or_eq with hlt | heq
        · rw [Nat.mod_eq_of_lt hlt]
        · obtain rfl : fuel = 0 := by omega
          rw [Nat.lt_one_iff.mp hhalf, Nat.mul_zero, Nat.mul_zero]
      rw [ih hhalf (by omega), hrest]
    · obtain ⟨k, hk, hpow⟩ := power_get (show power < 32 by omega)
      obtain ⟨m, rfl⟩ : ∃ m, n = 2 * m + 1 := ⟨n / 2, by omega⟩
      rw [hk, Option.getD_some, ofCrc_gf32Multiply, hpow, mul_assoc,
        ← pow_add, show (2 * m + 1) / 2 = m by omega]
      congr 2
      ring
    · obtain ⟨m, rfl⟩ : ∃ m, n = 2 * m := ⟨n / 2, by omega⟩
      rw [Nat.mul_div_cancel_left m two_pos]
      congr 2
      ring

/-- The table of powers, read at the bits of the exponent; the order of the indeterminate lets the
exponent be reduced. -/
lemma ofCrc_crcExp8 (n : ℕ) : ofCrc (crcExp8 n) = var ^ (8 * n) := by
  have hlt : n % 0xffffffff < 2 ^ 32 := (Nat.mod_lt n (by norm_num)).trans (by norm_num)
  rw [crcExp8, crcExp8Loop_eq hlt le_rfl, ofCrc_one, one_mul, pow_zero, one_mul, mul_comm 8,
    mul_comm 8, pow_mul, pow_mul, ← pow_eq_pow_mod n var_order]

lemma iterate_shifted_of_low {n : ℕ} {a : BitVec 32} (ha : ∀ i < n, a.getLsbD i = false) :
    (shifted ccitt)^[n] a = a >>> n := by
  induction n generalizing a with
  | zero => rw [Function.iterate_zero_apply, BitVec.ushiftRight_zero]
  | succ n ih =>
    have hfirst : shifted ccitt a = a >>> 1 := by
      rw [shifted, and_one_eq, ha 0 n.succ_pos, if_neg (by simp), BitVec.xor_zero]
    rw [Function.iterate_succ_apply, hfirst, ih fun i hi => ?_,
      ← BitVec.shiftRight_add, Nat.add_comm]
    rw [BitVec.getLsbD_ushiftRight]
    exact ha (1 + i) (by omega)

lemma mask_eq : ∀ i < 32, (0x00ffffff#32).getLsbD i = decide (i < 24) := by decide

lemma and_mask (crc : BitVec 32) : (crc >>> 8) &&& 0x00ffffff#32 = crc >>> 8 := by
  refine BitVec.eq_of_getLsbD_eq fun i hi => ?_
  rw [BitVec.getLsbD_and, mask_eq i hi, BitVec.getLsbD_ushiftRight]
  by_cases hlt : i < 24
  · rw [decide_eq_true hlt, Bool.and_true]
  · rw [BitVec.getLsbD_of_ge crc (8 + i) (by omega), Bool.false_and]

lemma ofCrc_high (crc : BitVec 32) : ofCrc (crc >>> 8) = var ^ 8 * ofCrc ((crc >>> 8) <<< 8) := by
  have hlow : ∀ i < 8, ((crc >>> 8) <<< 8).getLsbD i = false := fun i hi => by
    rw [BitVec.getLsbD_shiftLeft, decide_eq_true hi, Bool.not_true, Bool.and_false, Bool.false_and]
  have hback : ((crc >>> 8) <<< 8) >>> 8 = crc >>> 8 := by
    refine BitVec.eq_of_getLsbD_eq fun i hi => ?_
    by_cases hlt : i + 8 < 32
    · simp [hlt, Nat.add_comm 8 i]
    · simp [BitVec.getLsbD_of_ge crc (8 + i) (by omega)]
  rw [← ofCrc_iterate_shifted, iterate_shifted_of_low hlow, hback]

lemma high_xor_low (crc : BitVec 32) :
    ((crc >>> 8) <<< 8) ^^^ (crc.setWidth 8).setWidth 32 = crc := by
  refine BitVec.eq_of_getLsbD_eq fun i hi => ?_
  by_cases hlt : i < 8
  · simp [hi, hlt]
  · simp [hi, hlt, show 8 + (i - 8) = i by omega]

lemma ofCrc_crcUpdateChar (crc : BitVec 32) (ch : BitVec 8) :
    ofCrc (crcUpdateChar crc ch) = var ^ 8 * (ofCrc crc + ofCrc (ch.setWidth 32)) := by
  have hbyte : BitVec.ofNat 32 (crc.setWidth 8 ^^^ ch).toFin =
      (crc.setWidth 8).setWidth 32 ^^^ ch.setWidth 32 := by
    rw [← BitVec.setWidth_xor]
    exact BitVec.ofNat_toNat 32 _
  have hcrc : ofCrc crc = ofCrc ((crc >>> 8) <<< 8) + ofCrc ((crc.setWidth 8).setWidth 32) := by
    rw [← ofCrc_xor, high_xor_low]
  rw [crcUpdateChar, and_mask, ofCrc_xor, ofCrc_high, table_get, hbyte, ofCrc_xor, hcrc]
  ring

lemma ofCrc_crcUpdateBlock (crc : BitVec 32) (buffer : List (BitVec 8)) :
    ofCrc (crcUpdateBlock crc buffer) =
      var ^ (8 * buffer.length) * ofCrc crc + ofCrc (crcUpdateBlock 0#32 buffer) := by
  induction buffer generalizing crc with
  | nil => rw [crcUpdateBlock, crcUpdateBlock, List.foldl_nil, List.foldl_nil, ofCrc_zero,
      List.length_nil, Nat.mul_zero, pow_zero, one_mul, add_zero]
  | cons ch buffer ih =>
    have hcons (crc : BitVec 32) :
        crcUpdateBlock crc (ch :: buffer) = crcUpdateBlock (crcUpdateChar crc ch) buffer := rfl
    rw [hcons, hcons, ih, ih (crcUpdateChar 0#32 ch), ofCrc_crcUpdateChar, ofCrc_crcUpdateChar,
      ofCrc_zero, List.length_cons, Nat.mul_succ, pow_add]
    ring

lemma crcUpdateZeros_eq (crc : BitVec 32) (length : ℕ) :
    crcUpdateZeros crc length = crcUpdateBlock crc (.replicate length 0#8) := by
  have hzeros : ofCrc (crcUpdateBlock 0#32 (.replicate length 0#8)) = 0 := by
    induction length with
    | zero => exact ofCrc_zero
    | succ length ih =>
      have hzero : crcUpdateChar 0#32 0#8 = 0#32 := by decide +kernel
      rwa [List.replicate_succ, crcUpdateBlock, List.foldl_cons, hzero]
  refine ofCrc_injective ?_
  rw [crcUpdateZeros, ofCrc_gf32Multiply, ofCrc_crcExp8, ofCrc_crcUpdateBlock, hzeros,
    List.length_replicate, add_zero, mul_comm]

lemma windowtable_get (window : ℕ) (ch : BitVec 8) :
    ofCrc ((generateWindowTable window).get ch.toFin) =
      var ^ 8 * ofCrc (ch.setWidth 32) * var ^ (8 * window) +
        (ofCrc (BitVec.allOnes 32) * var ^ (8 * window) * (1 + var ^ 8) + ofCrc
          (BitVec.allOnes 32)) := by
  have hbyte : BitVec.ofNat 32 ch.toFin = ch.setWidth 32 := BitVec.ofNat_toNat 32 ch
  have hmask : ofCrc 0x80800000#32 = 1 + var ^ 8 := by
    have hsplit : 0x80800000#32 = 0x80000000#32 ^^^ (shifted ccitt)^[8] 0x80000000#32 := by
      decide +kernel
    rw [hsplit, ofCrc_xor, ofCrc_iterate_shifted, ofCrc_one, mul_one]
  rw [table_get_eq, generateWindowTable, Vector.getElem_ofFn]
  simp only [ofCrc_xor, ofCrc_gf32Multiply]
  rw [ofCrc_crcExp8, hmask, table_get, hbyte]

lemma crcSlideChar_eq (chOld chNew : BitVec 8) (buffer : List (BitVec 8)) :
    crcSlideChar (crcCompute (chOld :: buffer)) chNew chOld
      (generateWindowTable (buffer.length + 1)) =
      crcCompute (buffer ++ [chNew]) := by
  set ones := BitVec.allOnes 32 with hones
  have hcrc : crcCompute (chOld :: buffer) ^^^ ones = crcUpdateBlock ones (chOld :: buffer) := by
    rw [crcCompute, ← hones, BitVec.xor_comm, ← BitVec.xor_assoc, BitVec.xor_self, BitVec.zero_xor]
  have hslide : crcSlideChar (crcCompute (chOld :: buffer)) chNew chOld
      (generateWindowTable (buffer.length + 1)) =
      crcUpdateChar (crcUpdateBlock ones (chOld :: buffer)) chNew ^^^
        (generateWindowTable (buffer.length + 1)).get chOld.toFin := by
    rw [crcSlideChar, ← hones, hcrc]
    rfl
  have hcons : crcUpdateBlock ones (chOld :: buffer) =
      crcUpdateBlock (crcUpdateChar ones chOld) buffer := rfl
  have hsnoc : crcUpdateBlock ones (buffer ++ [chNew]) =
      crcUpdateChar (crcUpdateBlock ones buffer) chNew := by
    rw [crcUpdateBlock, List.foldl_append]
    rfl
  refine ofCrc_injective ?_
  rw [hslide, ofCrc_xor, ofCrc_crcUpdateChar, windowtable_get, hcons, ofCrc_crcUpdateBlock,
    ofCrc_crcUpdateChar, crcCompute,
    ← hones, hsnoc, ofCrc_xor, ofCrc_crcUpdateChar, ofCrc_crcUpdateBlock ones]
  linear_combination Element.add_self
    (var ^ 8 * var ^ (8 * (buffer.length + 1)) * (ofCrc ones + ofCrc (chOld.setWidth 32)))

/-- The two short cuts give what the bytes give: so many zeros at once, and a window of any length
one byte further on. -/
theorem crc_shortcuts :
    (∀ crc length, crcUpdateZeros crc length = crcUpdateBlock crc (.replicate length 0#8)) ∧
    ∀ (buffer : List (BitVec 8)) (chOld chNew : BitVec 8),
      crcSlideChar (crcCompute (chOld :: buffer)) chNew chOld
        (generateWindowTable (buffer.length + 1)) =
        crcCompute (buffer ++ [chNew]) := by
  refine ⟨fun crc length => ?_, fun buffer chOld chNew => ?_⟩
  · exact crcUpdateZeros_eq crc length
  · exact crcSlideChar_eq chOld chNew buffer

end Spec

end DriveIntegrity.Parity
