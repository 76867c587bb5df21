import DriveIntegrity.Library.BinaryField
import DriveIntegrity.Library.Sieve

/-! The tables of `gfmat_init`: the number of each input block and its powers. -/

namespace DriveIntegrity.Parity

open Sieve

section Field

/-- `GF16_POLYNOMIAL` without its highest term -/
abbrev polynomial : BitVec 16 := 0x100B#16

abbrev Galois16 : Type := Element polynomial

lemma prime_dvd_65535 {p : ℕ} (hp : p.Prime) (hdvd : p ∣ 65535) :
    p = 3 ∨ p = 5 ∨ p = 17 ∨ p = 257 := by
  have heq {q : ℕ} (hq : q.Prime) (h : p ∣ q) : p = q := (Nat.prime_dvd_prime_iff_eq hp hq).mp h
  rw [show 65535 = 3 * 5 * 17 * 257 by norm_num, hp.dvd_mul, hp.dvd_mul, hp.dvd_mul] at hdvd
  rcases hdvd with ((h | h) | h) | h
  · exact Or.inl (heq (by norm_num) h)
  · exact Or.inr (Or.inl (heq (by norm_num) h))
  · exact Or.inr (Or.inr (Or.inl (heq (by norm_num) h)))
  · exact Or.inr (Or.inr (Or.inr (heq (by norm_num) h)))

instance : Element.Primitive polynomial where
  orderOf_generator := by
    rw [show 2 ^ 16 - 1 = 65535 by norm_num]
    refine Element.orderOf_eq_of_powBits (k := 16) (by norm_num) (by norm_num) _ (by decide +kernel)
      fun p hp hdvd => ?_
    rcases prime_dvd_65535 hp hdvd with rfl | rfl | rfl | rfl <;> decide +kernel

/-- The number 2, whose powers the tables hold. -/
abbrev two : Galois16 := Element.generator polynomial

lemma two_pow_order : two ^ 65535 = 1 :=
  Element.generator_pow_order

lemma two_pow_inj {m n : ℕ} (hm : m < 65535) (hn : n < 65535) (h : two ^ m = two ^ n) : m = n := by
  have hmod : m % 65535 = n % 65535 := Element.generator_pow_eq_iff.mp h
  rwa [Nat.mod_eq_of_lt hm, Nat.mod_eq_of_lt hn] at hmod

def double (n : ℕ) : ℕ :=
  if n <<< 1 > 65535 then (n <<< 1) ^^^ 0x1100B else n <<< 1

lemma double_lt {n : ℕ} (hn : n < 65536) : double n < 65536 := by
  rw [double, Nat.shiftLeft_eq]
  split_ifs with hover
  · refine (Nat.div_eq_zero_iff_lt (by norm_num)).mp ?_
    rw [show 65536 = 2 ^ 16 by norm_num, Nat.xor_div_two_pow, show n * 2 ^ 1 / 2 ^ 16 = 1 by omega]
    rfl
  · omega

lemma ofNat_double {n : ℕ} (hn : n < 65536) :
    BitVec.ofNat 16 (double n) = BinaryWord.xtime polynomial (BitVec.ofNat 16 n) := by
  have hshift : BitVec.ofNat 16 (n <<< 1) = BitVec.ofNat 16 n <<< 1 := by
    apply BitVec.eq_of_toNat_eq
    simp [Nat.shiftLeft_eq]
  have hmsb : (BitVec.ofNat 16 n).msb = decide (n <<< 1 > 65535) := by
    rw [BitVec.msb_eq_decide, BitVec.toNat_ofNat, Nat.mod_eq_of_lt hn, Nat.shiftLeft_eq]
    exact decide_eq_decide.mpr (by omega)
  rw [double, BinaryWord.xtime, hmsb, ← hshift]
  by_cases hover : n <<< 1 > 65535
  · rw [if_pos hover, if_pos (decide_eq_true hover), BitVec.ofNat_xor]
    rfl
  · rw [if_neg hover, if_neg (by simpa using hover), BitVec.xor_zero]

lemma ofNat_iterate_double (k : ℕ) {n : ℕ} (hn : n < 65536) :
    double^[k] n < 65536 ∧
      BitVec.ofNat 16 (double^[k] n) = (BinaryWord.xtime polynomial)^[k] (BitVec.ofNat 16 n) := by
  induction k with
  | zero => exact ⟨hn, rfl⟩
  | succ k ih =>
    rw [Function.iterate_succ_apply', Function.iterate_succ_apply', ← ih.2]
    exact ⟨double_lt ih.1, ofNat_double ih.1⟩

end Field

section Init

structure Tables where
  inputDiff : Vector (BitVec 8) 32768
  gfExp : Vector (BitVec 16) (8192 + 128)
  gf16Recip : Vector (BitVec 16) 65536

/-- The arrays with the variables of the loop that fills them. -/
structure Filling where
  inputDiff : Vector (BitVec 8) 32768
  gfExp : Vector (BitVec 16) (8192 + 128)
  gf16Recip : Vector (BitVec 16) 65536
  i : ℕ
  exp : ℕ
  n : ℕ

def repeats (exp : ℕ) : Bool :=
  exp % 3 == 0 || exp % 5 == 0 || exp % 17 == 0 || exp % 257 == 0

/-- The body of the `do` loop, and of the `for` loop around it when the former ends. -/
def Filling.next (s : Filling) : Filling :=
  let s := { s with
    gf16Recip := s.gf16Recip.setIfInBounds s.n (BitVec.ofNat 16 s.exp)
    gfExp :=
      if s.exp &&& 7 = 0 then s.gfExp.setIfInBounds (s.exp >>> 3) (BitVec.ofNat 16 s.n) else s.gfExp
    exp := s.exp + 1
    n := double s.n }
  if repeats s.exp then s
  else { s with
    inputDiff := s.inputDiff.setIfInBounds s.i (BitVec.ofInt 8 (s.exp - s.i * 2))
    i := s.i + 1 }

def Filling.run : ℕ → Filling → Filling
  | 0, s => s
  | fuel + 1, s => if s.i < 32768 then run fuel s.next else s

def gf16Exp (gfExp : Vector (BitVec 16) (8192 + 128)) (v : ℕ) : BitVec 16 :=
  let result : BitVec 32 := (gfExp[v >>> 3]?.getD 0).setWidth 32 <<< (v &&& 7)
  result.setWidth 16 ^^^ gfExp[8192 + (result >>> 16).toNat]?.getD 0

/-- The effects of the polynomial on the bits that a shift moves out. -/
def corrections (gfExp : Vector (BitVec 16) (8192 + 128)) : Vector (BitVec 16) (8192 + 128) :=
  (List.range 128).foldl
    (fun table i => table.setIfInBounds (8192 + i) (BitVec.ofNat 16 (double^[7] (i <<< 9)))) gfExp

def reciprocals (gfExp : Vector (BitVec 16) (8192 + 128)) (logs : Vector (BitVec 16) 65536) :
    Vector (BitVec 16) 65536 :=
  (List.range' 1 65535).foldl
    (fun recip i => recip.setIfInBounds i (gf16Exp gfExp (65535 - (recip[i]?.getD 0).toNat))) logs

/-- The loop of `gfmat_init`, on arrays as `malloc` returns them. -/
@[irreducible] def filling (malloc : Tables) : Filling :=
  Filling.run 65536 ⟨malloc.inputDiff, malloc.gfExp, malloc.gf16Recip, 0, 0, 1⟩

def logarithms (s : Filling) : Vector (BitVec 16) 65536 :=
  (s.gf16Recip.setIfInBounds s.n (BitVec.ofNat 16 s.exp)).setIfInBounds 1 65535#16

def Filling.finish (s : Filling) : Tables where
  inputDiff := s.inputDiff
  gfExp := corrections s.gfExp
  gf16Recip := reciprocals (corrections s.gfExp) (logarithms s)

def gfmatInit (malloc : Tables) : Tables :=
  (filling malloc).finish

def gfmatInputLog (tables : Tables) (inputBlock : ℕ) : BitVec 16 :=
  BitVec.ofInt 16 (inputBlock * 2 + (tables.inputDiff[inputBlock]?.getD 0).toInt)

def gfmatCoeffLog (inputLog recoveryBlock : ℕ) : BitVec 16 :=
  let result := inputLog * recoveryBlock
  let result := (result >>> 16) + (result &&& 65535)
  BitVec.ofNat 16 (result + (result >>> 16))

def gfmatCoeffFromLog (tables : Tables) (inputLog : BitVec 16) (recoveryBlock : ℕ) : BitVec 16 :=
  gf16Exp tables.gfExp (gfmatCoeffLog inputLog.toNat recoveryBlock).toNat

def gfmatCoeff (tables : Tables) (inputBlock recoveryBlock : ℕ) : BitVec 16 :=
  gfmatCoeffFromLog tables (gfmatInputLog tables inputBlock) recoveryBlock

end Init

section Numbers

def primes : List ℕ := [3, 5, 17, 257]

lemma repeats_eq_false_iff (exp : ℕ) : repeats exp = false ↔ Survives primes exp := by
  simp only [repeats, Survives, primes, Bool.or_eq_false_iff, beq_eq_false_iff_ne, ne_eq,
    List.forall_mem_cons, Nat.dvd_iff_mod_eq_zero]
  tauto

lemma survives_primes : Survives primes = Nat.Coprime 65535 := by
  funext n
  have hsplit : Nat.Coprime 65535 n ↔ Nat.Coprime 3 n ∧ Nat.Coprime 5 n ∧ Nat.Coprime 17 n ∧
      Nat.Coprime 257 n := by
    rw [show 65535 = 3 * (5 * (17 * 257)) by norm_num, Nat.coprime_mul_iff_left,
      Nat.coprime_mul_iff_left, Nat.coprime_mul_iff_left]
  have hprime {p : ℕ} (hp : p.Prime) : Nat.Coprime p n ↔ ¬ p ∣ n := hp.coprime_iff_not_dvd
  rw [hsplit, hprime (by norm_num), hprime (by norm_num), hprime (by norm_num),
    hprime (by norm_num)]
  simp [Survives, primes]

lemma primes_pos : ∀ p ∈ primes, 0 < p := by decide

lemma primes_coprime : primes.Pairwise Nat.Coprime := by decide

/-- There are as many numbers below 65535 and prime to it as there may be input blocks. -/
lemma count_primes : Nat.count (Survives primes) 65535 = 32768 := by
  rw [count_eq_survivors primes_pos primes_coprime]
  decide

/-- The power of two that stands for an input block. -/
noncomputable def inputLog (inputBlock : ℕ) : ℕ :=
  Nat.nth (Nat.Coprime 65535) inputBlock

lemma survives_infinite : {n | Survives primes n}.Infinite := by
  refine Set.infinite_of_not_bddAbove fun ⟨b, hb⟩ => ?_
  have hmem : Survives primes (65535 * b + 1) := by
    rw [survives_primes]
    exact (Nat.coprime_mul_left_add_right 65535 1 b).mpr (by norm_num)
  have hle := hb hmem
  omega

lemma inputLog_eq_nth : inputLog = Nat.nth (Survives primes) := by
  funext i
  rw [inputLog, survives_primes]

lemma count_inputLog (i : ℕ) : Nat.count (Survives primes) (inputLog i) = i := by
  rw [inputLog_eq_nth]
  exact Nat.count_nth_of_infinite survives_infinite i

lemma inputLog_injective : Function.Injective inputLog := by
  rw [inputLog_eq_nth]
  exact Nat.nth_injective survives_infinite

lemma inputLog_lt {i : ℕ} (hi : i < 32768) : inputLog i < 65535 := by
  refine (Nat.count_monotone (Survives primes)).reflect_lt ?_
  rwa [count_inputLog, count_primes]

/-- The numbers come evenly enough that a byte holds how far each is from twice its index. -/
lemma inputLog_sub_bounds {i : ℕ} (hi : i < 32768) :
    -128 ≤ (inputLog i : ℤ) - i * 2 ∧ (inputLog i : ℤ) - i * 2 < 128 := by
  have hspread := abs_count_sub_le primes_pos primes_coprime (inputLog i)
  have hdensity : density primes = 32768 / 65535 := by
    simp only [density, primes, List.map_cons, List.map_nil, List.prod_cons, List.prod_nil]
    norm_num
  rw [count_inputLog, hdensity, show primes.length = 4 from rfl, abs_le] at hspread
  have hlt : (inputLog i : ℚ) < 65535 := by exact_mod_cast inputLog_lt hi
  have hlow : (-128 : ℚ) ≤ (inputLog i : ℚ) - i * 2 := by linarith [hspread.1, hspread.2]
  have hhigh : (inputLog i : ℚ) - i * 2 < 128 := by linarith [hspread.1, hspread.2]
  exact ⟨by exact_mod_cast hlow, by exact_mod_cast hhigh⟩

end Numbers

section Fill

lemma word_two_pow_toNat_ne_zero (e : ℕ) : (two ^ e).word.toNat ≠ 0 := by
  intro h
  exact Element.generator_pow_ne_zero e (Element.ext (BitVec.eq_of_toNat_eq h))

lemma toNat_two_pow_inj {m n : ℕ} (hm : m < 65535) (hn : n < 65535)
    (h : (two ^ m).word.toNat = (two ^ n).word.toNat) : m = n :=
  two_pow_inj hm hn (Element.ext (BitVec.eq_of_toNat_eq h))

lemma double_word (e : ℕ) : double (two ^ e).word.toNat = (two ^ (e + 1)).word.toNat := by
  have hlt := (two ^ e).word.isLt
  have hword := ofNat_double hlt
  rw [BitVec.ofNat_toNat, BitVec.setWidth_eq] at hword
  rw [pow_succ', Element.generator_mul, ← hword, BitVec.toNat_ofNat,
    Nat.mod_eq_of_lt (double_lt hlt)]

/-- What the arrays hold after so many rounds of the `do` loop. -/
structure Filled (k : ℕ) (s : Filling) : Prop where
  exp : s.exp = k
  n : s.n = (two ^ k).word.toNat
  i : s.i = Nat.count (Survives primes) (k + 1)
  logs : ∀ e < k, s.gf16Recip[(two ^ e).word.toNat]? = some (BitVec.ofNat 16 e)
  gfExp : ∀ m, 8 * m < k → s.gfExp[m]? = some (two ^ (8 * m)).word
  inputDiff : ∀ j < s.i, s.inputDiff[j]? = some (BitVec.ofInt 8 (inputLog j - j * 2))

lemma filled_zero (malloc : Tables) :
    Filled 0 ⟨malloc.inputDiff, malloc.gfExp, malloc.gf16Recip, 0, 0, 1⟩ where
  exp := rfl
  n := rfl
  i := show 0 = Nat.count (Survives primes) 1 by decide
  logs e he := absurd he (Nat.not_lt_zero e)
  gfExp m hm := absurd hm (Nat.not_lt_zero _)
  inputDiff j hj := absurd hj (Nat.not_lt_zero j)

lemma Filled.next {k : ℕ} {s : Filling} (h : Filled k s) (hk : k < 65535) (hi : s.i < 32768) :
    Filled (k + 1) s.next := by
  obtain ⟨hexp, hn, hcount, hlogs, hgfExp, hdiff⟩ := h
  have hcountNext := Nat.count_succ (Survives primes) (k + 1)
  have hlogsNext :
      ∀ e < k + 1, (s.gf16Recip.setIfInBounds s.n (BitVec.ofNat 16 s.exp))[(two ^ e).word.toNat]? =
      some (BitVec.ofNat 16 e) := by
    intro e he
    rcases Nat.lt_succ_iff_lt_or_eq.mp he with hlt | rfl
    · have hne : s.n ≠ (two ^ e).word.toNat := fun heq =>
        hlt.ne' (toNat_two_pow_inj hk (hlt.trans hk) (hn.symm.trans heq))
      rw [Vector.getElem?_setIfInBounds_ne hne, hlogs e hlt]
    · rw [hn, hexp, Vector.getElem?_setIfInBounds_self_of_lt (two ^ e).word.isLt]
  have hgfExpNext : ∀ m, 8 * m < k + 1 → (if s.exp &&& 7 = 0 then
      s.gfExp.setIfInBounds (s.exp >>> 3) (BitVec.ofNat 16 s.n) else s.gfExp)[m]? =
        some (two ^ (8 * m)).word := by
    intro m hm
    have hand : s.exp &&& 7 = k % 8 := by rw [hexp]; exact Nat.and_two_pow_sub_one_eq_mod k 3
    have hshift : s.exp >>> 3 = k / 8 := by rw [hexp, Nat.shiftRight_eq_div_pow]
    rw [hand, hshift]
    rcases Nat.lt_succ_iff_lt_or_eq.mp hm with hlt | heq
    · split_ifs with hmod
      · rw [Vector.getElem?_setIfInBounds_ne (by omega), hgfExp m hlt]
      · exact hgfExp m hlt
    · rw [if_pos (by omega), show k / 8 = m by omega,
        Vector.getElem?_setIfInBounds_self_of_lt (by omega), hn, heq,
        BitVec.ofNat_toNat, BitVec.setWidth_eq]
  have hnNext : double s.n = (two ^ (k + 1)).word.toNat := by rw [hn, double_word]
  unfold Filling.next
  by_cases hrep : repeats (s.exp + 1) = true
  · have hnot : ¬ Survives primes (k + 1) := by
      rw [← repeats_eq_false_iff, ← hexp, hrep]
      simp
    rw [if_pos hrep]
    exact ⟨by rw [hexp], hnNext, by rw [hcountNext, if_neg hnot, ← hcount]; rfl, hlogsNext,
      hgfExpNext, hdiff⟩
  · have hyes : Survives primes (k + 1) := by
      rw [← repeats_eq_false_iff, ← hexp]
      simpa using hrep
    have hlog : inputLog s.i = k + 1 := by
      rw [hcount, inputLog_eq_nth, Nat.nth_count hyes]
    rw [if_neg hrep]
    refine ⟨by rw [hexp], hnNext, by rw [hcountNext, if_pos hyes, ← hcount], hlogsNext,
      hgfExpNext, ?_⟩
    intro j hj
    change j < s.i + 1 at hj
    change (s.inputDiff.setIfInBounds s.i (BitVec.ofInt 8 ((s.exp + 1 : ℕ) - s.i * 2)))[j]? = _
    rcases Nat.lt_succ_iff_lt_or_eq.mp hj with hlt | rfl
    · rw [Vector.getElem?_setIfInBounds_ne hlt.ne', hdiff j hlt]
    · rw [Vector.getElem?_setIfInBounds_self_of_lt hi, hexp, hlog]

lemma survives_last : Survives primes 65534 := by decide

lemma Filled.run {k fuel : ℕ} {s : Filling} (h : Filled k s) (hk : k ≤ 65534)
    (hfuel : 65534 ≤ k + fuel) :
    Filled 65534 (s.run fuel) := by
  induction fuel generalizing k s with
  | zero =>
    obtain rfl : k = 65534 := by omega
    exact h
  | succ fuel ih =>
    have hall : Nat.count (Survives primes) 65534 + 1 = 32768 := by
      have hsucc := Nat.count_succ (Survives primes) 65534
      rwa [count_primes, if_pos survives_last, eq_comm] at hsucc
    rw [Filling.run]
    rcases hk.lt_or_eq with hlt | rfl
    · have hle : Nat.count (Survives primes) (k + 1) ≤ Nat.count (Survives primes) 65534 :=
        Nat.count_monotone _ (by omega)
      have hi : s.i < 32768 := by
        rw [h.i]
        omega
      rw [if_pos hi]
      exact ih (h.next (by omega) hi) (by omega) (by omega)
    · rw [if_neg (by rw [h.i, count_primes]; exact lt_irrefl _)]
      exact h

end Fill

section Writes

variable {α : Type} {size : ℕ}

lemma getElem?_foldl_of_notMem (f : ℕ → ℕ) (g : ℕ → Option α → α) {l : List ℕ} {j : ℕ}
    (hj : ∀ i ∈ l, f i ≠ j) (xs : Vector α size) :
    (l.foldl (fun xs i => xs.setIfInBounds (f i) (g i xs[f i]?)) xs)[j]? = xs[j]? := by
  induction l generalizing xs with
  | nil => rfl
  | cons i l ih =>
    rw [List.foldl_cons, ih (fun i hi => hj i (List.mem_cons_of_mem _ hi)),
      Vector.getElem?_setIfInBounds_ne (hj i List.mem_cons_self)]

lemma getElem?_foldl_of_mem {f : ℕ → ℕ} (hf : Function.Injective f)
    (g : ℕ → Option α → α) {l : List ℕ}
    (hnodup : l.Nodup) {i : ℕ} (hi : i ∈ l) (hsize : f i < size) (xs : Vector α size) :
    (l.foldl (fun xs i => xs.setIfInBounds (f i) (g i xs[f i]?)) xs)[f i]? =
      some (g i xs[f i]?) := by
  induction l generalizing xs with
  | nil => exact absurd hi List.not_mem_nil
  | cons k l ih =>
    rw [List.nodup_cons] at hnodup
    rw [List.foldl_cons]
    rcases List.mem_cons.mp hi with rfl | hmem
    · have hother : ∀ j ∈ l, f j ≠ f i := fun j hj heq => hnodup.1 (hf heq ▸ hj)
      rw [getElem?_foldl_of_notMem f g hother, Vector.getElem?_setIfInBounds_self_of_lt hsize]
    · have hne : f k ≠ f i := fun heq => hnodup.1 (hf heq ▸ hmem)
      rw [ih hnodup.2 hmem, Vector.getElem?_setIfInBounds_ne hne]

end Writes

section Exponent

open Polynomial BinaryWord

variable {gfExp : Vector (BitVec 16) (8192 + 128)}

lemma corrections_low {m : ℕ} (hm : m < 8192) : (corrections gfExp)[m]? = gfExp[m]? :=
  getElem?_foldl_of_notMem (8192 + ·) (fun i _ => BitVec.ofNat 16 (double^[7] (i <<< 9)))
    (fun i _ => (show 8192 + i ≠ m by omega)) gfExp

lemma corrections_high {i : ℕ} (hi : i < 128) :
    (corrections gfExp)[8192 + i]? = some (BitVec.ofNat 16 (double^[7] (i <<< 9))) :=
  getElem?_foldl_of_mem (add_right_injective 8192)
    (fun i _ => BitVec.ofNat 16 (double^[7] (i <<< 9)))
    List.nodup_range (List.mem_range.mpr hi) (by omega) gfExp

lemma value_correction {i : ℕ} (hi : i < 128) :
    value polynomial (BitVec.ofNat 16 (double^[7] (i <<< 9))) =
    AdjoinRoot.root (modulus polynomial) ^ 16 * AdjoinRoot.mk (modulus polynomial)
      (toPoly (BitVec.ofNat 32 i)) := by
  have hlt : i <<< 9 < 65536 := by
    rw [Nat.shiftLeft_eq]
    omega
  have hword : BitVec.ofNat 16 (i <<< 9) = (BitVec.ofNat 32 i).setWidth 16 <<< 9 := by
    apply BitVec.eq_of_toNat_eq
    simp only [Nat.shiftLeft_eq, BitVec.toNat_ofNat, BitVec.toNat_shiftLeft, BitVec.toNat_setWidth]
    omega
  have hfit : ∀ j, 16 ≤ j + 9 → (BitVec.ofNat 32 i).getLsbD j = false := by
    intro j hj
    have hsmall : i < 2 ^ j :=
      lt_of_lt_of_le hi (Nat.pow_le_pow_right (n := 2) (by norm_num) (show 7 ≤ j by omega))
    rw [BitVec.getLsbD_ofNat, Nat.testBit_lt_two_pow hsmall, Bool.and_false]
  rw [(ofNat_iterate_double 7 hlt).2, value_iterate_xtime, hword, value,
    toPoly_shiftLeft _ _ _ hfit, map_mul, map_pow, AdjoinRoot.mk_X, ← mul_assoc, ← pow_add]

lemma gf16Exp_eq {v : ℕ} (hv : v < 65536)
    (htable : ∀ m < 8192, gfExp[m]? = some (two ^ (8 * m)).word) :
    gf16Exp (corrections gfExp) v = (two ^ v).word := by
  have hand : v &&& 7 = v % 8 := Nat.and_two_pow_sub_one_eq_mod v 3
  have hshift : v >>> 3 = v / 8 := Nat.shiftRight_eq_div_pow v 3
  set base := (two ^ (8 * (v / 8))).word with hbase
  set result : BitVec 32 := base.setWidth 32 <<< (v % 8) with hresult
  have hexp : gf16Exp (corrections gfExp) v =
      result.setWidth 16 ^^^ (corrections gfExp)[8192 + (result >>> 16).toNat]?.getD 0 := by
    rw [gf16Exp, hand, hshift, corrections_low (by omega), htable _ (by omega), Option.getD_some]
  have hhigh : (result >>> 16).toNat < 128 := by
    have hlt := base.isLt
    have hpow : 2 ^ (v % 8) ≤ 2 ^ 7 := Nat.pow_le_pow_right (by norm_num) (by omega)
    rw [hresult, BitVec.toNat_ushiftRight, BitVec.toNat_shiftLeft, BitVec.toNat_setWidth,
      Nat.shiftLeft_eq,
      Nat.shiftRight_eq_div_pow, Nat.mod_eq_of_lt (show base.toNat < 2 ^ 32 by omega)]
    have hprod : base.toNat * 2 ^ (v % 8) < 2 ^ 16 * 2 ^ 7 :=
      Nat.mul_lt_mul_of_lt_of_le hlt hpow (by positivity)
    omega
  have hfit : ∀ j, 32 ≤ j + v % 8 → base.getLsbD j = false := fun j hj =>
    BitVec.getLsbD_of_ge base j (by omega)
  have hsplit := toPoly_eq_add result 16
  rw [hresult, toPoly_shiftLeft base 32 (v % 8) hfit, ← hresult] at hsplit
  refine (value_injective : Function.Injective (value polynomial)) ?_
  calc value polynomial (gf16Exp (corrections gfExp) v)
      = AdjoinRoot.mk (modulus polynomial) (toPoly (result.setWidth 16)) +
        AdjoinRoot.root (modulus polynomial) ^ 16 *
          AdjoinRoot.mk (modulus polynomial) (toPoly (result >>> 16)) := by
        rw [hexp, corrections_high hhigh, Option.getD_some, value_xor, value_correction hhigh,
          BitVec.ofNat_toNat, BitVec.setWidth_eq, value]
    _ = AdjoinRoot.mk (modulus polynomial) (X ^ (v % 8) * toPoly base) := by
        rw [hsplit, map_add, map_mul, map_pow, AdjoinRoot.mk_X]
    _ = value polynomial (two ^ v).word := by
        have hpow : two ^ v = two ^ (v % 8) * two ^ (8 * (v / 8)) := by
          rw [← pow_add, Nat.mod_add_div]
        rw [hpow, Element.generator_pow_mul, ← hbase, value_iterate_xtime, map_mul, map_pow,
          AdjoinRoot.mk_X, value]

end Exponent

section Spec

variable (malloc : Tables)

lemma filled_filling : Filled 65534 (filling malloc) := by
  unfold filling
  exact (filled_zero malloc).run (by norm_num) (by norm_num)

lemma inputDiff_finish (s : Filling) : s.finish.inputDiff = s.inputDiff := by
  rw [Filling.finish]

lemma gfExp_finish (s : Filling) : s.finish.gfExp = corrections s.gfExp := by
  rw [Filling.finish]

lemma gf16Recip_finish (s : Filling) :
    s.finish.gf16Recip = reciprocals s.finish.gfExp (logarithms s) := by
  rw [gfExp_finish, Filling.finish]

lemma inputDiff_gfmatInit {i : ℕ} (hi : i < 32768) :
    (gfmatInit malloc).inputDiff[i]? = some (BitVec.ofInt 8 (inputLog i - i * 2)) := by
  have hfilled := filled_filling malloc
  have hcount : i < (filling malloc).i := by rwa [hfilled.i, count_primes]
  rw [gfmatInit, inputDiff_finish]
  exact hfilled.inputDiff i hcount

lemma gf16Exp_gfmatInit {v : ℕ} (hv : v < 65536) :
    gf16Exp (gfmatInit malloc).gfExp v = (two ^ v).word := by
  rw [gfmatInit, gfExp_finish]
  exact gf16Exp_eq hv fun m hm => (filled_filling malloc).gfExp m (by omega)

lemma toNat_gfmatInputLog {i : ℕ} (hi : i < 32768) :
    (gfmatInputLog (gfmatInit malloc) i).toNat = inputLog i := by
  have hbounds := inputLog_sub_bounds hi
  have hlt := inputLog_lt hi
  rw [gfmatInputLog, inputDiff_gfmatInit malloc hi, Option.getD_some,
    BitVec.toInt_ofInt_eq_self (by norm_num) hbounds.1 hbounds.2, add_sub_cancel,
    BitVec.ofInt_natCast, BitVec.toNat_ofNat, Nat.mod_eq_of_lt (by omega)]

lemma gfmatCoeffLog_modEq {a b : ℕ} (ha : a < 65536) (hb : b < 65536) :
    (gfmatCoeffLog a b).toNat ≡ a * b [MOD 65535] := by
  have hand : a * b &&& 65535 = a * b % 65536 := Nat.and_two_pow_sub_one_eq_mod (a * b) 16
  have hprod : a * b < 65536 * 65536 := Nat.mul_lt_mul'' ha hb
  rw [gfmatCoeffLog, hand, Nat.shiftRight_eq_div_pow, Nat.shiftRight_eq_div_pow, BitVec.toNat_ofNat]
  generalize a * b = product at hprod ⊢
  set sum := product / 2 ^ 16 + product % 65536 with hsum
  -- the carry of the sum is taken off as 65536 and put back as 1
  have hcarry : (sum + sum / 2 ^ 16) % 2 ^ 16 + 65535 * (sum / 2 ^ 16) = sum := by omega
  have hproduct : product = sum + 65535 * (product / 2 ^ 16) := by omega
  calc (sum + sum / 2 ^ 16) % 2 ^ 16 ≡ (sum + sum / 2 ^ 16) % 2 ^ 16 + 65535 * (sum / 2 ^ 16)
    [MOD 65535] := by
        rw [Nat.ModEq, Nat.add_mul_mod_self_left]
    _ ≡ product [MOD 65535] := by
        rw [hcarry, Nat.ModEq, hproduct, Nat.add_mul_mod_self_left]

lemma gfmatCoeffFromLog_eq (log : BitVec 16) {e : ℕ} (he : e < 65536) :
    gfmatCoeffFromLog (gfmatInit malloc) log e = (two ^ (log.toNat * e)).word := by
  rw [gfmatCoeffFromLog, gf16Exp_gfmatInit malloc (BitVec.isLt _)]
  exact congrArg Element.word (Element.generator_pow_eq_iff.mpr (gfmatCoeffLog_modEq log.isLt he))

/-- The table of numbers and the bit arithmetic on them give the powers of a block's constant. -/
theorem gfmatCoeff_gfmatInit {i e : ℕ} (hi : i < 32768) (he : e < 65536) :
    gfmatCoeff (gfmatInit malloc) i e = (two ^ (Nat.nth (Nat.Coprime 65535) i * e)).word := by
  rw [gfmatCoeff, gfmatCoeffFromLog_eq malloc _ he, toNat_gfmatInputLog malloc hi, inputLog]

lemma logs_gfmatInit {e : ℕ} (he : e < 65535) :
    (logarithms (filling malloc))[(two ^ e).word.toNat]? = some
      (BitVec.ofNat 16 (if e = 0 then 65535 else e)) := by
  rw [logarithms]
  have hfilled := filled_filling malloc
  have hone : (two ^ 0).word.toNat = 1 := rfl
  rcases eq_or_ne e 0 with rfl | hzero
  · rw [hone, Vector.getElem?_setIfInBounds_self_of_lt (by norm_num), if_pos rfl]
  · have hne : 1 ≠ (two ^ e).word.toNat := fun h =>
      hzero (toNat_two_pow_inj he (by norm_num) (h.symm.trans hone.symm))
    rw [Vector.getElem?_setIfInBounds_ne hne, if_neg hzero]
    rcases (show e ≤ 65534 by omega).lt_or_eq with hlt | hlast
    · have hlast : (filling malloc).n ≠ (two ^ e).word.toNat := fun h =>
        hlt.ne' (toNat_two_pow_inj (by norm_num) he (hfilled.n.symm.trans h))
      rw [Vector.getElem?_setIfInBounds_ne hlast, hfilled.logs e hlt]
    · rw [hfilled.n, hfilled.exp, ← hlast,
        Vector.getElem?_setIfInBounds_self_of_lt (two ^ e).word.isLt]

lemma gf16Recip_two_pow {e : ℕ} (he : e < 65535) :
    (gfmatInit malloc).gf16Recip[(two ^ e).word.toNat]? = some (two ^ (65535 - e)).word := by
  have hmem : (two ^ e).word.toNat ∈ List.range' 1 65535 := by
    rw [List.mem_range'_1]
    have := word_two_pow_toNat_ne_zero e
    have := (two ^ e).word.isLt
    omega
  have hread := getElem?_foldl_of_mem Function.injective_id
    (fun _ cell => gf16Exp (gfmatInit malloc).gfExp (65535 - (cell.getD 0).toNat))
      List.nodup_range' hmem
    (two ^ e).word.isLt (logarithms (filling malloc))
  rw [gfmatInit, gf16Recip_finish, ← gfmatInit, reciprocals]
  refine hread.trans (congrArg some ?_)
  rw [id, logs_gfmatInit malloc he, Option.getD_some, BitVec.toNat_ofNat,
    gf16Exp_gfmatInit malloc (by omega)]
  split_ifs with hzero
  · rw [hzero]
    exact congrArg Element.word (two_pow_order.symm)
  · rw [Nat.mod_eq_of_lt (by omega)]

def gf16Recip (tables : Tables) (a : BitVec 16) : BitVec 16 :=
  tables.gf16Recip[a.toNat]?.getD 0

/-- The table that began as logarithms holds the reciprocal of every word but zero. -/
theorem mul_gf16Recip {a : Galois16} (ha : a ≠ 0) :
    a * ⟨gf16Recip (gfmatInit malloc) a.word⟩ = 1 := by
  obtain ⟨e, he, rfl⟩ := Element.exists_generator_pow ha
  have hlt : e < 65535 := he
  rw [gf16Recip, gf16Recip_two_pow malloc hlt, Option.getD_some]
  exact (pow_add two e (65535 - e)).symm.trans (by rw [Nat.add_sub_cancel' hlt.le, two_pow_order])

lemma gfmatCoeff_one_injective {i j : ℕ} (hi : i < 32768) (hj : j < 32768)
    (h : gfmatCoeff (gfmatInit malloc) i 1 = gfmatCoeff (gfmatInit malloc) j 1) : i = j := by
  rw [gfmatCoeff_gfmatInit malloc hi (by norm_num),
    gfmatCoeff_gfmatInit malloc hj (by norm_num), mul_one, mul_one] at h
  exact inputLog_injective (two_pow_inj (inputLog_lt hi) (inputLog_lt hj) (Element.ext h))

/-- Whatever the memory held before: the tables give the powers of the blocks' constants, which are
all different, and the reciprocals. -/
theorem gfmatInit_tables :
    (∀ i < 32768, ∀ e < 65536,
      gfmatCoeff (gfmatInit malloc) i e = (two ^ (Nat.nth (Nat.Coprime 65535) i * e)).word) ∧
    Set.InjOn (gfmatCoeff (gfmatInit malloc) · 1) (Set.Iio 32768) ∧
    ∀ a : Galois16, a ≠ 0 → a * ⟨gf16Recip (gfmatInit malloc) a.word⟩ = 1 := by
  refine ⟨fun i hi e he => ?_, fun i hi j hj h => ?_, fun a ha => ?_⟩
  · exact gfmatCoeff_gfmatInit malloc hi he
  · exact gfmatCoeff_one_injective malloc hi hj h
  · exact mul_gf16Recip malloc ha

end Spec

end DriveIntegrity.Parity
