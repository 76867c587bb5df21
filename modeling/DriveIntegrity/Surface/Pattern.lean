import DriveIntegrity.Library.Bytes

/-! The test pattern of `surface_scan` and the loop that checks it on the way back. -/

namespace DriveIntegrity.Surface

open Bytes

def sectorSize : ℕ := 512
def stampSize : ℕ := 8

/-- Values of a `size_t` loop variable that runs from 0 by 512 below `size`. -/
def sectorOffsets (size : ℕ) : List ℕ :=
  (List.range ((size + 511) / 512)).map (512 * ·)

def patternByte (absoluteOffset j : ℕ) : UInt8 :=
  UInt8.ofNat ((absoluteOffset + j) % 2 ^ 64 % 256)

def fillByte (absoluteOffset i : ℕ) (buffer : List UInt8) (j : ℕ) : List UInt8 :=
  if i + j < buffer.length then buffer.set (i + j) (patternByte absoluteOffset j) else buffer

/-- The body of `FillPattern`: the stamp at `i`, then the running pattern behind it. -/
def fillSector (absoluteOffset i : ℕ) (buffer : List UInt8) : List UInt8 :=
  let stamped :=
    if i + stampSize ≤ buffer.length then
      copyTo buffer i (encode stampSize absoluteOffset) else buffer
  (List.range' stampSize (sectorSize - stampSize)).foldl (fillByte absoluteOffset i) stamped

def fillPattern (buffer : List UInt8) (fileStartOffset : ℕ) : List UInt8 :=
  (sectorOffsets buffer.length).foldl
    (fun buf i => fillSector ((fileStartOffset + i) % 2 ^ 64) i buf) buffer

structure Mismatch where
  file : ℕ
  offset : ℕ
  found : ℕ
  expected : ℕ
  deriving DecidableEq

def readStamp (buf : List UInt8) (b : ℕ) : ℕ := decode ((buf.drop b).take stampSize)

/-- The verification loop of the read pass; it breaks where no whole stamp is left. -/
def verify (i chunkSize expected : ℕ) (buf : List UInt8) : List Mismatch :=
  ((sectorOffsets chunkSize).takeWhile (fun b => decide (b + stampSize ≤ buf.length))).filterMap
    (fun b =>
      if readStamp buf b ≠ (expected + b) % 2 ^ 64 then
        some ⟨i, b, readStamp buf b, (expected + b) % 2 ^ 64⟩
      else none)

@[simp] lemma fillByte_length (a i j : ℕ) (buf : List UInt8) :
    (fillByte a i buf j).length = buf.length := by
  unfold fillByte
  split_ifs <;> simp

lemma fillByte_get (a i j k : ℕ) (buf : List UInt8) :
    (fillByte a i buf j)[k]? =
      if k = i + j ∧ k < buf.length then some (patternByte a j) else buf[k]? := by
  unfold fillByte
  by_cases hj : i + j < buf.length
  · rw [if_pos hj]
    rcases eq_or_ne k (i + j) with rfl | hk
    · rw [if_pos ⟨rfl, hj⟩, List.getElem?_set_self hj]
    · rw [if_neg (fun h => hk h.1), List.getElem?_set_ne (Ne.symm hk)]
  · rw [if_neg hj, if_neg (by omega)]

@[simp] lemma fillBytes_length (a i m : ℕ) (buf : List UInt8) :
    ((List.range' stampSize m).foldl (fillByte a i) buf).length = buf.length := by
  induction m with
  | zero => rfl
  | succ m ih => rw [List.range'_concat, List.foldl_append, List.foldl_cons, List.foldl_nil,
      fillByte_length, ih]

lemma fillBytes_get (a i m k : ℕ) (buf : List UInt8) :
    ((List.range' stampSize m).foldl (fillByte a i) buf)[k]? =
      if i + stampSize ≤ k ∧ k < i + stampSize + m ∧ k < buf.length then
        some (patternByte a (k - i))
      else buf[k]? := by
  induction m with
  | zero => rw [if_neg (by omega)]; rfl
  | succ m ih =>
    rw [List.range'_concat, List.foldl_append, List.foldl_cons, List.foldl_nil, fillByte_get, ih,
      fillBytes_length, Nat.one_mul]
    by_cases hk : k = i + (stampSize + m) ∧ k < buf.length
    · have hj : k - i = stampSize + m := by omega
      rw [if_pos hk, if_pos (by omega), hj]
    · rw [if_neg hk]
      congr 1
      simp only [eq_iff_iff]
      omega

/-- What `FillPattern` leaves in a sector it can stamp. -/
def sectorImage (absoluteOffset : ℕ) : List UInt8 :=
  encode stampSize absoluteOffset ++
    (List.range' stampSize (sectorSize - stampSize)).map (patternByte absoluteOffset)

@[simp] lemma sectorImage_length (a : ℕ) : (sectorImage a).length = sectorSize := by
  simp [sectorImage, stampSize, sectorSize]

@[simp] lemma sectorImage_stamp (a : ℕ) : (sectorImage a).take stampSize = encode stampSize a := by
  rw [sectorImage, List.take_left' (encode_length _ _)]

lemma sectorImage_pattern (a : ℕ) {j : ℕ} (hj : stampSize ≤ j) (hn : j < sectorSize) :
    (sectorImage a)[j]? = some (patternByte a j) := by
  rw [sectorImage, List.getElem?_append_right (by simpa using hj), encode_length, List.getElem?_map,
    List.getElem?_range' (by omega)]
  simp only [Option.map_some, Option.some.injEq]
  congr 1
  omega

@[simp] lemma fillSector_length (a i : ℕ) (buf : List UInt8) :
    (fillSector a i buf).length = buf.length := by
  simp only [fillSector, fillBytes_length]
  split_ifs with h
  · exact copyTo_length (by simpa using h)
  · rfl

lemma fillSector_get (a i k : ℕ) (buf : List UInt8) :
    (fillSector a i buf)[k]? =
      if i + stampSize ≤ buf.length ∧ i ≤ k ∧ k < i + sectorSize ∧ k < buf.length then
        (sectorImage a)[k - i]?
      else buf[k]? := by
  have hs : stampSize = 8 := rfl
  have hn : sectorSize = 512 := rfl
  rw [fillSector, fillBytes_get]
  by_cases h : i + stampSize ≤ buf.length
  · have hc : i + (encode stampSize a).length ≤ buf.length := by simpa using h
    rw [if_pos h, copyTo_length hc, copyTo_get hc, encode_length]
    by_cases hk : i ≤ k ∧ k < i + sectorSize ∧ k < buf.length
    · rw [if_pos (c := _ ∧ _) ⟨h, hk⟩]
      rcases lt_or_ge k (i + stampSize) with hb | hb
      · rw [if_neg (by omega), if_pos ⟨hk.1, hb⟩, sectorImage,
          List.getElem?_append_left (by rwa [encode_length, tsub_lt_iff_left hk.1])]
      · rw [if_pos (by omega), sectorImage_pattern a (by omega) (by omega)]
    · rw [if_neg (by omega), if_neg (by omega), if_neg (fun hh => hk hh.2)]
  · rw [if_neg (by rw [if_neg h]; omega), if_neg h, if_neg (fun hh => h hh.1)]

/-- The first `n` rounds of the outer loop of `FillPattern`. -/
def fillSectors (off n : ℕ) (buffer : List UInt8) : List UInt8 :=
  ((List.range n).map (512 * ·)).foldl (fun buf i => fillSector ((off + i) % 2 ^ 64) i buf) buffer

lemma fillSectors_succ (off n : ℕ) (buf : List UInt8) :
    fillSectors off (n + 1) buf =
      fillSector ((off + 512 * n) % 2 ^ 64) (512 * n) (fillSectors off n buf) := by
  simp [fillSectors, List.range_succ]

@[simp] lemma fillSectors_length (off n : ℕ) (buf : List UInt8) :
    (fillSectors off n buf).length = buf.length := by
  induction n with
  | zero => rfl
  | succ n ih => rw [fillSectors_succ, fillSector_length, ih]

lemma fillSectors_get (off n s j : ℕ) (buf : List UInt8) (hj : j < sectorSize) :
    (fillSectors off n buf)[512 * s + j]? =
      if s < n ∧ 512 * s + stampSize ≤ buf.length ∧ 512 * s + j < buf.length then
        (sectorImage ((off + 512 * s) % 2 ^ 64))[j]?
      else buf[512 * s + j]? := by
  have hn : sectorSize = 512 := rfl
  induction n with
  | zero => rw [if_neg (by omega)]; rfl
  | succ n ih =>
    rw [fillSectors_succ, fillSector_get, ih, fillSectors_length]
    rcases eq_or_ne s n with rfl | hs
    · have hd : 512 * s + j - 512 * s = j := by omega
      rw [hd, if_neg (c := s < s ∧ _) (by omega)]
      congr 1
      simp only [eq_iff_iff]
      omega
    · rw [if_neg (c := _ ≤ _ ∧ _) (by omega)]
      congr 1
      simp only [eq_iff_iff]
      omega

@[simp] lemma fillPattern_length (off : ℕ) (buf : List UInt8) :
    (fillPattern buf off).length = buf.length :=
  fillSectors_length off _ buf

lemma fillPattern_block (off s : ℕ) (buf : List UInt8) (hs : 512 * s + stampSize ≤ buf.length) :
    block sectorSize (fillPattern buf off) s =
      (sectorImage ((off + 512 * s) % 2 ^ 64)).take (buf.length - 512 * s) := by
  have hn : sectorSize = 512 := rfl
  have ht : stampSize = 8 := rfl
  apply List.ext_getElem?
  intro j
  rcases lt_or_ge j sectorSize with hj | hj
  · rw [block_get hj, hn]
    change (fillSectors off _ buf)[512 * s + j]? = _
    rw [fillSectors_get _ _ _ _ _ hj]
    rcases lt_or_ge (512 * s + j) buf.length with hb | hb
    · rw [if_pos (by omega), List.getElem?_take_of_lt (by omega)]
    · rw [if_neg (by omega), List.getElem?_eq_none (by omega),
        List.getElem?_eq_none (by simp; omega)]
  · rw [List.getElem?_eq_none (by simp [block]; omega), List.getElem?_eq_none (by simp; omega)]

lemma fillPattern_full_block {m : ℕ} (off s : ℕ) (buf : List UInt8) (hb : buf.length = 512 * m)
    (hs : s < m) :
    block sectorSize (fillPattern buf off) s = sectorImage ((off + 512 * s) % 2 ^ 64) := by
  have hh : 512 * (s + 1) ≤ 512 * m := Nat.mul_le_mul_left 512 hs
  have ht : stampSize = 8 := rfl
  rw [fillPattern_block off s buf (by omega), List.take_of_length_le]
  rw [sectorImage_length]
  change 512 ≤ _
  omega

lemma takeWhile_range (n k : ℕ) :
    (List.range n).takeWhile (fun s => decide (s < k)) = List.range (min n k) := by
  rcases le_total n k with h | h
  · rw [Nat.min_eq_left h, List.takeWhile_eq_self_iff]
    intro s hs
    simpa using (List.mem_range.mp hs).trans_le h
  · obtain ⟨d, rfl⟩ := Nat.exists_eq_add_of_le h
    rw [Nat.min_eq_right h, List.range_add, List.takeWhile_append_of_pos (by simp)]
    cases d <;> simp [List.range_succ_eq_map]

lemma verify_offsets (chunkSize : ℕ) (buf : List UInt8) (hb : buf.length = chunkSize) :
    (sectorOffsets chunkSize).takeWhile (fun b => decide (b + stampSize ≤ buf.length)) =
      (List.range ((chunkSize + 504) / 512)).map (512 * ·) := by
  have hp : (fun b => decide (b + stampSize ≤ buf.length)) ∘ (512 * ·) =
      fun s => decide (s < (chunkSize + 504) / 512) := by
    funext s
    apply decide_eq_decide.mpr
    change 512 * s + 8 ≤ buf.length ↔ s < (chunkSize + 504) / 512
    omega
  rw [sectorOffsets, List.takeWhile_map, hp, takeWhile_range, Nat.min_eq_right (by omega)]

lemma verify_length (i chunkSize e : ℕ) (buf : List UInt8) (hb : buf.length = chunkSize) :
    (verify i chunkSize e buf).length =
      ((Finset.range ((chunkSize + 504) / 512)).filter
        (fun s => readStamp buf (512 * s) ≠ (e + 512 * s) % 2 ^ 64)).card := by
  rw [verify, verify_offsets chunkSize buf hb, List.length_filterMap_eq_countP, List.countP_map,
    List.countP_eq_length_filter, ← List.toFinset_card_of_nodup (List.nodup_range.filter _),
    List.toFinset_filter, List.toFinset_range]
  congr 1
  apply Finset.filter_congr
  intro s _
  rw [Function.comp_apply]
  split_ifs with h
  · exact iff_of_true rfl h
  · exact iff_of_false (by simp) h

lemma readStamp_eq_iff (buf : List UInt8) (b v : ℕ) (hb : b + stampSize ≤ buf.length) :
    readStamp buf b = v % 2 ^ 64 ↔ (buf.drop b).take stampSize = encode stampSize (v % 2 ^ 64) := by
  have hv : decode (encode stampSize (v % 2 ^ 64)) = v % 2 ^ 64 := by
    rw [decode_encode]
    exact Nat.mod_eq_of_lt (Nat.mod_lt _ (by decide))
  constructor
  · intro h
    apply decode_injective
    · simp
      omega
    · rw [hv]
      exact h
  · intro h
    rw [readStamp, h, hv]

end DriveIntegrity.Surface
