import DriveIntegrity.Surface.Scan

/-! How far a clean read pass vouches for the bytes that were written. -/

namespace DriveIntegrity.Surface

open Bytes

/-- Sectors of a buffer read back in which some byte is not the one written there. -/
def damagedSectors (chunkSize i : ℕ) (buf : List UInt8) : Finset ℕ :=
  (Finset.range ((chunkSize + 511) / 512)).filter
    (fun s => block sectorSize buf s ≠ block sectorSize (testBuffer chunkSize i) s)

/-- All damage shows in the stamps: a sector that differs at all differs in its first eight
bytes. -/
def DamageInStamps (chunkSize i : ℕ) (buf : List UInt8) : Prop :=
  ∀ s, block sectorSize buf s ≠ block sectorSize (testBuffer chunkSize i) s →
    512 * s + stampSize ≤ chunkSize ∧
      (block sectorSize buf s).take stampSize ≠
        (block sectorSize (testBuffer chunkSize i) s).take stampSize

lemma block_stamp (buf : List UInt8) (s : ℕ) :
    (block sectorSize buf s).take stampSize = (buf.drop (512 * s)).take stampSize := by
  rw [block, List.take_take]
  rfl

lemma testBuffer_stamp (chunkSize i s : ℕ) (hs : 512 * s + stampSize ≤ chunkSize) :
    (block sectorSize (testBuffer chunkSize i) s).take stampSize =
      encode stampSize ((fileOffset chunkSize i + 512 * s) % 2 ^ 64) := by
  have hl : stampSize ≤ chunkSize - 512 * s := by omega
  rw [testBuffer, fillPattern_block _ _ _ (by simpa using hs), List.take_take,
    List.length_replicate, Nat.min_eq_left hl, sectorImage_stamp]

lemma testBuffer_readStamp (chunkSize i s : ℕ) (hs : 512 * s + stampSize ≤ chunkSize) :
    readStamp (testBuffer chunkSize i) (512 * s) = (fileOffset chunkSize i + 512 * s) % 2 ^ 64 := by
  rw [readStamp_eq_iff _ _ _ (by rw [testBuffer_length]; exact hs), ← block_stamp,
    testBuffer_stamp _ _ _ hs]

lemma readStamp_ne_iff {chunkSize : ℕ} (i s : ℕ) {buf : List UInt8} (hb : buf.length = chunkSize)
    (hs : 512 * s + stampSize ≤ chunkSize) :
    readStamp buf (512 * s) ≠ (fileOffset chunkSize i + 512 * s) % 2 ^ 64 ↔
      (block sectorSize buf s).take stampSize ≠
        (block sectorSize (testBuffer chunkSize i) s).take stampSize := by
  rw [ne_eq, ne_eq, readStamp_eq_iff _ _ _ (by omega), block_stamp, testBuffer_stamp _ _ _ hs]

lemma block_eq_nil {n s : ℕ} {buf : List UInt8} (h : buf.length ≤ n * s) : block n buf s = [] := by
  rw [block, List.drop_eq_nil_of_le h, List.take_nil]

lemma mem_damagedSectors (chunkSize i s : ℕ) (buf : List UInt8) (hb : buf.length = chunkSize) :
    s ∈ damagedSectors chunkSize i buf ↔
      block sectorSize buf s ≠ block sectorSize (testBuffer chunkSize i) s := by
  simp only [damagedSectors, Finset.mem_filter, Finset.mem_range, and_iff_right_iff_imp]
  intro h
  by_contra hs
  have hn : chunkSize ≤ sectorSize * s := by
    change chunkSize ≤ 512 * s
    omega
  exact h (by rw [block_eq_nil (by omega), block_eq_nil (by simpa using hn)])

lemma mismatches_cover_iff (chunkSize i : ℕ) (buf : List UInt8) (hb : buf.length = chunkSize) :
    (damagedSectors chunkSize i buf).card ≤
        (verify i chunkSize (fileOffset chunkSize i) buf).length ↔
      DamageInStamps chunkSize i buf := by
  rw [verify_length _ _ _ _ hb]
  set seen := (Finset.range ((chunkSize + 504) / 512)).filter
    (fun s => readStamp buf (512 * s) ≠ (fileOffset chunkSize i + 512 * s) % 2 ^ 64) with hseen
  have ht : stampSize = 8 := rfl
  have hmem : ∀ s, s ∈ seen ↔ 512 * s + stampSize ≤ chunkSize ∧
      (block sectorSize buf s).take stampSize ≠
        (block sectorSize (testBuffer chunkSize i) s).take stampSize := by
    intro s
    rw [hseen, Finset.mem_filter, Finset.mem_range]
    constructor
    · rintro ⟨hs, h⟩
      have hs' : 512 * s + stampSize ≤ chunkSize := by omega
      exact ⟨hs', (readStamp_ne_iff i s hb hs').mp h⟩
    · rintro ⟨hs, h⟩
      exact ⟨by omega, (readStamp_ne_iff i s hb hs).mpr h⟩
  have hsub : seen ⊆ damagedSectors chunkSize i buf := by
    intro s hs
    rw [mem_damagedSectors _ _ _ _ hb]
    intro h
    exact ((hmem s).mp hs).2 (by rw [h])
  constructor
  · intro hc s hs
    rw [← hmem, Finset.eq_of_subset_of_card_le hsub hc]
    exact (mem_damagedSectors _ _ _ _ hb).mpr hs
  · intro h
    apply Finset.card_le_card
    intro s hs
    exact (hmem s).mpr (h s ((mem_damagedSectors _ _ _ _ hb).mp hs))

lemma damageInStamps_testBuffer (chunkSize i : ℕ) :
    DamageInStamps chunkSize i (testBuffer chunkSize i) :=
  fun _ h => (h rfl).elim

lemma mismatchCount_testBuffer (chunkSize i : ℕ) :
    mismatchCount chunkSize (i, testBuffer chunkSize i) = 0 := by
  have hlen := testBuffer_length chunkSize i
  rw [mismatchCount, verify_length _ _ _ _ hlen, Finset.card_eq_zero, Finset.filter_eq_empty_iff]
  intro s hs
  have hs' : 512 * s + stampSize ≤ chunkSize := by
    have := Finset.mem_range.mp hs
    change 512 * s + 8 ≤ chunkSize
    omega
  exact not_not_intro (testBuffer_readStamp chunkSize i s hs')

lemma clean_run {σ : Type} (S : Storage σ) (chunkSize totalFiles : ℕ) (disk : σ)
    (hn : totalFiles * ((chunkSize + 504) / 512 + 1) < 2 ^ 32)
    (he : (surfaceScan S chunkSize totalFiles disk).errors = 0) :
    errorCount S chunkSize totalFiles disk = 0 := by
  have hc := errorCount_le S chunkSize totalFiles disk
  rw [surfaceScan_errors] at he
  have ht := congrArg BitVec.toNat he
  rw [BitVec.toNat_ofNat, Nat.mod_eq_of_lt (by omega)] at ht
  exact ht

lemma clean_buffer {chunkSize : ℕ} {p : ℕ × List UInt8} (hp : p.2.length = chunkSize)
    (hd : DamageInStamps chunkSize p.1 p.2) (hc : mismatchCount chunkSize p = 0) :
    p.2 = testBuffer chunkSize p.1 := by
  have hs := (mismatches_cover_iff chunkSize p.1 p.2 hp).mpr hd
  have h0 : damagedSectors chunkSize p.1 p.2 = ∅ :=
    Finset.card_eq_zero.mp (Nat.le_zero.mp (hs.trans hc.le))
  apply eq_of_blocks (n := sectorSize) (by decide)
  intro s
  by_contra h
  have hm := (mem_damagedSectors chunkSize p.1 s p.2 hp).mpr h
  simp [h0] at hm

def runBuffers {σ : Type} (S : Storage σ) (chunkSize totalFiles : ℕ) (disk : σ) :
    List (ℕ × List UInt8) :=
  buffersRead S chunkSize (writePass S chunkSize totalFiles ⟨disk, 0, [], []⟩).disk
    (fileNumbers totalFiles)

theorem content_soundness {σ : Type} (S : Storage σ) (chunkSize totalFiles : ℕ) (disk : σ) :
    (∀ (i : ℕ) (buf : List UInt8), buf.length = chunkSize →
      ((damagedSectors chunkSize i buf).card ≤
          (verify i chunkSize (fileOffset chunkSize i) buf).length ↔
        DamageInStamps chunkSize i buf)) ∧
    (totalFiles * ((chunkSize + 504) / 512 + 1) < 2 ^ 32 →
      (∀ p ∈ runBuffers S chunkSize totalFiles disk, DamageInStamps chunkSize p.1 p.2) →
      (surfaceScan S chunkSize totalFiles disk).errors = 0 →
      ∀ p ∈ runBuffers S chunkSize totalFiles disk, p.2 = testBuffer chunkSize p.1) := by
  refine ⟨mismatches_cover_iff chunkSize, ?_⟩
  intro hn hd he p hp
  have hc := clean_run S chunkSize totalFiles disk hn he
  have hs := (Nat.add_eq_zero_iff.mp hc).2
  have h0 := List.sum_eq_zero_iff.mp hs (mismatchCount chunkSize p) (List.mem_map_of_mem hp)
  exact clean_buffer (buffer_length S chunkSize _ _ p hp) (hd p hp) h0

/-- A drive that gives back what was last written to each file. -/
def keepingStorage : Storage (ℕ → List UInt8) where
  createFile d _ := (d, true)
  writeFile d i data := Function.update d i data
  openFile d _ := (d, true)
  readFile d i _ := (d, d i)
  deleteFile d i := Function.update d i []
  readTime _ _ := 1

/-- The first file's sector with a flipped byte in its stamp -/
def stampDamage : List UInt8 := (testBuffer 512 1).set 0 255

lemma stampDamage_length : stampDamage.length = 512 := by
  rw [stampDamage, List.length_set, testBuffer_length]

lemma stampDamage_stamp : (block sectorSize stampDamage 0).take stampSize ≠
    (block sectorSize (testBuffer 512 1) 0).take stampSize := by
  rw [block_stamp, testBuffer_stamp _ _ _ (by decide), stampDamage, Nat.mul_zero, List.drop_zero,
    List.take_set]
  intro h
  have hfirst := congrArg (·[0]?) h
  rw [List.getElem?_set_self (by simp; decide)] at hfirst
  revert hfirst
  decide

lemma stampDamage_shows : DamageInStamps 512 1 stampDamage := by
  intro s hs
  rcases Nat.eq_zero_or_pos s with rfl | hpos
  · exact ⟨by decide, stampDamage_stamp⟩
  · have hend : 512 ≤ sectorSize * s := Nat.le_mul_of_pos_right 512 hpos
    refine absurd ?_ hs
    rw [block_eq_nil (stampDamage_length.trans_le hend),
      block_eq_nil ((testBuffer_length 512 1).trans_le hend)]

lemma stampDamage_damaged : 0 ∈ damagedSectors 512 1 stampDamage :=
  (mem_damagedSectors 512 1 0 _ stampDamage_length).mpr fun h =>
    stampDamage_stamp (congrArg (List.take stampSize) h)

lemma keepingStorage_buffers :
    runBuffers keepingStorage 512 2 (fun _ => []) =
      [(1, testBuffer 512 1), (2, testBuffer 512 2)] := by
  have hread (i : ℕ) : readBuffer 512 ((testBuffer 512 i).take (dword 512)) = testBuffer 512 i := by
    have hfull : dword 512 = 512 := rfl
    rw [hfull, List.take_of_length_le (testBuffer_length 512 i).le,
      readBuffer_full _ (testBuffer_length 512 i) rfl]
  simp [runBuffers, writePass, fileNumbers, List.range'_succ, writeStep, buffersRead,
    keepingStorage, hread]

lemma keepingStorage_clean : (surfaceScan keepingStorage 512 2 fun _ => []).errors = 0 := by
  have hread := keepingStorage_buffers
  rw [runBuffers] at hread
  rw [surfaceScan_errors, errorCount, hread, List.map_cons, List.map_cons, List.map_nil,
    mismatchCount_testBuffer, mismatchCount_testBuffer]
  rfl

theorem content_soundness_first_file :
    (0 ∈ damagedSectors 512 1 stampDamage ∧
      (damagedSectors 512 1 stampDamage).card ≤
        (verify 1 512 (fileOffset 512 1) stampDamage).length) ∧
      ∀ p ∈ runBuffers keepingStorage 512 2 (fun _ => []), p.2 = testBuffer 512 p.1 := by
  obtain ⟨hsectors, hrun⟩ := content_soundness keepingStorage 512 2 fun _ => []
  refine ⟨⟨stampDamage_damaged, (hsectors 1 stampDamage stampDamage_length).mpr stampDamage_shows⟩,
    hrun (by norm_num) (fun p hp => ?_) keepingStorage_clean⟩
  rw [keepingStorage_buffers] at hp
  rcases List.mem_pair.mp hp with rfl | rfl
  · dsimp only
    exact damageInStamps_testBuffer 512 1
  · dsimp only
    exact damageInStamps_testBuffer 512 2

/-- The first file's sector with one flipped byte behind its stamp. -/
def patternDamage : List UInt8 := (testBuffer 512 1).set 8 255

lemma patternDamage_length : patternDamage.length = 512 := by
  rw [patternDamage, List.length_set, testBuffer_length]

lemma patternDamage_ne :
    block sectorSize patternDamage 0 ≠ block sectorSize (testBuffer 512 1) 0 := by
  intro h
  have hw : (block sectorSize (testBuffer 512 1) 0)[8]? = some 8 := by
    rw [testBuffer, fillPattern_full_block (m := 1) _ _ _ List.length_replicate (by decide),
      sectorImage_pattern _ (by decide) (by decide)]
    decide
  rw [← h, block_get (by decide), patternDamage, Nat.mul_zero, Nat.zero_add,
    List.getElem?_set_self (by simp)] at hw
  revert hw
  decide

theorem pattern_damage_uncounted :
    ¬ ∀ (chunkSize i : ℕ) (buf : List UInt8), buf.length = chunkSize →
      (damagedSectors chunkSize i buf).card ≤
        (verify i chunkSize (fileOffset chunkSize i) buf).length := by
  intro h
  have hh := h 512 1 patternDamage patternDamage_length
  have hs :=
    (mismatches_cover_iff 512 1 patternDamage patternDamage_length).mp hh 0 patternDamage_ne
  apply hs.2
  rw [block_stamp, block_stamp, patternDamage]
  generalize testBuffer 512 1 = l
  rw [Nat.mul_zero, List.drop_zero, List.drop_zero, List.take_set]
  exact List.set_eq_of_length_le (List.length_take_le 8 l)

end DriveIntegrity.Surface
