import DriveIntegrity.Library.SharedCells
import DriveIntegrity.Surface.Scan

/-! Detection of drives that hold fewer sectors than they advertise. -/

namespace DriveIntegrity.Surface

open Bytes

def sectorsPerFile (chunkSize : ℕ) : ℕ := chunkSize / 512

def sectorCount (chunkSize totalFiles : ℕ) : ℕ := totalFiles * sectorsPerFile chunkSize

structure Succeeds {σ : Type} (S : Storage σ) : Prop where
  create : ∀ d i, (S.createFile d i).2 = true
  openRead : ∀ d i, (S.openFile d i).2 = true

def sectorsRead {σ : Type} (S : Storage σ) (chunkSize totalFiles : ℕ) (disk : σ) :
    List (List UInt8) :=
  (buffersRead S chunkSize (writePass S chunkSize totalFiles ⟨disk, 0, [], []⟩).disk
    (fileNumbers totalFiles)).flatMap
      (fun p => (List.range (sectorsPerFile chunkSize)).map (block sectorSize p.2))

/-- A drive that maps logical sectors by `f` and keeps the last write to each physical one. -/
def mappedStorage {P : Type} [DecidableEq P] (chunkSize : ℕ) (f : ℕ → P) (time : ℕ → ℚ) :
    Storage (P → List UInt8) where
  createFile d _ := (d, true)
  writeFile d i data :=
    SharedCells.store (fun s => f ((i - 1) * sectorsPerFile chunkSize + s)) (block sectorSize data)
      (List.range (data.length / 512)) d
  openFile d _ := (d, true)
  readFile d i n :=
    (d, ((List.range (n / 512)).map
      (fun s => d (f ((i - 1) * sectorsPerFile chunkSize + s)))).flatten)
  deleteFile d _ := d
  readTime _ i := time i

/-- Test sectors as pairs of a file and a sector in it, both counted from 0. -/
def sectorPairs (m totalFiles : ℕ) : List (ℕ × ℕ) :=
  (List.range totalFiles).flatMap (fun k => (List.range m).map (fun s => (k, s)))

def logicalSector (m : ℕ) (p : ℕ × ℕ) : ℕ := p.1 * m + p.2

def expectedStamp (m : ℕ) (p : ℕ × ℕ) : ℕ := (fileOffset (512 * m) (p.1 + 1) + 512 * p.2) % 2 ^ 64

def stampOf (content : List UInt8) : ℕ := decode (content.take stampSize)

lemma sectorPairs_toFinset (m n : ℕ) :
    (sectorPairs m n).toFinset = Finset.range n ×ˢ Finset.range m := by
  ext ⟨k, s⟩
  simp [sectorPairs]

lemma sectorPairs_succ (m n : ℕ) :
    sectorPairs m (n + 1) = sectorPairs m n ++ (List.range m).map (fun s => (n, s)) := by
  simp [sectorPairs, List.range_succ]

lemma logicalSector_injective (m : ℕ) (s : Set (ℕ × ℕ)) (hs : ∀ p ∈ s, p.2 < m) :
    Set.InjOn (logicalSector m) s := by
  rintro ⟨k, a⟩ hp ⟨l, b⟩ hq h
  have ha : a < m := hs _ hp
  have hb : b < m := hs _ hq
  simp only [logicalSector] at h
  have hk : k = l := by
    have hh := congrArg (· / m) h
    simpa [Nat.add_comm, Nat.add_mul_div_right, Nat.div_eq_of_lt ha, Nat.div_eq_of_lt hb,
      Nat.zero_lt_of_lt ha] using hh
  rw [hk] at h ⊢
  rw [Nat.add_left_cancel h]

lemma logicalSector_image (m n : ℕ) :
    (Finset.range n ×ˢ Finset.range m).image (logicalSector m) = Finset.range (n * m) := by
  ext l
  simp only [Finset.mem_image, Finset.mem_product, Finset.mem_range, Prod.exists, logicalSector]
  constructor
  · rintro ⟨k, s, ⟨hk, hs⟩, rfl⟩
    calc k * m + s < k * m + m := by omega
      _ = (k + 1) * m := by ring
      _ ≤ n * m := Nat.mul_le_mul_right m hk
  · intro hl
    have hm : 0 < m := Nat.pos_of_ne_zero (by rintro rfl; simp at hl)
    exact ⟨l / m, l % m, ⟨Nat.div_lt_of_lt_mul (by rwa [Nat.mul_comm] at hl), Nat.mod_lt _ hm⟩,
      by rw [Nat.mul_comm]; exact Nat.div_add_mod l m⟩

lemma expectedStamp_eq {m n : ℕ} (hn : n * m < 2 ^ 31) {p : ℕ × ℕ}
    (hp : p ∈ Finset.range n ×ˢ Finset.range m) : expectedStamp m p = 512 * logicalSector m p := by
  have hl : logicalSector m p < n * m := by
    have hh := Finset.mem_image_of_mem (logicalSector m) hp
    rwa [logicalSector_image, Finset.mem_range] at hh
  have he : p.1 * (512 * m) + 512 * p.2 = 512 * logicalSector m p := by
    simp only [logicalSector]
    ring
  rw [expectedStamp, fileOffset, Nat.mod_add_mod, Nat.add_sub_cancel, he]
  exact Nat.mod_eq_of_lt (by omega)

lemma expectedStamp_injective {m n : ℕ} (hn : n * m < 2 ^ 31) :
    Set.InjOn (expectedStamp m) (Finset.range n ×ˢ Finset.range m : Finset (ℕ × ℕ)) := by
  intro p hp q hq h
  rw [expectedStamp_eq hn hp, expectedStamp_eq hn hq] at h
  refine logicalSector_injective m _ ?_ hp hq (by omega)
  intro r hr
  exact Finset.mem_range.mp (Finset.mem_product.mp hr).2

lemma mismatchCount_eq (m k : ℕ) (buf : List UInt8) (hb : buf.length = 512 * m) :
    mismatchCount (512 * m) (k + 1, buf) =
      ((Finset.range m).filter
        (fun s => stampOf (block sectorSize buf s) ≠ expectedStamp m (k, s))).card := by
  have hm : (512 * m + 504) / 512 = m := by omega
  rw [mismatchCount, verify_length _ _ _ _ hb, hm]
  congr 1
  apply Finset.filter_congr
  intro s _
  rw [stampOf, readStamp, block, List.take_take]
  rfl

lemma mismatches_add_recognised (m n : ℕ) (content : ℕ → List UInt8)
    (hb : ∀ k, (content k).length = 512 * m) :
    (((List.range n).map (fun k => (k + 1, content k))).map (mismatchCount (512 * m))).sum +
      ((Finset.range n ×ˢ Finset.range m).filter
        (fun p => stampOf (block sectorSize (content p.1) p.2) = expectedStamp m p)).card =
          n * m := by
  have hsum :
      (((List.range n).map (fun k => (k + 1, content k))).map (mismatchCount (512 * m))).sum =
      ((Finset.range n ×ˢ Finset.range m).filter
        (fun p => ¬ stampOf (block sectorSize (content p.1) p.2) = expectedStamp m p)).card := by
    rw [Finset.card_filter, Finset.sum_product, List.map_map]
    change ∑ k ∈ Finset.range n, mismatchCount (512 * m) (k + 1, content k) = _
    apply Finset.sum_congr rfl
    intro k _
    rw [mismatchCount_eq m k _ (hb k), Finset.card_filter]
  rw [hsum, Nat.add_comm, Finset.card_filter_add_card_filter_not, Finset.card_product,
    Finset.card_range, Finset.card_range]

lemma fileNumbers_eq (n : ℕ) : fileNumbers n = (List.range n).map (· + 1) := by
  rw [fileNumbers, List.range'_eq_map_range]
  simp only [Nat.add_comm]

lemma fileNumbers_succ (n : ℕ) : fileNumbers (n + 1) = fileNumbers n ++ [n + 1] := by
  rw [fileNumbers, List.range'_concat, Nat.one_mul, Nat.add_comm]
  rfl

lemma buffersRead_of_succeeds {σ : Type} (S : Storage σ) (hS : Succeeds S) (chunkSize : ℕ) (d : σ)
    (is : List ℕ) (hn : is.Nodup) :
    ∃ content : ℕ → List UInt8, (∀ k, (content k).length = chunkSize) ∧
      buffersRead S chunkSize d is = is.map (fun i => (i, content i)) := by
  induction is generalizing d with
  | nil => exact ⟨fun _ => List.replicate chunkSize 0, by simp, rfl⟩
  | cons i is ih =>
    obtain ⟨hi, hn⟩ := List.nodup_cons.mp hn
    simp only [buffersRead, hS.openRead, if_true]
    obtain ⟨content, hl, hc⟩ := ih
      (S.deleteFile (S.readFile (S.openFile d i).1 i (dword chunkSize)).1 i) hn
    refine ⟨Function.update content i
      (readBuffer chunkSize (S.readFile (S.openFile d i).1 i (dword chunkSize)).2), ?_, ?_⟩
    · intro k
      by_cases hk : k = i
      · rw [hk, Function.update_self, readBuffer_length]
      · rw [Function.update_of_ne hk, hl]
    · rw [hc, List.map_cons, Function.update_self]
      congr 1
      apply List.map_congr_left
      intro j hj
      rw [Function.update_of_ne (by rintro rfl; exact hi hj)]

lemma createFailures_of_succeeds {σ : Type} (S : Storage σ) (hS : Succeeds S)
    (chunkSize : ℕ) (d : σ) (is : List ℕ) : createFailures S chunkSize d is = 0 := by
  induction is generalizing d with
  | nil => rfl
  | cons i is ih => simpa only [createFailures, hS.create, if_true] using ih _

lemma succeeding_run {σ : Type} (S : Storage σ) (hS : Succeeds S) (m n : ℕ) (disk : σ)
    (hn : n * m < 2 ^ 31) :
    ∃ content : ℕ → List UInt8, (∀ k, (content k).length = 512 * m) ∧
      buffersRead S (512 * m) (writePass S (512 * m) n ⟨disk, 0, [], []⟩).disk (fileNumbers n) =
        (List.range n).map (fun k => (k + 1, content k)) ∧
      (surfaceScan S (512 * m) n disk).errors.toInt = (n * m : ℕ) -
        ((Finset.range n ×ˢ Finset.range m).filter
          (fun p => stampOf (block sectorSize (content p.1) p.2) = expectedStamp m p)).card := by
  obtain ⟨content, hl, hc⟩ := buffersRead_of_succeeds S hS (512 * m)
    (writePass S (512 * m) n ⟨disk, 0, [], []⟩).disk (fileNumbers n)
    (by simp [fileNumbers, List.nodup_range'])
  have hm := mismatches_add_recognised m n (fun k => content (k + 1)) (fun k => hl (k + 1))
  have hb :
      buffersRead S (512 * m) (writePass S (512 * m) n ⟨disk, 0, [], []⟩).disk (fileNumbers n) =
      (List.range n).map (fun k => (k + 1, content (k + 1))) := by
    rw [hc, fileNumbers_eq, List.map_map]
    rfl
  have he : errorCount S (512 * m) n disk =
      (((List.range n).map (fun k => (k + 1, content (k + 1)))).map
        (mismatchCount (512 * m))).sum := by
    rw [errorCount, createFailures_of_succeeds S hS, Nat.zero_add, hb]
  refine ⟨fun k => content (k + 1), fun k => hl (k + 1), hb, ?_⟩
  rw [surfaceScan_errors, errors_toInt (by omega), he]
  dsimp only
  omega

lemma few_contents {σ : Type} (S : Storage σ) (hS : Succeeds S) (m n K : ℕ) (disk : σ)
    (hn : n * m < 2 ^ 31) (hK : (sectorsRead S (512 * m) n disk).toFinset.card ≤ K) :
    ((n * m : ℕ) : ℤ) - K ≤ (surfaceScan S (512 * m) n disk).errors.toInt := by
  obtain ⟨content, _, hb, he⟩ := succeeding_run S hS m n disk hn
  have hm : sectorsPerFile (512 * m) = m := by simp [sectorsPerFile]
  have himage : (Finset.range n ×ˢ Finset.range m).image
      (fun p => block sectorSize (content p.1) p.2) =
        (sectorsRead S (512 * m) n disk).toFinset := by
    rw [sectorsRead, hb, hm, List.flatMap_map]
    ext c
    simp only [Finset.mem_image, Finset.mem_product, Finset.mem_range, Prod.exists,
      List.mem_toFinset, List.mem_flatMap, List.mem_range, List.mem_map]
    constructor
    · rintro ⟨k, s, ⟨hk, hs⟩, h⟩
      exact ⟨k, hk, s, hs, h⟩
    · rintro ⟨k, hk, s, hs, h⟩
      exact ⟨k, s, ⟨hk, hs⟩, h⟩
  have hr := SharedCells.recognised_le stampOf (expectedStamp m)
    (fun p => block sectorSize (content p.1) p.2) (Finset.range n ×ˢ Finset.range m)
    (expectedStamp_injective hn)
  rw [himage] at hr
  rw [he]
  omega

section Mapped

variable {P : Type} (m : ℕ) (f : ℕ → P) (time : ℕ → ℚ)

def mappedBytes (d : P → List UInt8) (i : ℕ) : List UInt8 :=
  ((List.range m).map (fun s => d (f ((i - 1) * m + s)))).flatten

lemma mapped_block (d : P → List UInt8) (hd : dword (512 * m) = 512 * m) (k : ℕ)
    (hl : ∀ s < m, (d (f (k * m + s))).length = sectorSize) {s : ℕ} (hs : s < m) :
    block sectorSize (readBuffer (512 * m) (mappedBytes m f d (k + 1))) s = d (f (k * m + s)) := by
  have hb : ∀ c ∈ (List.range m).map (fun s => d (f (k * m + s))), c.length = sectorSize := by
    intro c hc
    obtain ⟨s, hs, rfl⟩ := List.mem_map.mp hc
    exact hl s (List.mem_range.mp hs)
  have hf : (mappedBytes m f d (k + 1)).length = 512 * m := by
    rw [mappedBytes, Nat.add_sub_cancel, List.length_flatten, List.map_congr_left hb,
      List.map_const',
      List.sum_replicate, smul_eq_mul, List.length_map, List.length_range, Nat.mul_comm]
    rfl
  rw [readBuffer_full _ hf hd, mappedBytes, Nat.add_sub_cancel,
    block_flatten _ hb (by simpa using hs)]
  simp

variable [DecidableEq P]

lemma mapped_succeeds (chunkSize : ℕ) : Succeeds (mappedStorage chunkSize f time) :=
  ⟨fun _ _ => rfl, fun _ _ => rfl⟩

def writtenSector (p : ℕ × ℕ) : List UInt8 := sectorImage (expectedStamp m p)

lemma mapped_write (d : P → List UInt8) (k : ℕ) :
    SharedCells.store (fun s => f (k * m + s)) (block sectorSize (testBuffer (512 * m) (k + 1)))
      (List.range m) d =
    SharedCells.store (fun p => f (logicalSector m p)) (writtenSector m)
      ((List.range m).map (fun s => (k, s))) d := by
  rw [SharedCells.store, SharedCells.store, List.foldl_map]
  apply List.foldl_ext
  intro r s hs
  rw [testBuffer,
    fillPattern_full_block (m := m) _ _ _ List.length_replicate (List.mem_range.mp hs)]
  rfl

lemma mapped_writePass (n : ℕ) (mem : P → List UInt8) (hd : dword (512 * m) = 512 * m) :
    (writePass (mappedStorage (512 * m) f time) (512 * m) n ⟨mem, 0, [], []⟩).disk =
      SharedCells.store (fun p => f (logicalSector m p)) (writtenSector m)
        (sectorPairs m n) mem := by
  have hm : sectorsPerFile (512 * m) = m := by simp [sectorsPerFile]
  have hl : (512 * m) / 512 = m := by omega
  induction n with
  | zero => rfl
  | succ n ih =>
    rw [writePass, fileNumbers_succ, List.foldl_append, List.foldl_cons, List.foldl_nil,
      sectorPairs_succ, SharedCells.store_append, ← mapped_write, ← ih, writePass]
    simp only [writeStep, mappedStorage, if_true, hd, hm]
    rw [List.take_of_length_le (by simp), testBuffer_length, hl, Nat.add_sub_cancel]

lemma writtenSector_stamp (p : ℕ × ℕ) :
    stampOf (writtenSector m p) = expectedStamp m p := by
  rw [stampOf, writtenSector, sectorImage_stamp, decode_encode, expectedStamp]
  exact Nat.mod_mod_of_dvd _ (dvd_refl _)

lemma mapped_buffers (d : P → List UInt8) (hd : dword (512 * m) = 512 * m) (is : List ℕ) :
    buffersRead (mappedStorage (512 * m) f time) (512 * m) d is =
      is.map (fun i => (i, readBuffer (512 * m) (mappedBytes m f d i))) := by
  have hm : sectorsPerFile (512 * m) = m := by simp [sectorsPerFile]
  have hl : (512 * m) / 512 = m := by omega
  induction is with
  | nil => rfl
  | cons i is ih =>
    rw [List.map_cons, ← ih]
    simp only [buffersRead, mappedStorage, if_true, hd, hm, hl, mappedBytes]

lemma mapped_errors (n : ℕ) (mem : P → List UInt8) (hn : n * m < 2 ^ 31)
    (hd : dword (512 * m) = 512 * m) :
    (surfaceScan (mappedStorage (512 * m) f time) (512 * m) n mem).errors.toInt =
      (n * m : ℕ) - ((Finset.range (n * m)).image f).card := by
  obtain ⟨content, _, hb, he⟩ := succeeding_run (mappedStorage (512 * m) f time)
    (mapped_succeeds f time _) m n mem hn
  rw [mapped_writePass m f time n mem hd, mapped_buffers m f time _ hd,
    fileNumbers_eq, List.map_map, List.map_inj_left] at hb
  set d := SharedCells.store (fun p => f (logicalSector m p)) (writtenSector m)
    (sectorPairs m n) mem
  have hp : ∀ p ∈ Finset.range n ×ˢ Finset.range m, p ∈ sectorPairs m n := by
    intro p hp
    rwa [← List.mem_toFinset, sectorPairs_toFinset]
  have hlen : ∀ p ∈ Finset.range n ×ˢ Finset.range m,
      (d (f (logicalSector m p))).length = sectorSize := by
    intro p hp'
    obtain ⟨q, _, _, hq⟩ :=
      SharedCells.last_writer (fun p => f (logicalSector m p)) (writtenSector m)
      (sectorPairs m n) mem (hp p hp')
    change d (f (logicalSector m p)) = writtenSector m q at hq
    rw [hq, writtenSector, sectorImage_length]
  have hblock : ∀ p ∈ Finset.range n ×ˢ Finset.range m,
      block sectorSize (content p.1) p.2 = d (f (logicalSector m p)) := by
    rintro ⟨k, s⟩ hks
    obtain ⟨hk, hs⟩ := Finset.mem_product.mp hks
    have hc : readBuffer (512 * m) (mappedBytes m f d (k + 1)) = content k :=
      congrArg Prod.snd (hb k (List.mem_range.mpr (Finset.mem_range.mp hk)))
    rw [← hc]
    exact mapped_block m f d hd k
      (fun t ht => hlen (k, t) (Finset.mem_product.mpr ⟨hk, Finset.mem_range.mpr ht⟩))
      (Finset.mem_range.mp hs)
  have hcount :=
    SharedCells.recognised_store stampOf (expectedStamp m) (fun p => f (logicalSector m p))
    (writtenSector m) (sectorPairs m n) mem (fun p _ => writtenSector_stamp m p)
    (by rw [sectorPairs_toFinset]; exact expectedStamp_injective hn)
  have himage : (Finset.range n ×ˢ Finset.range m).image (fun p => f (logicalSector m p)) =
      (Finset.range (n * m)).image f := by
    rw [← logicalSector_image, Finset.image_image]
    rfl
  rw [sectorPairs_toFinset, himage] at hcount
  rw [he, ← hcount]
  congr 3
  apply Finset.filter_congr
  intro p hp'
  rw [hblock p hp']

end Mapped

theorem capacity_detection (chunkSize totalFiles : ℕ) (hsector : 512 ∣ chunkSize)
    (hN : sectorCount chunkSize totalFiles < 2 ^ 31) :
    (∀ (σ : Type) (S : Storage σ) (disk : σ) (K : ℕ), Succeeds S →
      (sectorsRead S chunkSize totalFiles disk).toFinset.card ≤ K →
      (sectorCount chunkSize totalFiles : ℤ) - K ≤
        (surfaceScan S chunkSize totalFiles disk).errors.toInt) ∧
    (∀ (P : Type) [DecidableEq P] (f : ℕ → P) (time : ℕ → ℚ) (mem : P → List UInt8),
      dword chunkSize = chunkSize →
      (surfaceScan (mappedStorage chunkSize f time) chunkSize totalFiles mem).errors.toInt =
        sectorCount chunkSize totalFiles -
          ((Finset.range (sectorCount chunkSize totalFiles)).image f).card ∧
      (Set.InjOn f (Finset.range (sectorCount chunkSize totalFiles)) →
        (surfaceScan (mappedStorage chunkSize f time) chunkSize totalFiles mem).errors = 0)) := by
  obtain ⟨m, rfl⟩ := hsector
  have hm : sectorCount (512 * m) totalFiles = totalFiles * m := by
    simp [sectorCount, sectorsPerFile]
  rw [hm] at hN ⊢
  refine ⟨fun σ S disk K hS hK => few_contents S hS m totalFiles K disk hN hK, ?_⟩
  intro P _ f time mem hd
  have he := mapped_errors m f time totalFiles mem hN hd
  refine ⟨he, fun hf => ?_⟩
  rw [Finset.card_image_of_injOn hf, Finset.card_range, sub_self] at he
  exact BitVec.eq_of_toInt_eq he

theorem capacity_detection_two_of_four :
    (surfaceScan (mappedStorage 1024 (fun s => s % 2) (fun _ => 1)) 1024 2
      (fun _ => [])).errors.toInt = 2 ∧
    (surfaceScan (mappedStorage 1024 (fun s => s) (fun _ => 1)) 1024 2 (fun _ => [])).errors = 0 :=
  ⟨((capacity_detection 1024 2 (by decide) (by decide)).2 ℕ (fun s => s % 2)
    (fun _ => 1) (fun _ => [])
      (by decide)).1.trans (by decide),
    ((capacity_detection 1024 2 (by decide) (by decide)).2 ℕ (fun s => s) (fun _ => 1) (fun _ => [])
      (by decide)).2 (fun _ _ _ _ h => h)⟩

end DriveIntegrity.Surface
