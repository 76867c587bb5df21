import DriveIntegrity.Surface.Pattern

/-! The write pass and the read pass of `surface_scan` over an arbitrary storage. -/

namespace DriveIntegrity.Surface

open Bytes

/-- The file calls of the scan on `i.h2w`; a `false` handle is `INVALID_HANDLE_VALUE`. -/
structure Storage (σ : Type) where
  createFile : σ → ℕ → σ × Bool
  writeFile : σ → ℕ → List UInt8 → σ
  openFile : σ → ℕ → σ × Bool
  readFile : σ → ℕ → ℕ → σ × List UInt8
  deleteFile : σ → ℕ → σ
  /-- Seconds that the read of file `i` takes. -/
  readTime : σ → ℕ → ℚ

def dword (n : ℕ) : ℕ := n % 2 ^ 32

def fileOffset (chunkSize i : ℕ) : ℕ := (i - 1) * chunkSize % 2 ^ 64

structure ScanState (σ : Type) where
  disk : σ
  /-- A C++ `int`. -/
  errors : BitVec 32
  rSpeeds : List ℚ
  errorLog : List Mismatch

/-- The zeroed buffer after `FillPattern`. -/
def testBuffer (chunkSize i : ℕ) : List UInt8 :=
  fillPattern (List.replicate chunkSize 0) (fileOffset chunkSize i)

/-- The zeroed buffer after `ReadFile` transferred `bytes`. -/
def readBuffer (chunkSize : ℕ) (bytes : List UInt8) : List UInt8 :=
  copyTo (List.replicate chunkSize 0) 0 (bytes.take (dword chunkSize))

variable {σ : Type} (S : Storage σ) (chunkSize : ℕ)

def writeStep (s : ScanState σ) (i : ℕ) : ScanState σ :=
  let buffer := testBuffer chunkSize i
  let h := S.createFile s.disk i
  if h.2 then { s with disk := S.writeFile h.1 i (buffer.take (dword chunkSize)) }
  else { s with disk := h.1, errors := s.errors + 1 }

def readStep (s : ScanState σ) (i : ℕ) : ScanState σ :=
  let h := S.openFile s.disk i
  if h.2 then
    let r := S.readFile h.1 i (dword chunkSize)
    let bad := verify i chunkSize (fileOffset chunkSize i) (readBuffer chunkSize r.2)
    { disk := S.deleteFile r.1 i
      errors := s.errors + BitVec.ofNat 32 bad.length
      rSpeeds := s.rSpeeds ++ [(chunkSize : ℚ) / (1024 * 1024) / S.readTime h.1 i]
      errorLog := s.errorLog ++ bad }
  else { s with disk := h.1 }

/-- The loop variable `i` of both passes. -/
def fileNumbers (totalFiles : ℕ) : List ℕ := List.range' 1 totalFiles

def writePass (totalFiles : ℕ) (s : ScanState σ) : ScanState σ :=
  (fileNumbers totalFiles).foldl (writeStep S chunkSize) s

def readPass (totalFiles : ℕ) (s : ScanState σ) : ScanState σ :=
  (fileNumbers totalFiles).foldl (readStep S chunkSize) s

def surfaceScan (totalFiles : ℕ) (disk : σ) : ScanState σ :=
  readPass S chunkSize totalFiles (writePass S chunkSize totalFiles ⟨disk, 0, [], []⟩)

def createFailures : σ → List ℕ → ℕ
  | _, [] => 0
  | d, i :: is =>
    let h := S.createFile d i
    if h.2 then
      createFailures (S.writeFile h.1 i ((testBuffer chunkSize i).take (dword chunkSize))) is
    else createFailures h.1 is + 1

/-- The buffers that the verification loop sees, with the number of the file each was read from. -/
def buffersRead : σ → List ℕ → List (ℕ × List UInt8)
  | _, [] => []
  | d, i :: is =>
    let h := S.openFile d i
    if h.2 then
      let r := S.readFile h.1 i (dword chunkSize)
      (i, readBuffer chunkSize r.2) :: buffersRead (S.deleteFile r.1 i) is
    else buffersRead h.1 is

def mismatchCount (p : ℕ × List UInt8) : ℕ :=
  (verify p.1 chunkSize (fileOffset chunkSize p.1) p.2).length

lemma writes_errors (is : List ℕ) (s : ScanState σ) :
    (is.foldl (writeStep S chunkSize) s).errors =
      s.errors + BitVec.ofNat 32 (createFailures S chunkSize s.disk is) := by
  induction is generalizing s with
  | nil => simp [createFailures]
  | cons i is ih =>
    rw [List.foldl_cons, ih]
    by_cases h : (S.createFile s.disk i).2
    · simp only [writeStep, createFailures, h, if_true]
    · simp only [writeStep, createFailures, h, if_false, Bool.false_eq_true, BitVec.ofNat_add]
      rw [BitVec.add_assoc]
      exact congrArg (s.errors + ·) (BitVec.add_comm _ _)

lemma reads_errors (is : List ℕ) (s : ScanState σ) :
    (is.foldl (readStep S chunkSize) s).errors =
      s.errors + BitVec.ofNat 32
        (((buffersRead S chunkSize s.disk is).map (mismatchCount chunkSize)).sum) := by
  induction is generalizing s with
  | nil => simp [buffersRead]
  | cons i is ih =>
    rw [List.foldl_cons, ih]
    by_cases h : (S.openFile s.disk i).2
    · simp only [readStep, buffersRead, h, if_true, List.map_cons, List.sum_cons, BitVec.ofNat_add,
        mismatchCount]
      rw [BitVec.add_assoc]
    · simp only [readStep, buffersRead, h, Bool.false_eq_true, if_false]

/-- The number of times a run executes `errors++`. -/
def errorCount (totalFiles : ℕ) (disk : σ) : ℕ :=
  createFailures S chunkSize disk (fileNumbers totalFiles) +
    ((buffersRead S chunkSize (writePass S chunkSize totalFiles ⟨disk, 0, [], []⟩).disk
      (fileNumbers totalFiles)).map (mismatchCount chunkSize)).sum

lemma surfaceScan_errors (totalFiles : ℕ) (disk : σ) :
    (surfaceScan S chunkSize totalFiles disk).errors =
      BitVec.ofNat 32 (errorCount S chunkSize totalFiles disk) := by
  rw [surfaceScan, readPass, reads_errors, writePass, writes_errors, errorCount, BitVec.ofNat_add]
  change 0#32 + _ + _ = _
  rw [BitVec.zero_add]
  rfl

lemma errors_toInt {e : ℕ} (he : e < 2 ^ 31) : (BitVec.ofNat 32 e).toInt = e := by
  rw [BitVec.toInt_eq_toNat_of_lt] <;> rw [BitVec.toNat_ofNat, Nat.mod_eq_of_lt (by omega)]
  omega

lemma dword_le (n : ℕ) : dword n ≤ n := Nat.mod_le _ _

@[simp] lemma testBuffer_length (i : ℕ) : (testBuffer chunkSize i).length = chunkSize := by
  simp [testBuffer]

@[simp] lemma readBuffer_length (bytes : List UInt8) :
    (readBuffer chunkSize bytes).length = chunkSize := by
  have hd := dword_le chunkSize
  rw [readBuffer, copyTo_length] <;> simp
  omega

lemma readBuffer_full {bytes : List UInt8} (hb : bytes.length = chunkSize)
    (hd : dword chunkSize = chunkSize) : readBuffer chunkSize bytes = bytes := by
  rw [readBuffer, hd, List.take_of_length_le hb.le, copyTo, List.take_zero, List.nil_append, hb,
    List.drop_eq_nil_of_le (by simp), List.append_nil]

lemma createFailures_le (d : σ) (is : List ℕ) : createFailures S chunkSize d is ≤ is.length := by
  induction is generalizing d with
  | nil => exact le_rfl
  | cons i is ih =>
    simp only [createFailures]
    split_ifs
    · exact (ih _).trans (Nat.le_succ _)
    · exact Nat.succ_le_succ (ih _)

lemma buffersRead_length_le (d : σ) (is : List ℕ) :
    (buffersRead S chunkSize d is).length ≤ is.length := by
  induction is generalizing d with
  | nil => exact le_rfl
  | cons i is ih =>
    simp only [buffersRead]
    split_ifs
    · exact Nat.succ_le_succ (ih _)
    · exact (ih _).trans (Nat.le_succ _)

lemma buffer_length (d : σ) (is : List ℕ) :
    ∀ p ∈ buffersRead S chunkSize d is, p.2.length = chunkSize := by
  induction is generalizing d with
  | nil => simp [buffersRead]
  | cons i is ih =>
    simp only [buffersRead]
    split_ifs
    · intro p hp
      rcases List.mem_cons.mp hp with rfl | hp
      · exact readBuffer_length chunkSize _
      · exact ih _ p hp
    · exact ih _

lemma mismatchCount_le (p : ℕ × List UInt8) (hp : p.2.length = chunkSize) :
    mismatchCount chunkSize p ≤ (chunkSize + 504) / 512 := by
  rw [mismatchCount, verify_length _ _ _ _ hp]
  exact (Finset.card_filter_le _ _).trans (by simp)

lemma errorCount_le (totalFiles : ℕ) (disk : σ) :
    errorCount S chunkSize totalFiles disk ≤ totalFiles * ((chunkSize + 504) / 512 + 1) := by
  set d := (writePass S chunkSize totalFiles ⟨disk, 0, [], []⟩).disk with hd
  have hn : (fileNumbers totalFiles).length = totalFiles := List.length_range'
  have hw := createFailures_le S chunkSize disk (fileNumbers totalFiles)
  have hr := buffersRead_length_le S chunkSize d (fileNumbers totalFiles)
  have hs := List.sum_le_card_nsmul
    ((buffersRead S chunkSize d (fileNumbers totalFiles)).map (mismatchCount chunkSize))
    ((chunkSize + 504) / 512) (by
      intro m hm
      obtain ⟨p, hp, rfl⟩ := List.mem_map.mp hm
      exact mismatchCount_le chunkSize p (buffer_length S chunkSize d _ p hp))
  rw [List.length_map, smul_eq_mul] at hs
  rw [hn] at hw hr
  have hh := Nat.mul_le_mul_right ((chunkSize + 504) / 512) hr
  rw [errorCount, ← hd, Nat.mul_succ]
  omega

end DriveIntegrity.Surface
