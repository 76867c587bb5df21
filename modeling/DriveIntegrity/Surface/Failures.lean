import DriveIntegrity.Surface.Grade
import DriveIntegrity.Surface.Soundness

/-! What `surface_scan` makes of file calls that fail or fall short on a faithful storage. -/

namespace DriveIntegrity.Surface

open Bytes

/-- What the system makes of the calls on each file: whether it is created and opened, and how many
bytes a write and a read transfer at most. -/
structure Outcomes where
  created : ℕ → Bool
  written : ℕ → ℕ
  opened : ℕ → Bool
  transferred : ℕ → ℕ
  readTime : ℕ → ℚ

/-- A folder of test files that returns what was stored in it. -/
abbrev Folder := ℕ → Option (List UInt8)

def faithfulStorage (o : Outcomes) : Storage Folder where
  createFile d i := if o.created i then (Function.update d i (some []), true) else (d, false)
  writeFile d i data := Function.update d i (some (data.take (o.written i)))
  openFile d i := (d, o.opened i && (d i).isSome)
  readFile d i n := (d, ((d i).getD []).take (min n (o.transferred i)))
  deleteFile d i := Function.update d i none
  readTime _ i := o.readTime i

variable (o : Outcomes) (chunkSize : ℕ)

def bytesWritten (i : ℕ) : ℕ := min (dword chunkSize) (o.written i)
def bytesTransferred (i : ℕ) : ℕ := min (dword chunkSize) (o.transferred i)

/-- Some call on file `i` failed or transferred fewer than `CHUNK_SIZE` bytes. -/
def Faulty (i : ℕ) : Prop :=
  o.created i = false ∨ bytesWritten o chunkSize i < chunkSize ∨ o.opened i = false ∨
    bytesTransferred o chunkSize i < chunkSize

instance (i : ℕ) : Decidable (Faulty o chunkSize i) := inferInstanceAs (Decidable (_ ∨ _))

/-- The bytes of a created file that reach the buffer of the read pass. -/
def kept (i : ℕ) : ℕ := min (bytesWritten o chunkSize i) (bytesTransferred o chunkSize i)

/-- Sectors of a created file whose stamp changes when all bytes behind the kept ones become
zero. -/
def lostStamps (i : ℕ) : ℕ :=
  ((Finset.range ((chunkSize + 504) / 512)).filter
    (fun s =>
      256 ^ (kept o chunkSize i - 512 * s) ≤ (fileOffset chunkSize i + 512 * s) % 2 ^ 64)).card

/-- The failures on file `i` that a run counts; `old` is a file of that name from before the run. -/
def visibleFaults (old : Folder) (i : ℕ) : ℕ :=
  if o.created i then (if o.opened i then lostStamps o chunkSize i else 0)
  else 1 + (if o.opened i then
    ((old i).map (fun c => mismatchCount chunkSize
      (i, readBuffer chunkSize (c.take (bytesTransferred o chunkSize i))))).getD 0 else 0)

def visibleTotal (old : Folder) (totalFiles : ℕ) : ℕ :=
  ((fileNumbers totalFiles).map (visibleFaults o chunkSize old)).sum

def stored (old : Folder) (i : ℕ) : Option (List UInt8) :=
  if o.created i then some ((testBuffer chunkSize i).take (bytesWritten o chunkSize i)) else old i

lemma writeStep_disk (s : ScanState Folder) (i : ℕ) :
    (writeStep (faithfulStorage o) chunkSize s i).disk =
      Function.update s.disk i (stored o chunkSize s.disk i) := by
  by_cases hc : o.created i
  · simp only [writeStep, faithfulStorage, hc, if_true, stored, List.take_take,
      Function.update_idem, bytesWritten, Nat.min_comm]
  · simp only [writeStep, faithfulStorage, hc, if_false, stored, Function.update_eq_self,
      Bool.false_eq_true]

lemma writes_disk (is : List ℕ) (hn : is.Nodup) (s : ScanState Folder) (i : ℕ) :
    (is.foldl (writeStep (faithfulStorage o) chunkSize) s).disk i =
      if i ∈ is then stored o chunkSize s.disk i else s.disk i := by
  induction is generalizing s with
  | nil => simp
  | cons j is ih =>
    obtain ⟨hj, hn⟩ := List.nodup_cons.mp hn
    rw [List.foldl_cons, ih hn, stored, writeStep_disk]
    rcases eq_or_ne i j with rfl | hij
    · simp [hj]
    · simp [hij, stored]

def readOutcome (d : Folder) (i : ℕ) : Option (ℕ × List UInt8) :=
  if o.opened i then
    (d i).map (fun c => (i, readBuffer chunkSize (c.take (bytesTransferred o chunkSize i))))
  else none

lemma faithful_buffersRead (is : List ℕ) (hn : is.Nodup) (d : Folder) :
    buffersRead (faithfulStorage o) chunkSize d is = is.filterMap (readOutcome o chunkSize d) := by
  induction is generalizing d with
  | nil => rfl
  | cons i is ih =>
    obtain ⟨hi, hn⟩ := List.nodup_cons.mp hn
    have hrest : is.filterMap (readOutcome o chunkSize (Function.update d i none)) =
        is.filterMap (readOutcome o chunkSize d) := by
      apply List.filterMap_congr
      intro j hj
      rw [readOutcome, readOutcome, Function.update_of_ne (by rintro rfl; exact hi hj)]
    rw [List.filterMap_cons]
    cases ho : o.opened i with
    | false => simp [buffersRead, faithfulStorage, ho, readOutcome, ← ih hn]
    | true =>
      cases hd : d i with
      | none => simp [buffersRead, faithfulStorage, ho, hd, readOutcome, ← ih hn]
      | some c =>
        rw [← hrest, ← ih hn]
        simp [buffersRead, faithfulStorage, ho, hd, readOutcome, bytesTransferred]

lemma faithful_createFailures (is : List ℕ) (d : Folder) :
    createFailures (faithfulStorage o) chunkSize d is =
      (is.map (fun i => if o.created i then 0 else 1)).sum := by
  induction is generalizing d with
  | nil => rfl
  | cons i is ih =>
    cases hc : o.created i with
    | false => simp [createFailures, faithfulStorage, hc, ← ih d, Nat.add_comm]
    | true =>
      simp only [createFailures, faithfulStorage, hc, if_true, List.map_cons,
        List.sum_cons, Nat.zero_add]
      exact ih _

lemma readBuffer_eq {bytes : List UInt8} (hb : bytes.length ≤ dword chunkSize) :
    readBuffer chunkSize bytes = bytes ++ List.replicate (chunkSize - bytes.length) 0 := by
  rw [readBuffer, List.take_of_length_le hb, copyTo, List.take_zero, List.nil_append, Nat.zero_add,
    List.drop_replicate]

lemma readStamp_cut (xs : List UInt8) (m b : ℕ) (hx : xs.length = chunkSize)
    (hm : m ≤ dword chunkSize) :
    readStamp (readBuffer chunkSize (xs.take m)) b = readStamp xs b % 256 ^ (m - b) := by
  have hd := dword_le chunkSize
  have hl : (xs.take m).length = m := by rw [List.length_take, hx]; omega
  have hdrop : (readBuffer chunkSize (xs.take m)).drop b =
      (xs.drop b).take (m - b) ++ List.replicate (chunkSize - m - (b - m)) 0 := by
    rw [readBuffer_eq chunkSize (by omega), hl, List.drop_append, List.drop_take, hl,
      List.drop_replicate]
  rw [readStamp, readStamp, hdrop, decode_take, decode_append_zeros, decode_take, decode_take]
  rcases le_total (m - b) stampSize with h | h
  · rw [Nat.mod_mod_of_dvd _ (pow_dvd_pow 256 h)]
    exact Nat.mod_eq_of_lt
      ((Nat.mod_lt _ (by positivity)).trans_le (Nat.pow_le_pow_right (by decide) h))
  · rw [Nat.mod_mod_of_dvd _ (pow_dvd_pow 256 h)]
    exact (Nat.mod_eq_of_lt ((Nat.mod_lt _ (by positivity)).trans_le
      (Nat.pow_le_pow_right (by decide) h))).symm

lemma kept_le (i : ℕ) : kept o chunkSize i ≤ dword chunkSize :=
  (Nat.min_le_left _ _).trans (Nat.min_le_left _ _)

lemma created_mismatches (i : ℕ) :
    mismatchCount chunkSize (i, readBuffer chunkSize
      ((testBuffer chunkSize i).take (kept o chunkSize i))) = lostStamps o chunkSize i := by
  rw [mismatchCount, verify_length _ _ _ _ (readBuffer_length chunkSize _), lostStamps]
  congr 1
  apply Finset.filter_congr
  intro s hs
  have hs' : 512 * s + stampSize ≤ chunkSize := by
    have := Finset.mem_range.mp hs
    change 512 * s + 8 ≤ chunkSize
    omega
  rw [readStamp_cut chunkSize _ _ _ (testBuffer_length chunkSize i) (kept_le o chunkSize i),
    testBuffer_readStamp chunkSize i s hs', ne_eq, Nat.mod_eq_iff_lt (by positivity), Nat.not_lt]

lemma sum_filterMap {α β : Type} (f : α → Option β) (h : β → ℕ) (l : List α) :
    ((l.filterMap f).map h).sum = (l.map (fun a => ((f a).map h).getD 0)).sum := by
  induction l with
  | nil => rfl
  | cons a l ih =>
    cases hf : f a <;> simp [hf, ih]

lemma faithful_errorCount (totalFiles : ℕ) (old : Folder) :
    errorCount (faithfulStorage o) chunkSize totalFiles old =
      visibleTotal o chunkSize old totalFiles := by
  have hn : (fileNumbers totalFiles).Nodup := List.nodup_range'
  rw [errorCount, faithful_createFailures, faithful_buffersRead o chunkSize _ hn, sum_filterMap,
    ← List.sum_map_add, visibleTotal]
  congr 1
  apply List.map_congr_left
  intro i hi
  rw [readOutcome, writePass, writes_disk o chunkSize _ hn, if_pos hi, visibleFaults, stored]
  cases ho : o.opened i <;> cases hc : o.created i
  · simp
  · simp
  · simp [Option.map_map, Function.comp_def]
  · simp [List.take_take, Nat.min_comm, ← created_mismatches, kept]

lemma visibleFaults_of_not_faulty (old : Folder) (i : ℕ) (h : ¬ Faulty o chunkSize i) :
    visibleFaults o chunkSize old i = 0 := by
  simp only [Faulty, not_or, Bool.not_eq_false, Nat.not_lt] at h
  obtain ⟨hc, hw, ho, ht⟩ := h
  have hk : chunkSize ≤ kept o chunkSize i := le_min hw ht
  rw [visibleFaults, if_pos hc, if_pos ho, lostStamps, Finset.card_eq_zero,
    Finset.filter_eq_empty_iff]
  intro s hs
  have hs' := Finset.mem_range.mp hs
  rw [Nat.not_le]
  calc (fileOffset chunkSize i + 512 * s) % 2 ^ 64 < 2 ^ 64 := Nat.mod_lt _ (by decide)
    _ = 256 ^ 8 := by norm_num
    _ ≤ 256 ^ (kept o chunkSize i - 512 * s) := Nat.pow_le_pow_right (by decide) (by omega)

def SomeFault (totalFiles : ℕ) : Prop := ∃ i ∈ fileNumbers totalFiles, Faulty o chunkSize i

lemma visibleTotal_of_no_fault (old : Folder) (totalFiles : ℕ)
    (h : ¬ SomeFault o chunkSize totalFiles) :
    visibleTotal o chunkSize old totalFiles = 0 := by
  rw [visibleTotal, List.sum_eq_zero_iff]
  intro v hv
  obtain ⟨i, hi, rfl⟩ := List.mem_map.mp hv
  exact visibleFaults_of_not_faulty o chunkSize old i (fun hf => h ⟨i, hi, hf⟩)

lemma faithful_errors (old : Folder) (totalFiles : ℕ) :
    (surfaceScan (faithfulStorage o) chunkSize totalFiles old).errors.toInt =
      (visibleTotal o chunkSize old totalFiles : ℤ).bmod (2 ^ 32) := by
  rw [surfaceScan_errors, faithful_errorCount, BitVec.toInt_ofNat']

lemma visibleTotal_pos_iff (old : Folder) (totalFiles : ℕ) :
    0 < visibleTotal o chunkSize old totalFiles ↔
      ∃ i ∈ fileNumbers totalFiles, 0 < visibleFaults o chunkSize old i := by
  rw [Nat.pos_iff_ne_zero, ne_eq, visibleTotal, List.sum_eq_zero_iff]
  simp [Nat.pos_iff_ne_zero]

theorem failures_reported_iff (old : Folder) (totalFiles : ℕ) :
    ((0 < (surfaceScan (faithfulStorage o) chunkSize totalFiles old).errors.toInt ↔
        SomeFault o chunkSize totalFiles) ↔
      (SomeFault o chunkSize totalFiles →
        0 < (visibleTotal o chunkSize old totalFiles : ℤ).bmod (2 ^ 32))) ∧
    (visibleTotal o chunkSize old totalFiles < 2 ^ 31 →
      ((0 < (surfaceScan (faithfulStorage o) chunkSize totalFiles old).errors.toInt ↔
          SomeFault o chunkSize totalFiles) ↔
        (SomeFault o chunkSize totalFiles →
          ∃ i ∈ fileNumbers totalFiles, 0 < visibleFaults o chunkSize old i))) ∧
    ((surfaceScan (faithfulStorage o) chunkSize totalFiles old).finalGrade = .dataLoss ↔
      0 < (surfaceScan (faithfulStorage o) chunkSize totalFiles old).errors.toInt) := by
  have hiff : (0 < (visibleTotal o chunkSize old totalFiles : ℤ).bmod (2 ^ 32) ↔
      SomeFault o chunkSize totalFiles) ↔ (SomeFault o chunkSize totalFiles →
        0 < (visibleTotal o chunkSize old totalFiles : ℤ).bmod (2 ^ 32)) := by
    refine ⟨fun h => h.mpr, fun h => ⟨fun hv => ?_, h⟩⟩
    by_contra hf
    rw [visibleTotal_of_no_fault o chunkSize old totalFiles hf] at hv
    exact absurd hv (by decide)
  rw [faithful_errors]
  refine ⟨hiff, fun hb => ?_, ?_⟩
  · have hv : (visibleTotal o chunkSize old totalFiles : ℤ).bmod (2 ^ 32) =
        visibleTotal o chunkSize old totalFiles := by
      rw [← BitVec.toInt_ofNat', errors_toInt hb]
    rw [hiff, hv, ← visibleTotal_pos_iff, Int.natCast_pos]
  · rw [ScanState.finalGrade, getTechnicalGrade_dataLoss_iff, faithful_errors]

/-- One file that is written in full and cannot be opened again. -/
def unreadableFile : Outcomes :=
  ⟨fun _ => true, fun _ => 1024, fun _ => false, fun _ => 1024, fun _ => 1⟩

theorem open_failure_unreported :
    ¬ ∀ (o : Outcomes) (chunkSize totalFiles : ℕ) (old : Folder),
      0 < (surfaceScan (faithfulStorage o) chunkSize totalFiles old).errors.toInt ↔
        SomeFault o chunkSize totalFiles := by
  intro h
  have hh := (h unreadableFile 1024 1 (fun _ => none)).mpr ⟨1, by decide, by decide⟩
  rw [faithful_errors] at hh
  exact absurd hh (by decide)

theorem failures_reported_iff_one_file :
    (0 < (surfaceScan (faithfulStorage unreadableFile) 1024 1 (fun _ => none)).errors.toInt ↔
        SomeFault unreadableFile 1024 1) ↔
      (SomeFault unreadableFile 1024 1 →
        ∃ i ∈ fileNumbers 1, 0 < visibleFaults unreadableFile 1024 (fun _ => none) i) :=
  (failures_reported_iff unreadableFile 1024 (fun _ => none) 1).2.1 (by decide)

end DriveIntegrity.Surface
