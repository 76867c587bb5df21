import DriveIntegrity.Surface.Sizing

/-! The test files that runs of `surface_scan` leave in the temp folder. -/

namespace DriveIntegrity.Surface

section Runs

/-- The folder as the set of the numbers `N` with a file `N.h2w`. Which files can be created and
opened for reading varies from run to run; a closed file can be deleted. -/
def folderStorage (creates opens : ℕ → Bool) : Storage (Finset ℕ) where
  createFile d i := if creates i then (insert i d, true) else (d, false)
  writeFile d _ _ := d
  openFile d i := (d, decide (i ∈ d) && opens i)
  readFile d _ _ := (d, [])
  deleteFile d i := d.erase i
  readTime _ _ := 1

/-- A run: what it finds, and after how many of its steps it is interrupted. -/
structure ScanRun where
  freeBytesRaw : ℤ
  percentage : ℤ
  creates : ℕ → Bool
  opens : ℕ → Bool
  stop : Option ℕ

/-- The steps of a scan: a file is written, or read, verified and deleted. -/
inductive ScanStep
  | write (i : ℕ)
  | read (i : ℕ)

def ScanStep.run {σ : Type} (S : Storage σ) (chunkSize : ℕ) (s : ScanState σ) :
    ScanStep → ScanState σ
  | .write i => writeStep S chunkSize s i
  | .read i => readStep S chunkSize s i

def scanSteps (totalFiles : ℕ) : List ScanStep :=
  (fileNumbers totalFiles).map .write ++ (fileNumbers totalFiles).map .read

/-- `scale` is the product of the free space and the ratio in `double`, cast to `long long`. -/
def ScanRun.targetBytes (scale : ℤ → ℤ → ℤ) (run : ScanRun) : ℤ :=
  scale run.freeBytesRaw run.percentage - 100 * 1024

def ScanRun.totalFiles (scale : ℤ → ℤ → ℤ) (run : ScanRun) : ℕ :=
  (totalFilesFor run.freeBytesRaw (run.targetBytes scale)).toNat

def ScanRun.chunkSize (scale : ℤ → ℤ → ℤ) (run : ScanRun) : ℕ :=
  chunkSizeFor run.freeBytesRaw (run.targetBytes scale)

def ScanRun.steps (scale : ℤ → ℤ → ℤ) (run : ScanRun) : List ScanStep :=
  match run.stop with
  | some k => (scanSteps (run.totalFiles scale)).take k
  | none => scanSteps (run.totalFiles scale)

def ScanRun.leaves (scale : ℤ → ℤ → ℤ) (folder : Finset ℕ) (run : ScanRun) : Finset ℕ :=
  ((run.steps scale).foldl
    (ScanStep.run (folderStorage run.creates run.opens) (run.chunkSize scale))
    ⟨folder, 0, [], []⟩).disk

def folderAfter (scale : ℤ → ℤ → ℤ) (runs : List ScanRun) : Finset ℕ :=
  runs.foldl (ScanRun.leaves scale) ∅

lemma foldl_scanSteps {σ : Type} (S : Storage σ) (chunkSize totalFiles : ℕ) (disk : σ) :
    (scanSteps totalFiles).foldl (ScanStep.run S chunkSize) ⟨disk, 0, [], []⟩ =
      surfaceScan S chunkSize totalFiles disk := by
  rw [scanSteps, List.foldl_append, List.foldl_map, List.foldl_map]
  rfl

end Runs

section Folder

variable {creates opens : ℕ → Bool} {chunkSize : ℕ}

lemma disk_writeStep (s : ScanState (Finset ℕ)) (i : ℕ) :
    (writeStep (folderStorage creates opens) chunkSize s i).disk =
      if creates i then insert i s.disk else s.disk := by
  by_cases h : creates i <;> simp [writeStep, folderStorage, h]

lemma disk_readStep (s : ScanState (Finset ℕ)) (i : ℕ) :
    (readStep (folderStorage creates opens) chunkSize s i).disk =
      if i ∈ s.disk ∧ opens i = true then s.disk.erase i else s.disk := by
  by_cases h : i ∈ s.disk ∧ opens i = true
  · simp [readStep, folderStorage, h]
  · have hb : (decide (i ∈ s.disk) && opens i) = false := by
      rw [Bool.and_eq_false_iff, decide_eq_false_iff_not, ← Bool.not_eq_true, ← not_and_or]
      exact h
    simp [readStep, folderStorage, hb, h]

lemma mem_writes (is : List ℕ) (s : ScanState (Finset ℕ)) (j : ℕ) :
    j ∈ (is.foldl (writeStep (folderStorage creates opens) chunkSize) s).disk ↔
      j ∈ s.disk ∨ j ∈ is ∧ creates j = true := by
  induction is generalizing s with
  | nil => simp
  | cons i is ih =>
    rw [List.foldl_cons, ih, disk_writeStep, List.mem_cons]
    by_cases hc : creates i
    · rw [if_pos hc, Finset.mem_insert]
      constructor
      · rintro ((rfl | h) | h)
        · exact Or.inr ⟨Or.inl rfl, hc⟩
        · exact Or.inl h
        · exact Or.inr ⟨Or.inr h.1, h.2⟩
      · rintro (h | ⟨rfl | h, hj⟩)
        · exact Or.inl (Or.inr h)
        · exact Or.inl (Or.inl rfl)
        · exact Or.inr ⟨h, hj⟩
    · rw [if_neg hc]
      refine or_congr_right ⟨fun h => ⟨Or.inr h.1, h.2⟩, ?_⟩
      rintro ⟨rfl | h, hj⟩
      · exact absurd hj hc
      · exact ⟨h, hj⟩

lemma mem_reads (is : List ℕ) (s : ScanState (Finset ℕ)) (j : ℕ) :
    j ∈ (is.foldl (readStep (folderStorage creates opens) chunkSize) s).disk ↔
      j ∈ s.disk ∧ ¬(j ∈ is ∧ opens j = true) := by
  induction is generalizing s with
  | nil => simp
  | cons i is ih =>
    rw [List.foldl_cons, ih, disk_readStep, List.mem_cons]
    by_cases hi : i ∈ s.disk ∧ opens i = true
    · rw [if_pos hi, Finset.mem_erase]
      constructor
      · rintro ⟨⟨hne, hj⟩, hrest⟩
        refine ⟨hj, ?_⟩
        rintro ⟨he | hm, ho⟩
        · exact hne he
        · exact hrest ⟨hm, ho⟩
      · rintro ⟨hj, hrest⟩
        refine ⟨⟨?_, hj⟩, fun h => hrest ⟨Or.inr h.1, h.2⟩⟩
        rintro rfl
        exact hrest ⟨Or.inl rfl, hi.2⟩
    · rw [if_neg hi]
      refine and_congr_right (fun hj => not_congr ⟨fun h => ⟨Or.inr h.1, h.2⟩, ?_⟩)
      rintro ⟨rfl | hm, ho⟩
      · exact absurd ⟨hj, ho⟩ hi
      · exact ⟨hm, ho⟩

lemma mem_surfaceScan (totalFiles : ℕ) (folder : Finset ℕ) (j : ℕ) :
    j ∈ (surfaceScan (folderStorage creates opens) chunkSize totalFiles folder).disk ↔
      (j ∈ folder ∨ j ∈ fileNumbers totalFiles ∧ creates j = true) ∧
        ¬(j ∈ fileNumbers totalFiles ∧ opens j = true) := by
  rw [surfaceScan, readPass, mem_reads, writePass, mem_writes]

end Folder

section Cleanup

variable {scale : ℤ → ℤ → ℤ}

/-- The run meets every file it has to remove: no older file has a higher number, and its files can
be opened. -/
def ScanRun.Reaches (scale : ℤ → ℤ → ℤ) (folder : Finset ℕ) (run : ScanRun) : Prop :=
  (∀ i ∈ folder, i ∈ fileNumbers (run.totalFiles scale)) ∧
    ∀ i ∈ fileNumbers (run.totalFiles scale), i ∈ folder ∨ run.creates i = true → run.opens i = true

lemma leaves_empty_iff {run : ScanRun} (hrun : run.stop = none) (folder : Finset ℕ) :
    run.leaves scale folder = ∅ ↔ run.Reaches scale folder := by
  have hsteps : run.steps scale = scanSteps (run.totalFiles scale) := by rw [ScanRun.steps, hrun]
  rw [ScanRun.leaves, hsteps, foldl_scanSteps, Finset.eq_empty_iff_forall_notMem]
  simp only [mem_surfaceScan, not_and_not_right]
  constructor
  · intro h
    refine ⟨fun i hi => (h i (Or.inl hi)).1, fun i hi hor => ?_⟩
    exact (h i (hor.imp_right (fun hc => ⟨hi, hc⟩))).2
  · rintro ⟨hold, hopen⟩ i (hi | ⟨hi, hc⟩)
    · exact ⟨hold i hi, hopen i (hold i hi) (Or.inl hi)⟩
    · exact ⟨hi, hopen i hi (Or.inr hc)⟩

lemma folderAfter_concat (runs : List ScanRun) (run : ScanRun) :
    folderAfter scale (runs ++ [run]) = run.leaves scale (folderAfter scale runs) := by
  rw [folderAfter, List.foldl_append, List.foldl_cons, List.foldl_nil, folderAfter]

/-- Whenever a run of the sequence completes, no test file remains. -/
def CleansUp (scale : ℤ → ℤ → ℤ) (runs : List ScanRun) : Prop :=
  ∀ before run, before ++ [run] <+: runs → run.stop = none → folderAfter scale (before ++ [run]) = ∅

/-- A sequence of runs cleans up exactly when each run that completes meets every file it has to
remove. -/
theorem scans_clean_up_iff (scale : ℤ → ℤ → ℤ) (runs : List ScanRun) :
    CleansUp scale runs ↔
      ∀ before run, before ++ [run] <+: runs → run.stop = none →
        run.Reaches scale (folderAfter scale before) := by
  refine forall₄_congr (fun before run _ hrun => ?_)
  rw [folderAfter_concat, leaves_empty_iff hrun]

lemma leaves_subset {run : ScanRun} {folder : Finset ℕ} {i : ℕ} (h : i ∈ run.leaves scale folder) :
    i ∈ folder ∨ i ∈ fileNumbers (run.totalFiles scale) := by
  have hstep : ∀ (steps : List ScanStep), steps ⊆ scanSteps (run.totalFiles scale) →
      ∀ s : ScanState (Finset ℕ),
      (∀ j ∈ s.disk, j ∈ folder ∨ j ∈ fileNumbers (run.totalFiles scale)) →
        ∀ j ∈
          (steps.foldl
            (ScanStep.run (folderStorage run.creates run.opens) (run.chunkSize scale)) s).disk,
          j ∈ folder ∨ j ∈ fileNumbers (run.totalFiles scale) := by
    intro steps hsub
    induction steps with
    | nil => exact fun s hs => hs
    | cons step steps ih =>
      intro s hs
      rw [List.foldl_cons]
      refine ih (fun t ht => hsub (List.mem_cons_of_mem step ht)) _ (fun j hj => ?_)
      cases step with
      | write i =>
        have hi : i ∈ fileNumbers (run.totalFiles scale) := by
          simpa [scanSteps] using hsub List.mem_cons_self
        rw [ScanStep.run, disk_writeStep] at hj
        split_ifs at hj
        · rcases Finset.mem_insert.mp hj with rfl | hj
          · exact Or.inr hi
          · exact hs j hj
        · exact hs j hj
      | read i =>
        rw [ScanStep.run, disk_readStep] at hj
        split_ifs at hj
        · exact hs j (Finset.mem_of_mem_erase hj)
        · exact hs j hj
  refine hstep (run.steps scale) ?_ ⟨folder, 0, [], []⟩ (fun j hj => Or.inl hj) i h
  rw [ScanRun.steps]
  split
  · exact List.take_subset _ _
  · exact List.Subset.refl _

lemma folderAfter_subset {runs : List ScanRun} {i : ℕ} (h : i ∈ folderAfter scale runs) :
    ∃ run ∈ runs, i ∈ fileNumbers (run.totalFiles scale) := by
  induction runs using List.reverseRecOn with
  | nil => exact absurd h (Finset.notMem_empty i)
  | append_singleton runs run ih =>
    rw [folderAfter_concat] at h
    rcases leaves_subset h with h | h
    · obtain ⟨old, hm, hi⟩ := ih h
      exact ⟨old, List.mem_append_left _ hm, hi⟩
    · exact ⟨run, List.mem_append_right _ List.mem_cons_self, h⟩

lemma mem_fileNumbers {n i : ℕ} : i ∈ fileNumbers n ↔ 1 ≤ i ∧ i ≤ n := by
  rw [fileNumbers, List.mem_range'_1]
  omega

lemma cleansUp_of_growing {runs : List ScanRun}
    (hgrow : runs.Pairwise (fun old run => old.totalFiles scale ≤ run.totalFiles scale))
    (hopen : ∀ run ∈ runs, ∀ i, run.opens i = true) : CleansUp scale runs := by
  intro before run hpre hrun
  rw [folderAfter_concat, leaves_empty_iff hrun]
  refine ⟨fun i hi => ?_,
    fun i _ _ => hopen run (hpre.subset (List.mem_append_right _ List.mem_cons_self)) i⟩
  obtain ⟨old, hm, hold⟩ := folderAfter_subset hi
  have hle :=
    (List.pairwise_append.mp (hgrow.sublist hpre.sublist)).2.2 old hm run List.mem_cons_self
  rw [mem_fileNumbers] at hold ⊢
  exact ⟨hold.1, hold.2.trans hle⟩

end Cleanup

section Example

def exactScale (freeBytesRaw percentage : ℤ) : ℤ := freeBytesRaw * percentage / 100

/-- A full scan of 8 GiB is interrupted after it has written five files. -/
def interrupted : ScanRun := ⟨8 * 2 ^ 30, 100, fun _ => true, fun _ => true, some 5⟩

/-- Then half of the 3 GiB that are left is scanned to the end. -/
def completed : ScanRun := ⟨3 * 2 ^ 30, 50, fun _ => true, fun _ => true, none⟩

theorem stale_files_stay : ¬CleansUp exactScale [interrupted, completed] ∧
    folderAfter exactScale [interrupted, completed] = {2, 3, 4, 5} := by
  have hfirst : interrupted.leaves exactScale ∅ = {1, 2, 3, 4, 5} := by
    have hsteps : interrupted.steps exactScale = [1, 2, 3, 4, 5].map .write := rfl
    rw [ScanRun.leaves, hsteps]
    simp only [List.map_cons, List.map_nil, List.foldl_cons, List.foldl_nil, ScanStep.run,
      disk_writeStep]
    decide
  have hfolder : folderAfter exactScale [interrupted, completed] = {2, 3, 4, 5} := by
    have hsteps : completed.steps exactScale = [.write 1, .read 1] := rfl
    change completed.leaves exactScale (interrupted.leaves exactScale ∅) = _
    rw [hfirst, ScanRun.leaves, hsteps]
    simp only [List.foldl_cons, List.foldl_nil, ScanStep.run, disk_readStep, disk_writeStep]
    decide
  refine ⟨fun h => ?_, hfolder⟩
  have hempty := h [interrupted] completed (List.prefix_refl _) rfl
  rw [List.singleton_append, hfolder] at hempty
  exact absurd hempty (by decide)

end Example

end DriveIntegrity.Surface
