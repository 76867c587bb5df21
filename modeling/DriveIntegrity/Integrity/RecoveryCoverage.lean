import DriveIntegrity.Integrity.CreateRecovery

/-! Which files a finished run of `create_recovery` protects. -/

namespace DriveIntegrity.Integrity

section Windows

def window (names : List Text) (k : ℕ) : List Text := (names.drop (k * chunkSize)).take chunkSize

lemma window_of_le {names : List Text} {k : ℕ} (h : names.length ≤ k * chunkSize) :
    window names k = [] := by
  rw [window, List.drop_eq_nil_of_le h, List.take_nil]

lemma mem_window {names : List Text} {name : Text} (h : name ∈ names) :
    ∃ k, name ∈ window names k := by
  obtain ⟨i, hi, rfl⟩ := List.getElem_of_mem h
  have hdiv := Nat.div_add_mod i chunkSize
  have hmod : i % chunkSize < chunkSize := Nat.mod_lt _ (by decide)
  refine ⟨i / chunkSize, List.mem_take_iff_getElem.mpr ⟨i % chunkSize, ?_, ?_⟩⟩
  · rw [List.length_drop]
    rw [Nat.mul_comm] at hdiv
    omega
  · rw [List.getElem_drop]
    congr 1
    rw [Nat.mul_comm]
    exact hdiv

lemma chunk_eq_window {names : List Text} (h : names.length ≠ 1) {k : ℕ}
    (hk : k * chunkSize < names.length) :
    (chunks names)[k]? = some (window names k) := by
  rw [ofNames_array h, chunkLoop_getElem?, Nat.zero_add, if_pos hk, window]

end Windows

section Coverage

/-- The lines of a baseline made at some drive letter. -/
def baselineNames (Y : DriveLetter) (paths : List RootPath) : List Text := paths.map (absolute Y)

variable {X Y : DriveLetter} {size : Text → FileSize} {paths : List RootPath}

lemma absolute_line (Y : DriveLetter) (p : RootPath) : absolute Y p ≠ [] ∧ '\n' ∉ absolute Y p := by
  refine ⟨List.cons_ne_nil _ _, ?_⟩
  rw [absolute, List.mem_cons, List.mem_cons]
  rintro (h | h | h)
  · exact absurd (h ▸ Y.2) (by decide)
  · exact absurd h (by decide)
  · exact absurd (p.allowed _ h).2 (by decide)

lemma baselineNames_line : ∀ line ∈ baselineNames Y paths, line ≠ [] ∧ '\n' ∉ line :=
  List.forall_mem_map.mpr (fun p _ => absolute_line Y p)

lemma sourceFiles_short {lines : List Text} (h : ∀ line ∈ lines, line.length = 1) :
    sourceFiles (basePath X) size lines = [] := by
  rw [List.eq_nil_iff_forall_not_mem]
  intro file hf
  obtain ⟨hm, hb, _⟩ := mem_sourceFiles.mp hf
  have hl := hb.length_le
  rw [h file hm] at hl
  exact absurd hl (by simp [basePath])

lemma chunks_single_short (name : Text) :
    ∀ chunk ∈ chunks [name], ∀ line ∈ chunk, line.length = 1 := by
  intro chunk hc line hl
  rw [chunks_single, List.mem_singleton] at hc
  subst hc
  obtain ⟨c, _, rfl⟩ := List.mem_map.mp hl
  rfl

/-- Each chunk fits the engine, and each non-empty file is in a set that was made. -/
def Covered (X : DriveLetter) (size : Text → FileSize) (names : List Text)
    (newSets : List (ℕ × List Text)) : Prop :=
  (∀ chunk ∈ chunks names, blocksNeeded size (sourceFiles (basePath X) size chunk) ≤ 32768) ∧
    ∀ name ∈ names, (size name).1 ≠ 0 → ∃ set ∈ newSets, name ∈ set.2

lemma complete_newSets {locked : Text → Bool} {par2 : ℕ → Text → Option (List Text)}
    {names existing : List Text}
    (h : (createRecovery X locked par2 (.readable names) existing).complete = true) :
    (createRecovery X locked par2 (.readable names) existing).newSets =
      par2Loop par2 1 (chunks names) := by
  unfold createRecovery at h ⊢
  split_ifs at h ⊢ with hd
  dsimp only at h ⊢
  split_ifs at h ⊢ with hw
  rfl

variable {names : List Text}

lemma chunk_lines (hn : ∀ line ∈ names, line ≠ [] ∧ '\n' ∉ line) {chunk : List Text}
    (hc : chunk ∈ chunks names) :
    (∀ line ∈ chunk, line ≠ [] ∧ '\n' ∉ line) ∧ chunk.length ≤ chunkSize := by
  by_cases h1 : names.length = 1
  · obtain ⟨name, rfl⟩ := List.length_eq_one_iff.mp h1
    rw [chunks_single, List.mem_singleton] at hc
    subst hc
    refine ⟨?_, by simp [chunkSize]⟩
    intro line hl
    obtain ⟨c, hm, rfl⟩ := List.mem_map.mp hl
    refine ⟨List.cons_ne_nil _ _, ?_⟩
    rw [List.mem_singleton]
    rintro rfl
    exact (hn name List.mem_cons_self).2 (List.mem_of_mem_take hm)
  · obtain ⟨k, hk⟩ := List.mem_iff_getElem?.mp hc
    rw [chunk_sublist h1 hk]
    refine ⟨fun line hl => hn line ((List.drop_subset _ _) (List.mem_of_mem_take hl)), ?_⟩
    exact List.length_take_le _ _

lemma par2Create_chunk (hn : ∀ line ∈ names, line ≠ [] ∧ '\n' ∉ line) {chunk : List Text}
    (hc : chunk ∈ chunks names) (set : List Text) :
    par2Create (basePath X) size (writeAllLines chunk) = some set ↔
      sourceFiles (basePath X) size chunk = set ∧ set ≠ [] ∧ blocksNeeded size set ≤ 32768 := by
  obtain ⟨hlines, hlength⟩ := chunk_lines hn hc
  rw [par2Create_eq hlines hlength]
  split_ifs with h
  · refine iff_of_false (by simp) ?_
    rintro ⟨rfl, hne, hle⟩
    exact h.elim hne (fun hlt => absurd hlt (not_lt.mpr hle))
  · rw [not_or, not_lt] at h
    rw [Option.some.injEq]
    constructor
    · rintro rfl
      exact ⟨rfl, h⟩
    · exact fun hs => hs.1

lemma mem_newSets (hn : ∀ line ∈ names, line ≠ [] ∧ '\n' ∉ line) {file : Text} :
    (∃ set ∈ par2Loop (fun _ => par2Create (basePath X) size) 1 (chunks names), file ∈ set.2) ↔
      ∃ chunk ∈ chunks names, file ∈ sourceFiles (basePath X) size chunk ∧
        blocksNeeded size (sourceFiles (basePath X) size chunk) ≤ 32768 := by
  constructor
  · rintro ⟨⟨n, set⟩, hs, hf⟩
    obtain ⟨k, chunk, hk, _, hp⟩ := mem_par2Loop.mp hs
    have hc := List.mem_of_getElem? hk
    obtain ⟨rfl, _, hle⟩ := (par2Create_chunk hn hc set).mp hp
    exact ⟨chunk, hc, hf, hle⟩
  · rintro ⟨chunk, hc, hf, hle⟩
    obtain ⟨k, hk⟩ := List.mem_iff_getElem?.mp hc
    refine ⟨(1 + k, sourceFiles (basePath X) size chunk),
      mem_par2Loop.mpr ⟨k, chunk, hk, rfl, ?_⟩, hf⟩
    exact (par2Create_chunk hn hc _).mpr ⟨rfl, List.ne_nil_of_mem hf, hle⟩

/-- What has to hold of the sizes: no part of 25000 files needs too many blocks, the engine finds
each non-empty file, and the only file of a baseline is empty. -/
def SizesFit (X : DriveLetter) (size : Text → FileSize) (names : List Text) : Prop :=
  (∀ k, blocksNeeded size (window names k) ≤ 32768) ∧
    (∀ name ∈ names, (size name).1 ≠ 0 → basePath X <:+: name) ∧
    (names.length = 1 → ∀ name ∈ names, (size name).1 = 0)

lemma blocksNeeded_empty {files : List Text} (h : ∀ file ∈ files, (size file).1 = 0) :
    blocksNeeded size files = 0 := by
  refine Finset.sum_eq_zero (fun file hf => fileBlocks_eq_zero (h file ?_))
  exact List.mem_toFinset.mp hf

lemma window_subset (k : ℕ) : window names k ⊆ names :=
  fun _ hf => List.drop_subset _ _ (List.mem_of_mem_take hf)

lemma sizesFit_of_covered (hn : ∀ line ∈ names, line ≠ [] ∧ '\n' ∉ line)
    (hlong : ∀ name ∈ names, name.length ≠ 1)
    (h : Covered X size names (par2Loop (fun _ => par2Create (basePath X) size) 1 (chunks names))) :
    SizesFit X size names := by
  obtain ⟨hfit, hmem⟩ := h
  simp only [mem_newSets hn] at hmem
  have hbase : ∀ name ∈ names, (size name).1 ≠ 0 → basePath X <:+: name := by
    intro name hm hs
    obtain ⟨chunk, _, hf, _⟩ := hmem name hm hs
    exact (mem_sourceFiles.mp hf).2.1
  have hsingle : names.length = 1 → ∀ name ∈ names, (size name).1 = 0 := by
    intro h1 name hm
    obtain ⟨only, rfl⟩ := List.length_eq_one_iff.mp h1
    by_contra hs
    obtain ⟨chunk, hc, hf, _⟩ := hmem name hm hs
    exact hlong name hm (chunks_single_short only chunk hc name (mem_sourceFiles.mp hf).1)
  refine ⟨fun k => ?_, hbase, hsingle⟩
  by_cases h1 : names.length = 1
  · rw [blocksNeeded_empty (fun file hf => hsingle h1 file (window_subset k hf))]
    exact Nat.zero_le _
  · by_cases hk : k * chunkSize < names.length
    · have hw := hfit _ (List.mem_of_getElem? (chunk_eq_window h1 hk))
      rwa [blocksNeeded_sourceFiles (fun file hf => hbase file (window_subset k hf))] at hw
    · rw [window_of_le (not_lt.mp hk)]
      exact Nat.zero_le _

lemma covered_of_sizesFit (hn : ∀ line ∈ names, line ≠ [] ∧ '\n' ∉ line)
    (h : SizesFit X size names) :
    Covered X size names (par2Loop (fun _ => par2Create (basePath X) size) 1 (chunks names)) := by
  obtain ⟨hfit, hbase, hsingle⟩ := h
  have hchunk : ∀ chunk ∈ chunks names,
      blocksNeeded size (sourceFiles (basePath X) size chunk) ≤ 32768 := by
    intro chunk hc
    by_cases h1 : names.length = 1
    · obtain ⟨name, rfl⟩ := List.length_eq_one_iff.mp h1
      rw [sourceFiles_short (chunks_single_short name chunk hc)]
      exact Nat.zero_le _
    · obtain ⟨k, hk⟩ := List.mem_iff_getElem?.mp hc
      rw [chunk_sublist h1 hk]
      exact (blocksNeeded_sourceFiles_le _).trans (hfit k)
  refine ⟨hchunk, fun name hm hs => (mem_newSets hn).mpr ?_⟩
  have h1 : names.length ≠ 1 := fun h1 => hs (hsingle h1 name hm)
  obtain ⟨k, hk⟩ := mem_window hm
  have hlt : k * chunkSize < names.length := by
    by_contra hle
    rw [window_of_le (not_lt.mp hle)] at hk
    exact absurd hk List.not_mem_nil
  have hc := List.mem_of_getElem? (chunk_eq_window h1 hlt)
  exact ⟨window names k, hc, mem_sourceFiles.mpr ⟨hk, hbase name hm hs, hs⟩, hchunk _ hc⟩

lemma absolute_length (Y : DriveLetter) (p : RootPath) : (absolute Y p).length ≠ 1 := by
    simp [absolute]

/-- A finished run protects every non-empty file exactly when the sizes fit. -/
theorem recovery_covers_iff (X Y : DriveLetter) (locked : Text → Bool) (size : Text → FileSize)
    (paths : List RootPath) (existing : List Text)
    (h :
      (createRecovery X locked (fun _ => par2Create (basePath X) size)
        (.readable (baselineNames Y paths))
      existing).complete = true) :
    Covered X size (baselineNames Y paths)
      (createRecovery X locked (fun _ => par2Create (basePath X) size)
        (.readable (baselineNames Y paths)) existing).newSets ↔
      SizesFit X size (baselineNames Y paths) := by
  have hlong : ∀ name ∈ baselineNames Y paths, name.length ≠ 1 :=
    List.forall_mem_map.mpr (fun p _ => absolute_length Y p)
  rw [complete_newSets h]
  exact ⟨sizesFit_of_covered baselineNames_line hlong, covered_of_sizesFit baselineNames_line⟩

end Coverage

section Example

def driveE : DriveLetter := ⟨'E', isAlpha_E⟩

def twoPaths : List RootPath := [⟨"\\a".toList, rfl, by decide⟩, ⟨"\\b".toList, rfl, by decide⟩]

def allOf (n : FileSize) : Text → FileSize := fun _ => n

lemma run_complete (size : Text → FileSize) (names : List Text) :
    (createRecovery driveE (fun _ => false) (fun _ => par2Create (basePath driveE) size)
      (.readable names)
      []).complete = true := by
  rw [createRecovery_cleared (by decide) (fun _ _ => rfl)]
  rfl

theorem recovery_covers_small_files :
    Covered driveE (allOf ⟨1048576, by decide⟩) (baselineNames driveE twoPaths)
      (createRecovery driveE (fun _ => false)
        (fun _ => par2Create (basePath driveE) (allOf ⟨1048576, by decide⟩))
        (.readable (baselineNames driveE twoPaths)) []).newSets := by
  refine (recovery_covers_iff driveE driveE (fun _ => false) _ twoPaths [] (run_complete _ _)).mpr
    ⟨?_, ?_, ?_⟩
  · intro k
    have hsub : (window (baselineNames driveE twoPaths) k).toFinset ⊆
        (baselineNames driveE twoPaths).toFinset := by
      intro file hf
      rw [List.mem_toFinset] at hf ⊢
      exact window_subset k hf
    exact (Finset.sum_le_sum_of_subset hsub).trans (by decide +kernel)
  · exact fun name hm _ =>
      (by decide : ∀ name ∈ baselineNames driveE twoPaths, basePath driveE <:+: name) name hm
  · exact fun h => absurd h (by decide)

/-- Two files of 32 GiB exceed the block limit of their part. -/
theorem recovery_misses_large_files :
    (createRecovery driveE (fun _ => false)
        (fun _ => par2Create (basePath driveE) (allOf ⟨34359738368, by decide⟩))
        (.readable (baselineNames driveE twoPaths)) []).complete = true ∧
      ¬Covered driveE (allOf ⟨34359738368, by decide⟩) (baselineNames driveE twoPaths)
        (createRecovery driveE (fun _ => false)
          (fun _ => par2Create (basePath driveE) (allOf ⟨34359738368, by decide⟩))
          (.readable (baselineNames driveE twoPaths)) []).newSets := by
  refine ⟨run_complete _ _, fun h => ?_⟩
  rw [complete_newSets (run_complete _ _)] at h
  have hlong : ∀ name ∈ baselineNames driveE twoPaths, name.length ≠ 1 :=
    List.forall_mem_map.mpr (fun p _ => absolute_length driveE p)
  have hfit := (sizesFit_of_covered baselineNames_line hlong h).1 0
  have hw : window (baselineNames driveE twoPaths) 0 = baselineNames driveE twoPaths := by
    rw [window, Nat.zero_mul, List.drop_zero, List.take_of_length_le (by decide)]
  rw [hw] at hfit
  exact absurd hfit (by decide +kernel)

end Example

end DriveIntegrity.Integrity
