import DriveIntegrity.Integrity.CreateRecovery

/-! The list files that `create_recovery` writes, one for each chunk of the baseline. -/

namespace DriveIntegrity.Integrity

section Files

structure ListFile where
  path : Text
  lines : List Text

def partPath (chunkIndex : ℕ) : Text := "files_part".toList ++ decimal chunkIndex ++ ".txt".toList

/-- The list files of the PAR2 loop from `$chunkIndex` on. -/
def writeParts (chunkIndex : ℕ) : List (List Text) → List ListFile
  | [] => []
  | chunk :: chunks => ⟨partPath chunkIndex, chunk⟩ :: writeParts (chunkIndex + 1) chunks

def partFiles (names : List Text) : List ListFile := writeParts 1 (chunks names)

/-- Every name is listed once and in order, and all parts but the last are full. -/
structure Lossless (names : List Text) (files : List ListFile) : Prop where
  numbered : files.map ListFile.path = (List.range' 1 files.length).map partPath
  complete : files.flatMap ListFile.lines = names
  nonempty : ∀ f ∈ files, f.lines ≠ []
  full : ∀ f ∈ files.dropLast, f.lines.length = 25000

end Files

section Chunks

variable {names : List Text} {i : ℕ}

lemma chunkLoop_flatten (names : List Text) (i : ℕ) :
    (chunkLoop (.array names) i).flatten = names.drop i := by
  by_cases h : i < names.length
  · have hrest := chunkLoop_flatten names (i + chunkSize)
    rw [chunkLoop_array names h, List.flatten_cons, hrest, ← List.drop_drop, List.take_append_drop]
  · rw [chunkLoop_of_le (not_lt.mp h), List.flatten_nil, List.drop_eq_nil_of_le (not_lt.mp h)]
termination_by names.length - i
decreasing_by simp only [chunkSize]; omega

lemma chunk_window {chunk : List Text} (hc : chunk ∈ chunkLoop (.array names) 0) :
    ∃ k, k * chunkSize < names.length ∧ (chunkLoop (.array names) 0)[k]? = some chunk ∧
      chunk = (names.drop (k * chunkSize)).take chunkSize := by
  obtain ⟨k, hk⟩ := List.mem_iff_getElem?.mp hc
  have hw := chunkLoop_getElem? names k 0
  rw [Nat.zero_add, hk] at hw
  split_ifs at hw with hlt
  exact ⟨k, hlt, hk, Option.some.inj hw⟩

lemma chunk_ne_nil {chunk : List Text} (hc : chunk ∈ chunkLoop (.array names) 0) : chunk ≠ [] := by
  obtain ⟨k, hk, _, rfl⟩ := chunk_window hc
  apply List.ne_nil_of_length_pos
  rw [List.length_take, List.length_drop, chunkSize]
  rw [chunkSize] at hk
  omega

lemma chunk_full {chunk : List Text} (hc : chunk ∈ (chunkLoop (.array names) 0).dropLast) :
    chunk.length = chunkSize := by
  obtain ⟨k, hk⟩ := List.mem_iff_getElem?.mp hc
  have hlt : k < (chunkLoop (.array names) 0).dropLast.length := (List.getElem?_eq_some_iff.mp hk).1
  rw [List.length_dropLast] at hlt
  have hnext := chunkLoop_getElem? names (k + 1) 0
  have hw := chunkLoop_getElem? names k 0
  rw [List.getElem?_eq_getElem (by omega), Nat.zero_add] at hnext
  rw [List.getElem?_dropLast, if_pos hlt] at hk
  rw [hk, Nat.zero_add] at hw
  split_ifs at hnext with hlast
  split_ifs at hw
  rw [Option.some.inj hw, List.length_take, List.length_drop]
  rw [chunkSize] at *
  omega

end Chunks

section Parts

lemma writeParts_lines (chunkIndex : ℕ) (parts : List (List Text)) :
    (writeParts chunkIndex parts).map ListFile.lines = parts := by
  induction parts generalizing chunkIndex with
  | nil => rfl
  | cons chunk parts ih => simp only [writeParts, List.map_cons, ih]

lemma writeParts_paths (chunkIndex : ℕ) (parts : List (List Text)) :
    (writeParts chunkIndex parts).map ListFile.path =
      (List.range' chunkIndex parts.length).map partPath := by
  induction parts generalizing chunkIndex with
  | nil => rfl
  | cons chunk parts ih =>
      simp only [writeParts, List.map_cons, ih, List.length_cons, List.range'_succ]

lemma writeParts_length (chunkIndex : ℕ) (parts : List (List Text)) :
    (writeParts chunkIndex parts).length = parts.length := by
  simpa only [List.length_map] using congrArg List.length (writeParts_lines chunkIndex parts)

lemma lossless_writeParts_iff {names : List Text} (parts : List (List Text)) :
    Lossless names (writeParts 1 parts) ↔
      parts.flatten = names ∧ (∀ chunk ∈ parts, chunk ≠ []) ∧ ∀ chunk ∈ parts.dropLast,
      chunk.length = 25000 := by
  have hlines := writeParts_lines 1 parts
  have hflat : (writeParts 1 parts).flatMap ListFile.lines = parts.flatten := by
    rw [List.flatMap_def, hlines]
  have hne : (∀ f ∈ writeParts 1 parts, f.lines ≠ []) ↔ ∀ chunk ∈ parts, chunk ≠ [] := by
    conv_rhs => rw [← hlines, List.forall_mem_map]
  have hfull : (∀ f ∈ (writeParts 1 parts).dropLast, f.lines.length = 25000) ↔
      ∀ chunk ∈ parts.dropLast, chunk.length = 25000 := by
    conv_rhs => rw [← hlines, ← List.map_dropLast, List.forall_mem_map]
  rw [← hflat, ← hne, ← hfull]
  constructor
  · exact fun h => ⟨h.complete, h.nonempty, h.full⟩
  · rintro ⟨hcomplete, hnonempty, hlength⟩
    refine ⟨?_, hcomplete, hnonempty, hlength⟩
    rw [writeParts_length]
    exact writeParts_paths 1 parts

/-- Chunking loses nothing exactly when there is not one name alone, of more than one character. -/
theorem chunking_lossless_iff (names : List Text) :
    Lossless names (partFiles names) ↔ ∀ name, names = [name] → name.length = 1 := by
  rw [partFiles, lossless_writeParts_iff]
  by_cases h : names.length = 1
  · obtain ⟨name, rfl⟩ := List.length_eq_one_iff.mp h
    rw [chunks_single]
    match name with
    | [] => simp
    | [c] => simp
    | c :: d :: rest => simp
  · rw [ofNames_array h]
    refine iff_of_true ⟨chunkLoop_flatten names 0, fun _ => chunk_ne_nil, fun _ => chunk_full⟩ ?_
    rintro name rfl
    exact absurd rfl h

/-- The list file of a baseline with one file holds the letter of its drive. -/
theorem single_name_lost : ¬Lossless ["E:\\a".toList] (partFiles ["E:\\a".toList]) ∧
    (partFiles ["E:\\a".toList]).map ListFile.lines = [[['E']]] := by
  constructor
  · intro h
    have hlines := h.complete
    rw [partFiles, chunks_single] at hlines
    exact absurd hlines (by decide)
  · rw [partFiles, writeParts_lines, chunks_single]
    rfl

end Parts

end DriveIntegrity.Integrity
