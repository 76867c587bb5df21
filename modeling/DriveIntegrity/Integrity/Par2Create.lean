import DriveIntegrity.Integrity.Recovery

/-! The files that `par2 c` protects, and the block count it refuses. -/

namespace DriveIntegrity.Integrity

section Engine

abbrev FileSize := {n : ℕ // n < 2 ^ 63}

def blockSize : ℕ := 1048576

/-- `std::getline` until the end of the file. -/
def getLines (current : Text) : Text → List Text
  | [] => if current = [] then [] else [current]
  | c :: rest => if c = '\n' then current :: getLines [] rest else getLines (current ++ [c]) rest

def stripReturn (line : Text) : Text := if line.getLast? = some '\r' then line.dropLast else line

def readFileList (content : Text) : List Text :=
  ((getLines [] content).map stripReturn).filter (fun line => decide (line ≠ []))

def writeAllLines (lines : List Text) : Text := lines.flatMap (fun line => line ++ ['\r', '\n'])

/-- The check of a raw file name. A file that does not exist is skipped like an empty one. -/
def addSource (basepath : Text) (size : Text → FileSize) (extrafiles : List Text)
    (filename : Text) : List Text :=
  if ¬basepath <:+: filename then extrafiles
  else if (size filename).1 = 0 then extrafiles
  else if filename ∈ extrafiles then extrafiles
  else extrafiles ++ [filename]

def sourceFiles (basepath : Text) (size : Text → FileSize) (rawfilenames : List Text) : List Text :=
  rawfilenames.foldl (addSource basepath size) []

/-- The body of the counting loop, on `u64`. -/
def addBlocks (size : Text → FileSize) (count : ℕ) (filename : Text) : ℕ :=
  (count + ((size filename).1 + blockSize - 1) % 2 ^ 64 / blockSize) % 2 ^ 64

def computeBlockCount (size : Text → FileSize) (extrafiles : List Text) : Option ℕ :=
  let count := extrafiles.foldl (addBlocks size) 0
  if 32768 < count then none else some count

/-- `par2 c` on a list file: the files of the set it creates, `none` when it refuses. -/
def par2Create (basepath : Text) (size : Text → FileSize) (listFile : Text) : Option (List Text) :=
  let extrafiles := sourceFiles basepath size (readFileList listFile)
  if extrafiles = [] then none else (computeBlockCount size extrafiles).map (fun _ => extrafiles)

end Engine

section FileLists

lemma getLines_line {line : Text} (h : '\n' ∉ line) (current rest : Text) :
    getLines current (line ++ '\n' :: rest) = (current ++ line) :: getLines [] rest := by
  induction line generalizing current with
  | nil => rw [List.nil_append, getLines, if_pos rfl, List.append_nil]
  | cons c line ih =>
    rw [List.mem_cons, not_or] at h
    rw [List.cons_append, getLines, if_neg (Ne.symm h.1), ih h.2, List.append_assoc,
      List.singleton_append]

lemma readFileList_writeAllLines {lines : List Text} (h : ∀ line ∈ lines, line ≠ [] ∧ '\n' ∉ line) :
    readFileList (writeAllLines lines) = lines := by
  have hlines : getLines [] (writeAllLines lines) = lines.map (fun line => line ++ ['\r']) := by
    induction lines with
    | nil => rfl
    | cons line lines ih =>
      have hr : '\n' ∉ line ++ ['\r'] := by
        rw [List.mem_append, not_or]
        exact ⟨(h line List.mem_cons_self).2, by decide⟩
      have hw :
          writeAllLines (line :: lines) = (line ++ ['\r']) ++ '\n' :: writeAllLines lines := by
        rw [writeAllLines, List.flatMap_cons, ← writeAllLines]
        simp
      rw [hw, getLines_line hr, List.nil_append,
        ih (fun l hl => h l (List.mem_cons_of_mem line hl)), List.map_cons]
  have hstrip : ∀ line : Text, stripReturn (line ++ ['\r']) = line := by
    intro line
    rw [stripReturn, if_pos (by simp), List.dropLast_concat]
  rw [readFileList, hlines, List.map_map]
  simp only [Function.comp_def, hstrip, List.map_id']
  rw [List.filter_eq_self]
  exact fun line hl => decide_eq_true (h line hl).1

end FileLists

section Sources

variable {basepath : Text} {size : Text → FileSize}

lemma mem_addSource {extrafiles : List Text} {filename file : Text} :
    file ∈ addSource basepath size extrafiles filename ↔
      file ∈ extrafiles ∨ file = filename ∧ basepath <:+: filename ∧ (size filename).1 ≠ 0 := by
  unfold addSource
  split_ifs with hb hs hm
  · simp [hs]
  · refine ⟨Or.inl, ?_⟩
    rintro (h | ⟨rfl, -⟩)
    · exact h
    · exact hm
  · rw [List.mem_append, List.mem_singleton]
    simp [hb, hs]
  · simp [hb]

lemma mem_foldl_addSource {rawfilenames extrafiles : List Text} {file : Text} :
    file ∈ rawfilenames.foldl (addSource basepath size) extrafiles ↔
      file ∈ extrafiles ∨ file ∈ rawfilenames ∧ basepath <:+: file ∧ (size file).1 ≠ 0 := by
  induction rawfilenames generalizing extrafiles with
  | nil => simp
  | cons filename rawfilenames ih =>
    rw [List.foldl_cons, ih, mem_addSource, List.mem_cons, or_assoc]
    refine or_congr_right ⟨?_, ?_⟩
    · rintro (⟨rfl, h⟩ | ⟨hm, h⟩)
      · exact ⟨Or.inl rfl, h⟩
      · exact ⟨Or.inr hm, h⟩
    · rintro ⟨rfl | hm, h⟩
      · exact Or.inl ⟨rfl, h⟩
      · exact Or.inr ⟨hm, h⟩

lemma mem_sourceFiles {rawfilenames : List Text} {file : Text} :
    file ∈ sourceFiles basepath size rawfilenames ↔
      file ∈ rawfilenames ∧ basepath <:+: file ∧ (size file).1 ≠ 0 := by
  rw [sourceFiles, mem_foldl_addSource]
  simp

lemma addSource_nodup {extrafiles : List Text} (h : extrafiles.Nodup) (filename : Text) :
    (addSource basepath size extrafiles filename).Nodup := by
  unfold addSource
  split_ifs with hb hs hm
  · exact h
  · exact h
  · refine List.nodup_append.mpr ⟨h, List.nodup_singleton _, ?_⟩
    rintro a ha b hb rfl
    exact hm (List.mem_singleton.mp hb ▸ ha)
  · exact h

lemma sourceFiles_nodup (rawfilenames : List Text) :
    (sourceFiles basepath size rawfilenames).Nodup := by
  have hfold : ∀ extrafiles : List Text, extrafiles.Nodup →
      (rawfilenames.foldl (addSource basepath size) extrafiles).Nodup := by
    induction rawfilenames with
    | nil => exact fun _ h => h
    | cons filename rawfilenames ih => exact fun _ h => ih _ (addSource_nodup h filename)
  exact hfold [] List.nodup_nil

end Sources

section Blocks

variable {basepath : Text} {size : Text → FileSize}

def fileBlocks (size : Text → FileSize) (file : Text) : ℕ :=
  ((size file).1 + blockSize - 1) / blockSize

def blocksNeeded (size : Text → FileSize) (files : List Text) : ℕ :=
  ∑ file ∈ files.toFinset, fileBlocks size file

lemma fileBlocks_le (file : Text) : fileBlocks size file ≤ 2 ^ 44 := by
  have := (size file).2
  rw [fileBlocks, blockSize]
  omega

lemma fileBlocks_eq_zero {file : Text} (h : (size file).1 = 0) : fileBlocks size file = 0 := by
  rw [fileBlocks, h, blockSize]

lemma foldl_addBlocks {files : List Text} {count : ℕ} (h : count + files.length * 2 ^ 44 < 2 ^ 64) :
    files.foldl (addBlocks size) count = count + (files.map (fileBlocks size)).sum := by
  induction files generalizing count with
  | nil => simp
  | cons file files ih =>
    have hs := (size file).2
    have hb : fileBlocks size file ≤ 2 ^ 44 := fileBlocks_le file
    rw [List.length_cons, Nat.succ_mul] at h
    have hstep : addBlocks size count file = count + fileBlocks size file := by
      rw [addBlocks, Nat.mod_eq_of_lt (a := (size file).1 + blockSize - 1)
        (by rw [blockSize]; omega), ← fileBlocks, Nat.mod_eq_of_lt (by omega)]
    rw [List.foldl_cons, hstep, ih (by omega), List.map_cons, List.sum_cons, Nat.add_assoc]

lemma sum_sourceFiles (rawfilenames : List Text) :
    ((sourceFiles basepath size rawfilenames).map (fileBlocks size)).sum =
      blocksNeeded size (sourceFiles basepath size rawfilenames) :=
  (List.sum_toFinset _ (sourceFiles_nodup rawfilenames)).symm

lemma sourceFiles_subset (rawfilenames : List Text) :
    (sourceFiles basepath size rawfilenames).toFinset ⊆ rawfilenames.toFinset := by
  intro file hf
  rw [List.mem_toFinset] at hf ⊢
  exact (mem_sourceFiles.mp hf).1

lemma sourceFiles_length_le (rawfilenames : List Text) :
    (sourceFiles basepath size rawfilenames).length ≤ rawfilenames.length := by
  rw [← List.toFinset_card_of_nodup (sourceFiles_nodup rawfilenames)]
  exact (Finset.card_le_card (sourceFiles_subset rawfilenames)).trans (List.toFinset_card_le _)

lemma blocksNeeded_sourceFiles_le (rawfilenames : List Text) :
    blocksNeeded size (sourceFiles basepath size rawfilenames) ≤ blocksNeeded size rawfilenames :=
  Finset.sum_le_sum_of_subset (sourceFiles_subset rawfilenames)

lemma blocksNeeded_sourceFiles {rawfilenames : List Text}
    (h : ∀ file ∈ rawfilenames, (size file).1 ≠ 0 → basepath <:+: file) :
    blocksNeeded size (sourceFiles basepath size rawfilenames) =
      blocksNeeded size rawfilenames := by
  refine Finset.sum_subset (sourceFiles_subset rawfilenames) (fun file hf hn => ?_)
  rw [List.mem_toFinset] at hf hn
  by_contra hb
  have hs : (size file).1 ≠ 0 := fun h0 => hb (fileBlocks_eq_zero h0)
  exact hn (mem_sourceFiles.mpr ⟨hf, h file hf hs, hs⟩)

lemma par2Create_eq {lines : List Text} (h : ∀ line ∈ lines, line ≠ [] ∧ '\n' ∉ line)
    (hl : lines.length ≤ chunkSize) :
    par2Create basepath size (writeAllLines lines) =
      if sourceFiles basepath size lines = [] ∨
        32768 < blocksNeeded size (sourceFiles basepath size lines) then none
      else some (sourceFiles basepath size lines) := by
  have hcount : (sourceFiles basepath size lines).foldl (addBlocks size) 0 =
      blocksNeeded size (sourceFiles basepath size lines) := by
    have hlen : (sourceFiles basepath size lines).length ≤ chunkSize :=
      (sourceFiles_length_le lines).trans hl
    rw [foldl_addBlocks (by rw [chunkSize] at hlen; omega), Nat.zero_add, sum_sourceFiles]
  rw [par2Create, readFileList_writeAllLines h, computeBlockCount, hcount]
  by_cases he : sourceFiles basepath size lines = []
  · rw [if_pos he, if_pos (Or.inl he)]
  · by_cases hb : 32768 < blocksNeeded size (sourceFiles basepath size lines)
    · rw [if_neg he, if_pos (Or.inr hb)]
      simp [hb]
    · rw [if_neg he, if_neg (not_or.mpr ⟨he, hb⟩)]
      simp [hb]

end Blocks

end DriveIntegrity.Integrity
