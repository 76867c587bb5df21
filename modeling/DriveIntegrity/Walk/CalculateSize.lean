import DriveIntegrity.Walk.ListFiles

/-! The estimator adds up the files that the lister lists. -/

namespace DriveIntegrity.Walk

open Integrity (Text)

section Program

def FindData.bytes (fd : FindData) : BitVec 64 :=
  fd.nFileSizeHigh.setWidth 64 <<< 32 ||| fd.nFileSizeLow.setWidth 64

def sizeEntry (calculateSize : Text → BitVec 64 → Option (BitVec 64)) (path : Text)
    (totalBytes : BitVec 64) (fd : FindData) : Option (BitVec 64) :=
  if fd.cFileName.1 = ".".toList ∨ fd.cFileName.1 = "..".toList then some totalBytes
  else if isExcluded "integrity_check".toList fd.cFileName then some totalBytes
  else if fd.isDirectory then calculateSize (path ++ fd.cFileName.1) totalBytes
  else some (totalBytes + fd.bytes)

/-- `calculateSize`; the fuel bounds the depth of the recursion. -/
def calculateSize (fs : FileSystem) : ℕ → Text → BitVec 64 → Option (BitVec 64)
  | 0, _, _ => none
  | fuel + 1, path, totalBytes =>
    if path = [] then some totalBytes
    else
      let path := if path.getLast? = some '\\' then path else path ++ ['\\']
      match fs (path ++ ['*']) with
      | none => some totalBytes
      | some found => found.foldlM (sizeEntry (calculateSize fs fuel) path) totalBytes

end Program

section Loop

variable {fs : FileSystem}

lemma bytes_eq (fd : FindData) :
    fd.bytes = BitVec.ofNat 64 (fileSize fd.nFileSizeHigh fd.nFileSizeLow) := by
  have hh := fd.nFileSizeHigh.isLt
  have hl := fd.nFileSizeLow.isLt
  apply BitVec.eq_of_toNat_eq
  rw [FindData.bytes, BitVec.toNat_or, BitVec.toNat_shiftLeft, BitVec.toNat_setWidth,
    BitVec.toNat_setWidth, BitVec.toNat_ofNat, fileSize,
    Nat.mod_eq_of_lt (a := fd.nFileSizeLow.toNat) (by omega),
    Nat.mod_eq_of_lt (a := fd.nFileSizeHigh.toNat) (by omega), Nat.shiftLeft_eq,
    Nat.mod_eq_of_lt (by omega), ← Nat.shiftLeft_eq, ← Nat.shiftLeft_add_eq_or_of_lt (by omega),
    Nat.shiftLeft_eq, Nat.mod_eq_of_lt (by omega)]

def sumOf (files : List FoundFile) : BitVec 64 := BitVec.ofNat 64 (files.map FoundFile.size).sum

lemma sumOf_append (files others : List FoundFile) :
    sumOf (files ++ others) = sumOf files + sumOf others := by
  rw [sumOf, List.map_append, List.sum_append, BitVec.ofNat_add, sumOf, sumOf]

lemma sumOf_cons (f : FoundFile) (files : List FoundFile) :
    sumOf (f :: files) = BitVec.ofNat 64 f.size + sumOf files := by
  rw [sumOf, List.map_cons, List.sum_cons, BitVec.ofNat_add, sumOf]

lemma sumOf_below (c : Component) (files : List FoundFile) :
    sumOf (files.map (FoundFile.below c)) = sumOf files := by
  rw [sumOf, List.map_map, sumOf]
  rfl

variable {call : Text → BitVec 64 → Option (BitVec 64)} {fd : FindData} {path : Text}
  {totalBytes : BitVec 64}

lemma sizeEntry_skipped
    (h : Folder.isDots fd.cFileName = true ∨
      isExcluded "integrity_check".toList fd.cFileName = true) :
    sizeEntry call path totalBytes fd = some totalBytes := by
  rw [sizeEntry]
  by_cases hd : fd.cFileName.1 = ".".toList ∨ fd.cFileName.1 = "..".toList
  · rw [if_pos hd]
  · rw [if_neg hd, if_pos]
    exact h.resolve_left (by rw [Folder.isDots]; simpa using hd)

lemma sizeEntry_visited (hd : Folder.isDots fd.cFileName = false)
    (he : isExcluded "integrity_check".toList fd.cFileName = false) :
    sizeEntry call path totalBytes fd =
      if fd.isDirectory then call (path ++ fd.cFileName.1) totalBytes
        else some (totalBytes + fd.bytes) := by
  rw [Folder.isDots, decide_eq_false_iff_not] at hd
  rw [sizeEntry, if_neg hd, he, if_neg (by simp)]

lemma calculateSize_open {path : Text} (hp : path.getLast? ≠ some '\\') (hne : path ≠ [])
    {found : List FindData}
    (hfs : fs (path ++ "\\*".toList) = some found) (fuel : ℕ) (totalBytes : BitVec 64) :
    calculateSize fs (fuel + 1) path totalBytes =
      found.foldlM (sizeEntry (calculateSize fs fuel) (path ++ ['\\'])) totalBytes := by
  have hsearch : fs (path ++ ['\\'] ++ ['*']) = some found := by
    rw [List.append_assoc]
    exact hfs
  rw [calculateSize, if_neg hne]
  simp only [hp, if_false, hsearch]

lemma calculateSize_closed {path : Text} (hp : path.getLast? ≠ some '\\') (hne : path ≠ [])
    (hfs : fs (path ++ "\\*".toList) = none) (fuel : ℕ) (totalBytes : BitVec 64) :
    calculateSize fs (fuel + 1) path totalBytes = some totalBytes := by
  have hsearch : fs (path ++ ['\\'] ++ ['*']) = none := by
    rw [List.append_assoc]
    exact hfs
  rw [calculateSize, if_neg hne]
  simp only [hp, if_false, hsearch]

lemma foldlM_sizeEntry (folder : Folder) {path : Text} (hfs : folder.Holds fs path) {fuel : ℕ}
    (hf : folder.height ≤ fuel) (totalBytes : BitVec 64) :
    folder.found.foldlM (sizeEntry (calculateSize fs fuel) (path ++ ['\\'])) totalBytes =
      some (totalBytes + sumOf (folder.visible "integrity_check".toList)) := by
  induction folder generalizing path fuel totalBytes with
  | done => simp [Folder.found, Folder.visible, Folder.files, sumOf]
  | file name sizeHigh sizeLow rest ih =>
    rw [Folder.found, List.foldlM_cons]
    by_cases hskip : Folder.isDots name = true ∨ isExcluded "integrity_check".toList name = true
    · rw [sizeEntry_skipped hskip, visible_file_skipped hskip]
      exact ih hfs hf totalBytes
    · rw [not_or, Bool.not_eq_true, Bool.not_eq_true] at hskip
      rw [sizeEntry_visited hskip.1 hskip.2, if_neg (by simp), bytes_eq,
        visible_file_listed hskip.1 hskip.2, sumOf_cons, ← BitVec.add_assoc]
      exact ih hfs hf _
  | folder name opens entries rest ihe ih =>
    obtain ⟨hhere, hrest⟩ := hfs
    rw [Folder.height, max_le_iff] at hf
    rw [Folder.found, List.foldlM_cons]
    by_cases hskip : Folder.isDots name = true ∨ isExcluded "integrity_check".toList name = true
    · have hv : Folder.isDots name = true ∨
          ¬(opens = true ∧ isExcluded "integrity_check".toList name = false) :=
        hskip.imp_right (fun he h => Bool.noConfusion (he.symm.trans h.2))
      rw [sizeEntry_skipped hskip, visible_folder_skipped hv]
      exact ih hrest hf.2 totalBytes
    rw [not_or, Bool.not_eq_true, Bool.not_eq_true] at hskip
    obtain ⟨hd, he⟩ := hskip
    obtain ⟨hsearch, hbelow⟩ := hhere hd
    obtain ⟨fuel, rfl⟩ : ∃ n, fuel = n + 1 := ⟨fuel - 1, by omega⟩
    have hname : path ++ ['\\'] ++ name.1 = path ++ '\\' :: name.1 := by
      rw [List.append_assoc, List.singleton_append]
    have hlast : (path ++ '\\' :: name.1).getLast? ≠ some '\\' :=
      hname ▸ getLast?_name (path ++ ['\\']) name
    have hne : path ++ '\\' :: name.1 ≠ [] := by simp
    rw [sizeEntry_visited hd he, if_pos rfl, hname]
    cases opens with
    | false =>
      rw [calculateSize_closed hlast hne hsearch, visible_folder_skipped (Or.inr (by simp))]
      exact ih hrest hf.2 totalBytes
    | true =>
      rw [calculateSize_open hlast hne hsearch, ihe hbelow (by omega),
        visible_folder_entered hd he, sumOf_append, sumOf_below, ← BitVec.add_assoc]
      exact ih hrest hf.2 _

end Loop

section Main

variable {fs : FileSystem}

lemma calculateSize_slash (fuel : ℕ) (root : Root) (totalBytes : BitVec 64) :
    calculateSize fs fuel (root.base ++ ['\\']) totalBytes =
      calculateSize fs fuel root.base totalBytes := by
  cases fuel with
  | zero => rfl
  | succ fuel =>
    rw [calculateSize, calculateSize, if_neg (by simp), if_neg root.nonempty]
    simp only [List.getLast?_append, List.getLast?_singleton, Option.some_or, if_true,
      root.bare, if_false]

lemma calculateSize_visible {root : Root} {folder : Folder} (hm : Mounted fs root folder) {fuel : ℕ}
    (hf : folder.height < fuel) :
    calculateSize fs fuel root.text 0 = some (sumOf (folder.visible "integrity_check".toList)) := by
  obtain ⟨fuel, rfl⟩ : ∃ n, fuel = n + 1 := ⟨fuel - 1, by omega⟩
  have hbase : calculateSize fs (fuel + 1) root.base 0 =
      some (sumOf (folder.visible "integrity_check".toList)) := by
    rw [calculateSize_open root.bare root.nonempty hm.1, foldlM_sizeEntry folder hm.2 (by omega)]
    exact congrArg some (BitVec.zero_add _)
  rw [Root.text]
  split_ifs
  · rw [calculateSize_slash, hbase]
  · exact hbase

/-- The estimator's total is the size of the files that the lister lists, modulo 2^64. -/
theorem estimate_of_listed {fs : FileSystem} {base : Text} {root root' : Root} {folder : Folder}
    (hb : root.base = base) (hb' : root'.base = base) (hm : Mounted fs root folder) {fuel : ℕ}
    (hf : folder.height < fuel) :
    ∃ listed : List FoundFile, listed.Sublist folder.files ∧
      fileListGen fs fuel root.text = some (listed.map (FoundFile.path base)) ∧
      calculateSize fs fuel root'.text 0 =
        some (BitVec.ofNat 64 (listed.map FoundFile.size).sum) := by
  subst hb
  have hm' : Mounted fs root' folder := by
    rw [Mounted, hb']
    exact hm
  exact ⟨folder.visible "integrity_check".toList, List.filter_sublist, fileListGen_visible hm hf,
    calculateSize_visible hm' hf⟩

/-- The lister gets the drive with a separator at its end, the estimator without one. -/
theorem estimate_of_listed_sample :
    ∃ listed : List FoundFile, listed.Sublist sampleDrive.files ∧
      fileListGen sampleFileSystem 3 "D:\\".toList =
        some (listed.map (FoundFile.path "D:".toList)) ∧
      calculateSize sampleFileSystem 3 "D:".toList 0 =
        some (BitVec.ofNat 64 (listed.map FoundFile.size).sum) :=
  @estimate_of_listed sampleFileSystem "D:".toList (sampleRoot true) (sampleRoot false)
    sampleDrive rfl rfl
    (sampleDrive_mounted true) 3 (by decide)

end Main

end DriveIntegrity.Walk
