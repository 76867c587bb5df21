import DriveIntegrity.Integrity.MasterIndex
import DriveIntegrity.Walk.Folder

/-! `FileListGen` lists a tree through one path buffer. -/

namespace DriveIntegrity.Walk

open Integrity (Text DriveLetter RootPath absolute)

section Program

/-- `path.erase(n)`; `none` is `std::out_of_range`. -/
def erase (path : Text) (n : ℕ) : Option Text :=
  if n ≤ path.length then some (path.take n) else none

/-- The path buffer, which all calls share, and the lines written so far. -/
structure ListState where
  path : Text
  outFile : List Text

def listEntry (excludeToken : Text) (listFiles : ListState → Option ListState) (baseLength : ℕ)
    (s : ListState) (fd : FindData) : Option ListState :=
  if fd.cFileName.1 ≠ ".".toList ∧ fd.cFileName.1 ≠ "..".toList then
    let s := { s with path := s.path ++ fd.cFileName.1 }
    if isExcluded excludeToken fd.cFileName then
      (erase s.path baseLength).map (fun path => { s with path := path })
    else
      (if fd.isDirectory then listFiles s else some
        { s with outFile := s.outFile ++ [s.path] }).bind (fun s =>
        (erase s.path baseLength).map (fun path => { s with path := path }))
  else some s

/-- `listFiles`; the fuel bounds the depth of the recursion. -/
def listFiles (fs : FileSystem) (excludeToken : Text) : ℕ → ListState → Option ListState
  | 0, _ => none
  | fuel + 1, s =>
    let slash := s.path.getLast? = some '\\'
    let baseLength := if slash then s.path.length else s.path.length + 1
    let s := { s with path := if slash then s.path else s.path ++ ['\\'] }
    match fs (s.path ++ ['*']) with
    | none => some s
    | some found =>
        found.foldlM (listEntry excludeToken (listFiles fs excludeToken fuel) baseLength) s

/-- The lines that `wmain` writes. -/
def fileListGen (fs : FileSystem) (fuel : ℕ) (directory : Text) : Option (List Text) :=
  let root :=
    if 3 < directory.length ∧ directory.getLast? = some '\\' then directory.dropLast else directory
  (listFiles fs "integrity_check".toList fuel ⟨root, []⟩).map ListState.outFile

end Program

section Loop

variable {fs : FileSystem} {excludeToken : Text}

lemma erase_append (path rest : Text) : erase (path ++ rest) path.length = some path := by
  rw [erase, if_pos (by simp), List.take_left]

lemma getLast?_name (path : Text) (name : EntryName) : (path ++ name.1).getLast? ≠ some '\\' := by
  intro h
  rw [List.getLast?_append_of_ne_nil _ name.2.1] at h
  exact name.2.2 (List.mem_of_getLast? h)

lemma isDots_eq_false {name : EntryName} :
    Folder.isDots name = false ↔ name.1 ≠ ".".toList ∧ name.1 ≠ "..".toList := by
  rw [Folder.isDots, decide_eq_false_iff_not, not_or]

variable {call : ListState → Option ListState} {fd : FindData} {path : Text} {outFile : List Text}

lemma listEntry_skipped
    (h : Folder.isDots fd.cFileName = true ∨ isExcluded excludeToken fd.cFileName = true) :
    listEntry excludeToken call path.length ⟨path, outFile⟩ fd = some ⟨path, outFile⟩ := by
  rw [listEntry]
  by_cases hn : fd.cFileName.1 ≠ ".".toList ∧ fd.cFileName.1 ≠ "..".toList
  · have he := h.resolve_left (by simp [isDots_eq_false.mpr hn])
    rw [if_pos hn, if_pos he]
    simp only [erase_append, Option.map_some]
  · rw [if_neg hn]

lemma listEntry_visited (hd : Folder.isDots fd.cFileName = false)
    (he : isExcluded excludeToken fd.cFileName = false) :
    listEntry excludeToken call path.length ⟨path, outFile⟩ fd =
      (if fd.isDirectory then call ⟨path ++ fd.cFileName.1, outFile⟩
        else some ⟨path ++ fd.cFileName.1, outFile ++ [path ++ fd.cFileName.1]⟩).bind
        (fun s => (erase s.path path.length).map (fun p => { s with path := p })) := by
  rw [listEntry, if_pos (isDots_eq_false.mp hd), if_neg (by simp [he])]

lemma listFiles_open {path : Text} (hp : path.getLast? ≠ some '\\') {found : List FindData}
    (hfs : fs (path ++ "\\*".toList) = some found) (fuel : ℕ) (outFile : List Text) :
    listFiles fs excludeToken (fuel + 1) ⟨path, outFile⟩ =
      found.foldlM (listEntry excludeToken (listFiles fs excludeToken fuel) (path ++ ['\\']).length)
        ⟨path ++ ['\\'], outFile⟩ := by
  have hsearch : fs (path ++ ['\\'] ++ ['*']) = some found := by
    rw [List.append_assoc]
    exact hfs
  rw [listFiles]
  simp only [hp, if_false, hsearch, List.length_append, List.length_singleton]

lemma listFiles_closed {path : Text} (hp : path.getLast? ≠ some '\\')
    (hfs : fs (path ++ "\\*".toList) = none) (fuel : ℕ) (outFile : List Text) :
    listFiles fs excludeToken (fuel + 1) ⟨path, outFile⟩ = some ⟨path ++ ['\\'], outFile⟩ := by
  have hsearch : fs (path ++ ['\\'] ++ ['*']) = none := by
    rw [List.append_assoc]
    exact hfs
  rw [listFiles]
  simp only [hp, if_false, hsearch]

lemma listEntry_folder {name : EntryName} (hd : Folder.isDots name = false)
    (he : isExcluded excludeToken name = false) {rest : Text} {lines : List Text}
    (hcall : call ⟨path ++ '\\' :: name.1, outFile⟩ =
      some ⟨path ++ '\\' :: name.1 ++ rest, outFile ++ lines⟩) :
    listEntry excludeToken call (path ++ ['\\']).length ⟨path ++ ['\\'], outFile⟩
      ⟨name, true, 0, 0⟩ =
      some ⟨path ++ ['\\'], outFile ++ lines⟩ := by
  have hname : path ++ ['\\'] ++ name.1 = path ++ '\\' :: name.1 := by
    rw [List.append_assoc, List.singleton_append]
  have herase :
      erase (path ++ '\\' :: name.1 ++ rest) (path ++ ['\\']).length = some (path ++ ['\\']) := by
    rw [← hname, List.append_assoc (path ++ ['\\']), erase_append]
  rw [listEntry_visited hd he, if_pos rfl, hname, hcall, Option.bind_some, herase, Option.map_some]

lemma foldlM_listEntry (folder : Folder) {path : Text} (hfs : folder.Holds fs path) {fuel : ℕ}
    (hf : folder.height ≤ fuel) (outFile : List Text) :
    folder.found.foldlM
      (listEntry excludeToken (listFiles fs excludeToken fuel) (path ++ ['\\']).length)
        ⟨path ++ ['\\'], outFile⟩ =
      some
        ⟨path ++ ['\\'], outFile ++ (folder.visible excludeToken).map (FoundFile.path path)⟩ := by
  induction folder generalizing path fuel outFile with
  | done => simp [Folder.found, Folder.visible, Folder.files]
  | file name sizeHigh sizeLow rest ih =>
    rw [Folder.found, List.foldlM_cons]
    by_cases hskip : Folder.isDots name = true ∨ isExcluded excludeToken name = true
    · rw [listEntry_skipped hskip, visible_file_skipped hskip]
      exact ih hfs hf outFile
    · rw [not_or, Bool.not_eq_true, Bool.not_eq_true] at hskip
      have hstep : listEntry excludeToken (listFiles fs excludeToken fuel) (path ++ ['\\']).length
          ⟨path ++ ['\\'], outFile⟩ ⟨name, false, sizeHigh, sizeLow⟩ =
            some ⟨path ++ ['\\'], outFile ++ [path ++ ['\\'] ++ name.1]⟩ := by
        rw [listEntry_visited hskip.1 hskip.2, if_neg (by simp), Option.bind_some, erase_append,
          Option.map_some]
      have hline : FoundFile.path path ⟨[⟨name, true⟩], fileSize sizeHigh sizeLow⟩ =
          path ++ ['\\'] ++ name.1 := by
        simp [FoundFile.path]
      rw [hstep, visible_file_listed hskip.1 hskip.2, List.map_cons, hline]
      exact (ih hfs hf _).trans (by rw [List.append_assoc, List.singleton_append])
  | folder name opens entries rest ihe ih =>
    obtain ⟨hhere, hrest⟩ := hfs
    rw [Folder.height, max_le_iff] at hf
    rw [Folder.found, List.foldlM_cons]
    by_cases hskip : Folder.isDots name = true ∨ isExcluded excludeToken name = true
    · have hv : Folder.isDots name = true ∨
          ¬(opens = true ∧ isExcluded excludeToken name = false) :=
        hskip.imp_right (fun he h => by simp [he] at h)
      rw [listEntry_skipped hskip, visible_folder_skipped hv]
      exact ih hrest hf.2 outFile
    rw [not_or, Bool.not_eq_true, Bool.not_eq_true] at hskip
    obtain ⟨hd, he⟩ := hskip
    obtain ⟨hsearch, hbelow⟩ := hhere hd
    obtain ⟨fuel, rfl⟩ : ∃ n, fuel = n + 1 := ⟨fuel - 1, by omega⟩
    have hlast : (path ++ '\\' :: name.1).getLast? ≠ some '\\' := by
      have hl := getLast?_name (path ++ ['\\']) name
      rwa [List.append_assoc, List.singleton_append] at hl
    cases opens with
    | false =>
      have hcall : listFiles fs excludeToken (fuel + 1) ⟨path ++ '\\' :: name.1, outFile⟩ =
          some ⟨path ++ '\\' :: name.1 ++ ['\\'], outFile ++ []⟩ := by
        rw [listFiles_closed hlast hsearch, List.append_nil]
      rw [listEntry_folder hd he hcall, visible_folder_skipped (Or.inr (by simp)), List.append_nil]
      exact ih hrest hf.2 outFile
    | true =>
      have hcall : listFiles fs excludeToken (fuel + 1) ⟨path ++ '\\' :: name.1, outFile⟩ = _ :=
        listFiles_open hlast hsearch fuel outFile
      rw [ihe hbelow (by omega) outFile] at hcall
      rw [listEntry_folder hd he hcall, visible_folder_entered hd he, List.map_append,
        map_path_below]
      exact (ih hrest hf.2 _).trans (by rw [List.append_assoc])

end Loop

section Main

variable {fs : FileSystem}

lemma listFiles_slash (excludeToken : Text) (fuel : ℕ) (root : Root) (outFile : List Text) :
    listFiles fs excludeToken fuel ⟨root.base ++ ['\\'], outFile⟩ =
      listFiles fs excludeToken fuel ⟨root.base, outFile⟩ := by
  cases fuel with
  | zero => rfl
  | succ fuel =>
    rw [listFiles, listFiles]
    simp only [List.getLast?_append, List.getLast?_singleton, Option.some_or, if_true,
      root.bare, if_false, List.length_append, List.length_singleton]

lemma fileListGen_eq (fuel : ℕ) (root : Root) :
    fileListGen fs fuel root.text =
      (listFiles fs "integrity_check".toList fuel ⟨root.base, []⟩).map ListState.outFile := by
  have hdir : ∀ directory : Text, directory = root.base ∨ directory = root.base ++ ['\\'] →
      listFiles fs "integrity_check".toList fuel ⟨directory, []⟩ =
        listFiles fs "integrity_check".toList fuel ⟨root.base, []⟩ := by
    rintro _ (rfl | rfl)
    · rfl
    · exact listFiles_slash _ fuel root []
  unfold fileListGen
  dsimp only
  rw [hdir]
  by_cases hs : root.slash = true
  · have ht : root.text = root.base ++ ['\\'] := if_pos hs
    rw [ht]
    split_ifs
    · exact Or.inl List.dropLast_concat
    · exact Or.inr rfl
  · have ht : root.text = root.base := if_neg hs
    rw [ht]
    exact Or.inl (if_neg (fun h => root.bare h.2))

lemma fileListGen_visible {root : Root} {folder : Folder} (hm : Mounted fs root folder) {fuel : ℕ}
    (hf : folder.height < fuel) :
    fileListGen fs fuel root.text =
      some ((folder.visible "integrity_check".toList).map (FoundFile.path root.base)) := by
  obtain ⟨fuel, rfl⟩ : ∃ n, fuel = n + 1 := ⟨fuel - 1, by omega⟩
  rw [fileListGen_eq, listFiles_open root.bare hm.1, foldlM_listEntry folder hm.2 (by omega),
    Option.map_some, List.nil_append]

/-- The file that the scripts read back: on a drive, the lines in UTF-8. -/
lemma fileListGen_bytes {root : Root} {folder : Folder} (hm : Mounted fs root folder) {fuel : ℕ}
    (hf : folder.height < fuel) {X : DriveLetter} (hroot : root.base = [X.val, ':'])
    {paths : List RootPath}
    (hpaths : (folder.visible "integrity_check".toList).map (FoundFile.path []) =
      paths.map RootPath.text) :
    (fileListGen fs fuel root.text).map (fun lines => lines.flatMap fun line => utf8 line ++ [10]) =
      some (Integrity.fileListGen X paths) := by
  have hlines : (folder.visible "integrity_check".toList).map (FoundFile.path root.base) =
      paths.map (absolute X) := by
    have hbelow (f : FoundFile) : f.path root.base = [X.val, ':'] ++ f.path [] := by
      rw [hroot, FoundFile.path, FoundFile.path, List.nil_append]
    have hcons := congrArg (List.map ([X.val, ':'] ++ ·)) hpaths
    rw [List.map_map, List.map_map] at hcons
    rw [funext hbelow]
    exact hcons
  rw [fileListGen_visible hm hf, Option.map_some, hlines, Integrity.fileListGen, List.flatMap_map]

/-- The lister writes the path of each visible file once, in the order of the walk. -/
theorem fileListGen_lists_tree {fs : FileSystem} {root : Root} {folder : Folder}
    (hd : folder.Distinct) (hm : Mounted fs root folder) {fuel : ℕ} (hf : folder.height < fuel) :
    fileListGen fs fuel root.text =
        some ((folder.visible "integrity_check".toList).map (FoundFile.path root.base)) ∧
      ((folder.visible "integrity_check".toList).map (FoundFile.path root.base)).Nodup :=
  ⟨fileListGen_visible hm hf, visible_paths_nodup hd _ _⟩

def entryName (s : String) (h : s.toList ≠ [] ∧ '\\' ∉ s.toList := by decide) : EntryName :=
  ⟨s.toList, h⟩

def sampleDocs : Folder :=
  .file (entryName "b.txt") 0 7 (.folder (entryName "locked") false .done .done)

def sampleKept : Folder :=
  .file (entryName "kept.par2") 0 9 .done

/-- A drive with a folder that cannot be opened, a file below each of the excluded names, and files
on two levels. -/
def sampleDrive : Folder :=
  .folder (entryName ".") true .done
    (.folder (entryName "$RECYCLE.BIN") true sampleKept
      (.folder (entryName "docs") true sampleDocs
        (.folder (entryName "Integrity_Check") true sampleKept
          (.folder (entryName "System Volume Information") true sampleKept
            (.file (entryName "a.txt") 1 5 .done)))))

def sampleFileSystem : FileSystem := fun search =>
  ([("D:\\*".toList, sampleDrive.found), ("D:\\$RECYCLE.BIN\\*".toList, sampleKept.found),
    ("D:\\docs\\*".toList, sampleDocs.found), ("D:\\Integrity_Check\\*".toList, sampleKept.found),
    ("D:\\System Volume Information\\*".toList, sampleKept.found)] :
    List (Text × List FindData)).lookup search

def sampleRoot (slash : Bool) : Root := ⟨"D:".toList, slash, by decide, by decide⟩

lemma sampleDrive_mounted (slash : Bool) :
    Mounted sampleFileSystem (sampleRoot slash) sampleDrive := by
  have hdocs : sampleDocs.Holds sampleFileSystem "D:\\docs".toList :=
    ⟨fun _ => ⟨by decide, trivial⟩, trivial⟩
  have h : Mounted sampleFileSystem (sampleRoot true) sampleDrive :=
    ⟨by decide, fun h => absurd h (by decide), fun _ => ⟨by decide, trivial⟩,
      fun _ => ⟨by decide, hdocs⟩,
      fun _ => ⟨by decide, trivial⟩, fun _ => ⟨by decide, trivial⟩, trivial⟩
  exact h

theorem fileListGen_sample :
    fileListGen sampleFileSystem 3 "D:\\".toList =
      some ["D:\\docs\\b.txt".toList, "D:\\a.txt".toList] ∧
      ((sampleDrive.visible "integrity_check".toList).map (FoundFile.path "D:".toList)).Nodup := by
  have hlines :
      (sampleDrive.visible "integrity_check".toList).map (FoundFile.path (sampleRoot true).base) =
      ["D:\\docs\\b.txt".toList, "D:\\a.txt".toList] := by decide
  have h := fileListGen_lists_tree (show sampleDrive.Distinct by decide) (sampleDrive_mounted true)
    (show sampleDrive.height < 3 by decide)
  rw [hlines] at h
  exact ⟨h.1, by decide⟩

end Main

end DriveIntegrity.Walk
