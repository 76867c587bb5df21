import DriveIntegrity.Integrity.ListBytes
import Mathlib

/-! File names on the command line of par2, and a list file in their place. -/

namespace DriveIntegrity.Integrity

section Program

/-- What a search of `FindFirstFileW` and `FindNextFileW` finds; a folder comes with what a search
for `*` finds in it. -/
inductive DirEntry
  | file (cFileName : Text)
  | folder (cFileName : Text) (entries : List DirEntry)

structure FileSystem where
  findFirstFile : Text → List DirEntry
  /-- `GetFullPathNameW`; `none` when it fails. -/
  getFullPathName : Text → Option Text
  /-- Zero for what is not a regular file as well. -/
  getFileSize : Text → FileSize
  /-- The content of a file that can be opened. -/
  openFile : Text → Option Text

/-- `find_last_of(PATHSEP)` or else `find_last_of(ALTPATHSEP)`. -/
def splitFilename (filename : Text) : Text × Text :=
  let after (sep : Char) : Text := (filename.reverse.takeWhile (fun c => decide (c ≠ sep))).reverse
  let before (sep : Char) : Text := (filename.reverse.dropWhile (fun c => decide (c ≠ sep))).reverse
  if '\\' ∈ filename then (before '\\', after '\\')
  else if '/' ∈ filename then (before '/', after '/')
  else (".\\".toList, filename)

def withSeparator (path : Text) : Text := if path.getLast? = some '\\' then path else path ++ ['\\']

mutual

def DirEntry.files (recursive : Bool) (path : Text) : DirEntry → List Text
  | .file cFileName => [path ++ cFileName]
  | .folder cFileName entries =>
    if recursive = true ∧ cFileName.head? ≠ some '.' then
      entryFiles recursive (withSeparator (path ++ cFileName)) entries
    else []

def entryFiles (recursive : Bool) (path : Text) : List DirEntry → List Text
  | [] => []
  | entry :: entries => entry.files recursive path ++ entryFiles recursive path entries

end

variable (fs : FileSystem) (recursive : Bool)

def findFiles (path wildcard : Text) : List Text :=
  entryFiles recursive (withSeparator path) (fs.findFirstFile (withSeparator path ++ wildcard))

def getCanonicalPathname (filename : Text) : Text :=
  match fs.getFullPathName filename with
  | none => filename
  | some [] => []
  | some (c :: fullname) => (c.toUpper :: fullname).map (fun c => if c = '/' then '\\' else c)

end Program

section Order

variable {basepath : Text} {size : Text → FileSize}

end Order

section Agreement

variable (fs : FileSystem) (recursive : Bool) (basepath : Text)

/-- The full path of a file, with its letter in upper case. -/
def fullName (q : Text) : Option Text :=
  match fs.getFullPathName q with
  | some (c :: rest) => some (c.toUpper :: rest)
  | _ => none

/-- An upper-case drive letter (or a share), backslashes, no relative parts (the name is its own
full path), and the file's name as the drive has it. -/
structure WellSpelled (name : Text) : Prop where
  letter : ∃ c rest, name = c :: rest ∧ (c.isUpper = true ∨ c = '\\')
  backslashes : '\\' ∈ name ∧ '/' ∉ name
  absolute : fs.getFullPathName name = some name
  onDisk : fs.findFirstFile name = [.file (splitFilename name).2]

/-- What Windows documents for a file that a search has found: it has a full path, with its letter
first, which is its own full path and under which a search finds that file alone. -/
def FileSystem.Documented : Prop :=
  ∀ path wildcard, ∀ q ∈ findFiles fs recursive path wildcard, ∃ c rest,
    fs.getFullPathName q = some (c :: rest) ∧ (c.isAlpha = true ∨ c = '\\') ∧
      '\\' ∈ rest ∧ '/' ∉ rest ∧
      fs.getFullPathName (c.toUpper :: rest) = some (c.toUpper :: rest) ∧
      fs.findFirstFile (c.toUpper :: rest) = [.file (splitFilename (c.toUpper :: rest)).2]

variable {fs recursive basepath}

lemma map_backslash {name : Text} (h : '/' ∉ name) :
    name.map (fun c => if c = '/' then '\\' else c) = name := by
  conv_rhs => rw [← List.map_id name]
  apply List.map_congr_left
  intro c hc
  rw [if_neg, id]
  rintro rfl
  exact h hc

lemma FileSystem.Documented.found (hfs : fs.Documented recursive) {path wildcard q : Text}
    (hq : q ∈ findFiles fs recursive path wildcard) :
    fullName fs q = some (getCanonicalPathname fs q) ∧
      WellSpelled fs (getCanonicalPathname fs q) := by
  obtain ⟨c, rest, hfull, hc, hback, hslash, hself, hfound⟩ := hfs path wildcard q hq
  have hupper : c.toUpper.isUpper = true ∨ c.toUpper = '\\' := by
    rcases hc with hc | rfl
    · exact .inl ((Char.isUpper_toUpper_eq_isAlpha c).trans hc)
    · exact .inr rfl
  have hclean : '/' ∉ c.toUpper :: rest := by
    rw [List.mem_cons, not_or]
    refine ⟨?_, hslash⟩
    rintro he
    rw [← he] at hupper
    exact absurd hupper (by decide)
  have hcanonical : getCanonicalPathname fs q = c.toUpper :: rest := by
    rw [getCanonicalPathname, hfull]
    exact map_backslash hclean
  rw [hcanonical, fullName, hfull]
  exact ⟨rfl, ⟨_, _, rfl, hupper⟩, ⟨List.mem_cons_of_mem _ hback, hclean⟩, hself, hfound⟩

end Agreement

section Lowercase

lemma zero_fits : 0 < 2 ^ 63 := by decide

end Lowercase

end DriveIntegrity.Integrity
