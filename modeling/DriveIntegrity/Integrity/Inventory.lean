import DriveIntegrity.Integrity.Culture
import DriveIntegrity.Library.HashTable

/-! File inventories of `quick_file_check`: hasher output keyed by normalised path. -/

namespace DriveIntegrity.Integrity

structure HashDigest where
  type : Text
  text : Text
  deriving DecidableEq

/-- A `fileobject` element; `hashdeep -c md5` puts at most one digest in it. -/
structure FileObject where
  filename : Option Text
  hashdigest : Option HashDigest
  mtime : Text
  deriving DecidableEq

variable (C : Culture)

def stripDrive : Text → Text
  | c :: ':' :: rest => if c.isAlpha then rest else c :: ':' :: rest
  | t => t

def stripDot : Text → Text
  | '.' :: '\\' :: rest => rest
  | t => t

def forwardSlash (c : Char) : Char := if c = '\\' then '/' else c

def inventoryKey (filename : Text) : Text :=
  C.lower ((stripDot (stripDrive filename)).map forwardSlash)

/-- PowerShell's hashtable: keys are equal when their lower-cased strings are. -/
abbrev Inventory := HashTable C.lower FileObject

def addNode (inventory : Inventory C) (node : FileObject) : Inventory C :=
  match node.filename with
  | none => inventory
  | some filename => inventory.set (inventoryKey C filename) node

/-- `Get-FileInventory` on the `fileobject` nodes of an inventory file. -/
def getFileInventory (nodes : List FileObject) : Inventory C :=
  nodes.foldl (addNode C) HashTable.empty

def FileObject.name (node : FileObject) : Text := node.filename.getD []

@[simp] lemma lower_key (p : Text) : C.lower (inventoryKey C p) = inventoryKey C p := lower_idem C _

lemma getFileInventory_entries (nodes : List FileObject) (hf : ∀ n ∈ nodes, n.filename.isSome)
    (hk : (nodes.map (fun n => inventoryKey C n.name)).Nodup) :
    (getFileInventory C nodes).entries = nodes.map (fun n => (inventoryKey C n.name, n)) := by
  have hfold : ∀ t : Inventory C, nodes.foldl (addNode C) t =
      (nodes.map (fun n => (inventoryKey C n.name, n))).foldl (fun t p => t.set p.1 p.2) t := by
    intro t
    rw [List.foldl_map]
    apply List.foldl_ext
    intro t n hn
    obtain ⟨f, hf⟩ := Option.isSome_iff_exists.mp (hf n hn)
    simp [addNode, FileObject.name, hf]
  rw [getFileInventory, hfold]
  apply HashTable.ofPairs_entries
  simpa [List.map_map, Function.comp_def] using hk

abbrev DriveLetter := {c : Char // c.isAlpha = true}

lemma isAlpha_E : 'E'.isAlpha = true := rfl

lemma isAlpha_F : 'F'.isAlpha = true := rfl

/-- A path below the drive root as the file system allows it: it starts with the separator, no
component contains the other one or a control character. -/
structure RootPath where
  text : Text
  head : text.head? = some '\\'
  allowed : ∀ c ∈ text, c ≠ '/' ∧ 32 ≤ c.toNat
  deriving DecidableEq

lemma RootPath.noSlash (p : RootPath) : '/' ∉ p.text := fun h => (p.allowed '/' h).1 rfl

def absolute (X : DriveLetter) (p : RootPath) : Text := X.val :: ':' :: p.text

structure File where
  path : RootPath
  hashdigest : Option HashDigest
  mtime : Text
  deriving DecidableEq

def fileObject (X : DriveLetter) (f : File) : FileObject :=
  ⟨some (absolute X f.path), f.hashdigest, f.mtime⟩

/-- A path up to letter case and separator style. -/
def foldedPath (p : RootPath) : Text := C.lower (p.text.map forwardSlash)

lemma stripDot_root (p : RootPath) : stripDot p.text = p.text := by
  have hh := p.head
  cases h : p.text with
  | nil => rfl
  | cons c t =>
    rw [h, List.head?_cons, Option.some.injEq] at hh
    subst hh
    rfl

@[simp] lemma key_absolute (X : DriveLetter) (p : RootPath) :
    inventoryKey C (absolute X p) = foldedPath C p := by
  rw [inventoryKey, absolute, stripDrive, if_pos X.property, stripDot_root, foldedPath]

lemma toLower_forwardSlash {c d : Char} (hc : c ≠ '/') (hd : d ≠ '/')
    (h : C.toLower (forwardSlash c) = C.toLower (forwardSlash d)) : C.toLower c = C.toLower d := by
  have hs : C.toLower '/' = '/' := (C.toLower_slash '/').mpr rfl
  unfold forwardSlash at h
  split_ifs at h with h₁ h₂ h₂
  · rw [h₁, h₂]
  · rw [hs] at h
    exact (hd ((C.toLower_slash d).mp h.symm)).elim
  · rw [hs] at h
    exact (hc ((C.toLower_slash c).mp h)).elim
  · exact h

lemma lower_of_folded {s t : Text} (hs : '/' ∉ s) (ht : '/' ∉ t)
    (h : C.lower (s.map forwardSlash) = C.lower (t.map forwardSlash)) : C.lower s = C.lower t := by
  induction s generalizing t with
  | nil =>
    cases t with
    | nil => rfl
    | cons d t => simp [Culture.lower] at h
  | cons c s ih =>
    cases t with
    | nil => simp [Culture.lower] at h
    | cons d t =>
      simp only [Culture.lower, List.map_cons, List.cons.injEq] at h ⊢
      simp only [List.mem_cons, not_or] at hs ht
      exact ⟨toLower_forwardSlash C (Ne.symm hs.1) (Ne.symm ht.1) h.1, ih hs.2 ht.2 h.2⟩

lemma foldedPath_nodup (files : List File)
    (h : (files.map (fun f => C.lower f.path.text)).Nodup) :
    (files.map (fun f => foldedPath C f.path)).Nodup := by
  have hn : files.Pairwise (fun f g => C.lower f.path.text ≠ C.lower g.path.text) := by
    simpa [List.Nodup, List.pairwise_map] using h
  rw [List.Nodup, List.pairwise_map]
  apply hn.imp
  intro f g hfg hk
  exact hfg (lower_of_folded C f.path.noSlash g.path.noSlash hk)

lemma mounted_entries (X : DriveLetter) (files : List File)
    (h : (files.map (fun f => foldedPath C f.path)).Nodup) :
    (getFileInventory C (files.map (fileObject X))).entries =
      files.map (fun f => (foldedPath C f.path, fileObject X f)) := by
  rw [getFileInventory_entries]
  · simp [List.map_map, Function.comp_def, FileObject.name, fileObject]
  · simp [fileObject]
  · simpa [List.map_map, Function.comp_def, FileObject.name, fileObject] using h

end DriveIntegrity.Integrity
