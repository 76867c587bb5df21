import DriveIntegrity.Integrity.Culture
import Mathlib.Tactic

/-! Directory trees, and the enumeration of a folder by its search path. -/

namespace DriveIntegrity.Walk

open Integrity (Text)

/-- A name in a folder; the file system allows neither an empty one nor the separator. -/
abbrev EntryName := {t : Text // t ≠ [] ∧ '\\' ∉ t}

/-- The fields of `WIN32_FIND_DATAW` that the tools read. -/
structure FindData where
  cFileName : EntryName
  isDirectory : Bool
  nFileSizeHigh : BitVec 32
  nFileSizeLow : BitVec 32
  deriving DecidableEq

/-- `FindFirstFileExW` with all the calls of `FindNextFileW`; `none` is `INVALID_HANDLE_VALUE`. -/
abbrev FileSystem := Text → Option (List FindData)

/-- What a folder holds, in the order in which it is enumerated. -/
inductive Folder
  | done
  | file (name : EntryName) (sizeHigh sizeLow : BitVec 32) (rest : Folder)
  | folder (name : EntryName) (opens : Bool) (entries rest : Folder)

namespace Folder

def found : Folder → List FindData
  | done => []
  | file name sizeHigh sizeLow rest => ⟨name, false, sizeHigh, sizeLow⟩ :: rest.found
  | folder name _ _ rest => ⟨name, true, 0, 0⟩ :: rest.found

def height : Folder → ℕ
  | done => 0
  | file _ _ _ rest => rest.height
  | folder _ _ entries rest => max (entries.height + 1) rest.height

/-- `.` and `..` stand for the folder itself and the one above. -/
def isDots (name : EntryName) : Bool := decide (name.1 = ".".toList ∨ name.1 = "..".toList)

/-- The file system holds the folder at a path that has no separator at its end. -/
def Holds (fs : FileSystem) (path : Text) : Folder → Prop
  | done => True
  | file _ _ _ rest => rest.Holds fs path
  | folder name opens entries rest =>
    (isDots name = false →
      fs (path ++ '\\' :: name.1 ++ "\\*".toList) = (if opens then some entries.found else none) ∧
        entries.Holds fs (path ++ '\\' :: name.1)) ∧ rest.Holds fs path

/-- The names in one folder differ, at every level. -/
def Distinct : Folder → Prop
  | done => True
  | file name _ _ rest => name ∉ rest.found.map FindData.cFileName ∧ rest.Distinct
  | folder name _ entries rest =>
    name ∉ rest.found.map FindData.cFileName ∧ entries.Distinct ∧ rest.Distinct

instance decidableDistinct : (f : Folder) → Decidable f.Distinct
  | done => inferInstanceAs (Decidable True)
  | file name _ _ rest =>
    have := decidableDistinct rest
    inferInstanceAs (Decidable (name ∉ rest.found.map FindData.cFileName ∧ rest.Distinct))
  | folder name _ entries rest =>
    have := decidableDistinct entries
    have := decidableDistinct rest
    inferInstanceAs
      (Decidable (name ∉ rest.found.map FindData.cFileName ∧ entries.Distinct ∧ rest.Distinct))

end Folder

/-- A step of the way to a file: a name, and whether the folder of this name can be opened. -/
structure Component where
  name : EntryName
  opens : Bool
  deriving DecidableEq

structure FoundFile where
  way : List Component
  size : ℕ
  deriving DecidableEq

def fileSize (sizeHigh sizeLow : BitVec 32) : ℕ := sizeHigh.toNat * 2 ^ 32 + sizeLow.toNat

def FoundFile.below (c : Component) (f : FoundFile) : FoundFile := { f with way := c :: f.way }

namespace Folder

def files : Folder → List FoundFile
  | done => []
  | file name sizeHigh sizeLow rest =>
    if isDots name then rest.files else ⟨[⟨name, true⟩], fileSize sizeHigh sizeLow⟩ :: rest.files
  | folder name opens entries rest =>
    if isDots name then
      rest.files else entries.files.map (FoundFile.below ⟨name, opens⟩) ++ rest.files

end Folder

/-- `_wcsicmp(..) == 0`, which folds ASCII letters. -/
def wcsicmp (s t : Text) : Bool := decide (s.map Char.toLower = t.map Char.toLower)

def isExcluded (excludeToken : Text) (name : EntryName) : Bool :=
  wcsicmp name.1 excludeToken || wcsicmp name.1 "System Volume Information".toList ||
    wcsicmp name.1 "$RECYCLE.BIN".toList

/-- The way to the file leads through open folders, and no name on it is excluded. -/
def FoundFile.Visible (excludeToken : Text) (f : FoundFile) : Prop :=
  ∀ c ∈ f.way, c.opens = true ∧ isExcluded excludeToken c.name = false

instance (excludeToken : Text) (f : FoundFile) : Decidable (f.Visible excludeToken) :=
  inferInstanceAs (Decidable (∀ c ∈ f.way, _))

def FoundFile.path (root : Text) (f : FoundFile) : Text :=
  root ++ f.way.flatMap (fun c => '\\' :: c.name.1)

def Folder.visible (excludeToken : Text) (folder : Folder) : List FoundFile :=
  folder.files.filter (fun f => decide (f.Visible excludeToken))

section Lemmas

variable {excludeToken root : Text} {c : Component} {f : FoundFile}

lemma below_path : (f.below c).path root = f.path (root ++ '\\' :: c.name.1) := by
  rw [FoundFile.path, FoundFile.path, FoundFile.below, List.flatMap_cons, List.append_assoc]

lemma below_visible : (f.below c).Visible excludeToken ↔
    (c.opens = true ∧ isExcluded excludeToken c.name = false) ∧ f.Visible excludeToken := by
  rw [FoundFile.Visible, FoundFile.below, List.forall_mem_cons, FoundFile.Visible]

lemma visible_below {folder : Folder} (ho : c.opens = true)
    (he : isExcluded excludeToken c.name = false) :
    (folder.files.map (FoundFile.below c)).filter (fun f => decide (f.Visible excludeToken)) =
      (folder.visible excludeToken).map (FoundFile.below c) := by
  rw [List.filter_map, Folder.visible]
  congr 1
  refine List.filter_congr (fun f _ => ?_)
  simp only [Function.comp_apply, below_visible, ho, he, and_self, true_and]

lemma visible_below_none {folder : Folder}
    (h : ¬(c.opens = true ∧ isExcluded excludeToken c.name = false)) :
    (folder.files.map (FoundFile.below c)).filter (fun f => decide (f.Visible excludeToken)) =
      [] := by
  rw [List.filter_eq_nil_iff]
  intro g hg
  obtain ⟨f, _, rfl⟩ := List.mem_map.mp hg
  rw [decide_eq_true_eq, below_visible]
  exact fun hv => h hv.1

variable {name : EntryName} {sizeHigh sizeLow : BitVec 32} {opens : Bool} {entries rest : Folder}

lemma visible_file_skipped (h : Folder.isDots name = true ∨ isExcluded excludeToken name = true) :
    (Folder.file name sizeHigh sizeLow rest).visible excludeToken = rest.visible excludeToken := by
  rw [Folder.visible, Folder.files]
  split_ifs with hd
  · rfl
  · rw [List.filter_cons_of_neg, Folder.visible]
    simp [FoundFile.Visible, h.resolve_left hd]

lemma visible_file_listed (hd : Folder.isDots name = false)
    (he : isExcluded excludeToken name = false) :
    (Folder.file name sizeHigh sizeLow rest).visible excludeToken =
      ⟨[⟨name, true⟩], fileSize sizeHigh sizeLow⟩ :: rest.visible excludeToken := by
  rw [Folder.visible, Folder.files, if_neg (by simp [hd]), List.filter_cons_of_pos, Folder.visible]
  simp [FoundFile.Visible, he]

lemma visible_folder_skipped
    (h : Folder.isDots name = true ∨ ¬(opens = true ∧ isExcluded excludeToken name = false)) :
    (Folder.folder name opens entries rest).visible excludeToken = rest.visible excludeToken := by
  rw [Folder.visible, Folder.files]
  split_ifs with hd
  · rfl
  · rw [List.filter_append, visible_below_none (c := ⟨name, opens⟩) (h.resolve_left hd),
      List.nil_append, Folder.visible]

lemma visible_folder_entered (hd : Folder.isDots name = false)
    (he : isExcluded excludeToken name = false) :
    (Folder.folder name true entries rest).visible excludeToken =
      (entries.visible excludeToken).map (FoundFile.below ⟨name, true⟩) ++ rest.visible
        excludeToken := by
  rw [Folder.visible, Folder.files, if_neg (by simp [hd]), List.filter_append, visible_below rfl he]
  rfl

lemma map_path_below (fs : List FoundFile) :
    (fs.map (FoundFile.below c)).map (FoundFile.path root) =
      fs.map (FoundFile.path (root ++ '\\' :: c.name.1)) := by
  rw [List.map_map]
  exact List.map_congr_left (fun f _ => below_path)

end Lemmas

section Distinctness

def FoundFile.names (f : FoundFile) : List EntryName := f.way.map Component.name

lemma head_of_files {folder : Folder} {f : FoundFile} (h : f ∈ folder.files) :
    ∃ name ∈ folder.found.map FindData.cFileName, ∃ tail, f.names = name :: tail := by
  induction folder with
  | done => exact absurd h List.not_mem_nil
  | file name sizeHigh sizeLow rest ih =>
    rw [Folder.found, List.map_cons]
    rw [Folder.files] at h
    split_ifs at h with hd
    · obtain ⟨n, hn, ht⟩ := ih h
      exact ⟨n, List.mem_cons_of_mem _ hn, ht⟩
    · rcases List.mem_cons.mp h with rfl | h
      · exact ⟨name, List.mem_cons_self, [], rfl⟩
      · obtain ⟨n, hn, ht⟩ := ih h
        exact ⟨n, List.mem_cons_of_mem _ hn, ht⟩
  | folder name opens entries rest ihe ih =>
    rw [Folder.found, List.map_cons]
    rw [Folder.files] at h
    split_ifs at h with hd
    · obtain ⟨n, hn, ht⟩ := ih h
      exact ⟨n, List.mem_cons_of_mem _ hn, ht⟩
    · rcases List.mem_append.mp h with h | h
      · obtain ⟨g, _, rfl⟩ := List.mem_map.mp h
        exact ⟨name, List.mem_cons_self, g.names, rfl⟩
      · obtain ⟨n, hn, ht⟩ := ih h
        exact ⟨n, List.mem_cons_of_mem _ hn, ht⟩

lemma files_nodup {folder : Folder} (h : folder.Distinct) :
    (folder.files.map FoundFile.names).Nodup := by
  have hfresh : ∀ {rest : Folder} {name : EntryName} {tail : List EntryName},
      name ∉ rest.found.map FindData.cFileName → name :: tail ∉ rest.files.map FoundFile.names := by
    intro rest name tail hn hm
    obtain ⟨f, hf, he⟩ := List.mem_map.mp hm
    obtain ⟨n, hnm, t, ht⟩ := head_of_files hf
    rw [ht, List.cons.injEq] at he
    exact hn (he.1 ▸ hnm)
  induction folder with
  | done => exact List.nodup_nil
  | file name sizeHigh sizeLow rest ih =>
    rw [Folder.files]
    split_ifs with hd
    · exact ih h.2
    · exact List.nodup_cons.mpr ⟨hfresh h.1, ih h.2⟩
  | folder name opens entries rest ihe ih =>
    obtain ⟨hn, hentries, hrest⟩ := h
    rw [Folder.files]
    split_ifs with hd
    · exact ih hrest
    · have hbelow : (entries.files.map (FoundFile.below ⟨name, opens⟩)).map FoundFile.names =
          (entries.files.map FoundFile.names).map (name :: ·) := by
        rw [List.map_map, List.map_map]
        rfl
      rw [List.map_append, hbelow, List.nodup_append]
      refine ⟨(ihe hentries).map (List.cons_injective), ih hrest, ?_⟩
      rintro _ ha b hb rfl
      obtain ⟨tail, _, rfl⟩ := List.mem_map.mp ha
      exact hfresh hn hb

lemma span_name {a b s t : Text} (ha : '\\' ∉ a) (hb : '\\' ∉ b) (hs : s = [] ∨ s.head? = some '\\')
    (ht : t = [] ∨ t.head? = some '\\') (h : a ++ s = b ++ t) : a = b ∧ s = t := by
  have hstop : ∀ {a s : Text}, '\\' ∉ a → (s = [] ∨ s.head? = some '\\') →
      (a ++ s).takeWhile (fun c => decide (c ≠ '\\')) = a := by
    intro a s ha hs
    have hall : ∀ c ∈ a, decide (c ≠ '\\') = true := fun c hc =>
      decide_eq_true (fun he => ha (he ▸ hc))
    rw [List.takeWhile_append_of_pos hall]
    rcases hs with rfl | hs
    · simp
    · obtain ⟨c, rest, rfl⟩ :=
        List.exists_cons_of_ne_nil (List.ne_nil_of_mem (List.mem_of_mem_head? hs))
      obtain rfl := Option.some.inj hs
      simp
  have hab : a = b := by rw [← hstop ha hs, h, hstop hb ht]
  subst hab
  exact ⟨rfl, List.append_cancel_left h⟩

lemma path_names_inj {root : Text} {f g : FoundFile} (h : f.path root = g.path root) :
    f.names = g.names := by
  have hinj : ∀ ns ms : List EntryName,
      ns.flatMap (fun n => '\\' :: n.1) = ms.flatMap (fun n => '\\' :: n.1) → ns = ms := by
    have hhead : ∀ ns : List EntryName, ns.flatMap (fun n => '\\' :: n.1) = [] ∨
        (ns.flatMap (fun n => '\\' :: n.1)).head? = some '\\' := by
      intro ns
      cases ns with
      | nil => exact Or.inl rfl
      | cons n ns => exact Or.inr rfl
    intro ns
    induction ns with
    | nil =>
      intro ms h
      cases ms with
      | nil => rfl
      | cons m ms => cases h
    | cons n ns ih =>
      intro ms h
      cases ms with
      | nil => cases h
      | cons m ms =>
        rw [List.flatMap_cons, List.flatMap_cons, List.cons_append, List.cons_append,
          List.cons.injEq] at h
        obtain ⟨hn, hrest⟩ := span_name n.2.2 m.2.2 (hhead ns) (hhead ms) h.2
        rw [Subtype.ext hn, ih ms hrest]
  have hp : ∀ f : FoundFile, f.path root = root ++ f.names.flatMap (fun n => '\\' :: n.1) := by
    intro f
    rw [FoundFile.path, FoundFile.names, List.flatMap_map]
  rw [hp, hp] at h
  exact hinj _ _ (List.append_cancel_left h)

lemma visible_paths_nodup {folder : Folder} (h : folder.Distinct) (excludeToken root : Text) :
    ((folder.visible excludeToken).map (FoundFile.path root)).Nodup := by
  have hn : ((folder.visible excludeToken).map FoundFile.names).Nodup :=
    (List.filter_sublist.map _).nodup (files_nodup h)
  rw [List.Nodup, List.pairwise_map] at hn ⊢
  exact hn.imp (fun hne hp => hne (path_names_inj hp))

end Distinctness

section Mount

/-- A folder as it is given on the command line, with or without a separator at its end. -/
structure Root where
  base : Text
  slash : Bool
  bare : base.getLast? ≠ some '\\'
  nonempty : base ≠ []

def Root.text (root : Root) : Text := if root.slash then root.base ++ ['\\'] else root.base

def Mounted (fs : FileSystem) (root : Root) (folder : Folder) : Prop :=
  fs (root.base ++ "\\*".toList) = some folder.found ∧ folder.Holds fs root.base

end Mount

end DriveIntegrity.Walk
