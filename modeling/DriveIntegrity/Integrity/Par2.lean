import DriveIntegrity.Integrity.Culture
import DriveIntegrity.Library.HashTable

/-! One `par2 r` run: damaged targets are renamed, then every broken target is rebuilt. -/

namespace DriveIntegrity.Integrity

variable {Content : Type}

/-- The files of a drive by path, in lower case and with forward slashes. -/
abbrev Drive (Content : Type) := HashTable (id : Text → Text) Content

/-- A source file of a recovery set with the content it was created from. -/
structure Target (Content : Type) where
  path : Text
  stored : Content
  deriving DecidableEq

lemma get?_setFile (drive : Drive Content) (p q : Text) (content : Content) :
    (drive.set p content).get? q = if q = p then some content else drive.get? q :=
  HashTable.get?_set drive q p content

lemma get?_without (drive : Drive Content) (ps : List Text) (q : Text) :
    (drive.removeAll ps).get? q = if q ∈ ps then none else drive.get? q := by
  rw [HashTable.get?_removeAll]
  simp only [id, exists_eq_right']

section Rename

def backupName (path : Text) (index : ℕ) : Text := path ++ '.' :: decimal index

/-- `DiskFile::Rename()` counts up from 1 until no file has the name. -/
def freeIndex (drive : Drive Content) (path : Text) : ℕ :=
  ((List.range (drive.entries.length + 1)).find?
    (fun i => (drive.get? (backupName path (i + 1))).isNone)).getD 0 + 1

def freeName (drive : Drive Content) (path : Text) : Text := backupName path (freeIndex drive path)

lemma backupName_inj {p q : Text} {i j : ℕ} (h : backupName p i = backupName q j) :
    p = q ∧ i = j := by
  have hdot : ∀ n, '.' ∉ decimal n := fun n hm => absurd (isDigit_of_mem_decimal hm) (by decide)
  have hcut : ∀ (as : Text) (m n : ℕ), '.' :: decimal m = as ++ '.' :: decimal n → as = [] := by
    intro as m n he
    cases as with
    | nil => rfl
    | cons a as =>
      rw [List.cons_append, List.cons.injEq] at he
      exact (hdot m (he.2 ▸ List.mem_append_right as List.mem_cons_self)).elim
  have hp : p = q := by
    rcases List.append_eq_append_iff.mp h with ⟨as, hq, he⟩ | ⟨as, hp, he⟩
    · rw [hcut as _ _ he, List.append_nil] at hq
      exact hq.symm
    · rw [hcut as _ _ he, List.append_nil] at hp
      exact hp
  subst hp
  exact ⟨rfl, decimal_injective (List.cons.inj (List.append_cancel_left h)).2⟩

lemma exists_free (drive : Drive Content) (path : Text) :
    ∃ i < drive.entries.length + 1, drive.get? (backupName path (i + 1)) = none := by
  by_contra hall
  have hocc : ∀ i < drive.entries.length + 1, drive.get? (backupName path (i + 1)) ≠ none :=
    fun i hi hn => hall ⟨i, hi, hn⟩
  let names := (List.range (drive.entries.length + 1)).map (fun i => backupName path (i + 1))
  have hnodup : names.Nodup := by
    apply List.nodup_range.map
    intro i j he
    have := (backupName_inj he).2
    omega
  have hsub : names ⊆ drive.keys := by
    intro name hname
    obtain ⟨i, hi, rfl⟩ := List.mem_map.mp hname
    obtain ⟨c, hc⟩ := Option.ne_none_iff_exists'.mp (hocc i (List.mem_range.mp hi))
    obtain ⟨e, he, hk, _⟩ := (drive.get?_eq_some_iff _ c).mp hc
    exact List.mem_map.mpr ⟨e, he, hk⟩
  have hle := (List.subperm_of_subset hnodup hsub).length_le
  simp only [names, List.length_map, List.length_range, HashTable.keys] at hle
  omega

lemma freeIndex_spec (drive : Drive Content) (path : Text) :
    ∃ i, freeIndex drive path = i + 1 ∧ drive.get? (backupName path (i + 1)) = none ∧
      ∀ j < i, drive.get? (backupName path (j + 1)) ≠ none := by
  cases hf : (List.range (drive.entries.length + 1)).find?
      (fun i => (drive.get? (backupName path (i + 1))).isNone) with
  | none =>
    obtain ⟨i, hi, hn⟩ := exists_free drive path
    have := List.find?_eq_none.mp hf i (List.mem_range.mpr hi)
    simp [hn] at this
  | some i =>
    obtain ⟨hi, _, hl⟩ := List.find?_range_eq_some.mp hf
    refine ⟨i, by rw [freeIndex, hf]; rfl, Option.isNone_iff_eq_none.mp hi, ?_⟩
    intro j hj hn
    have := hl j hj
    simp [hn] at this

lemma freeName_free (drive : Drive Content) (path : Text) :
    drive.get? (freeName drive path) = none := by
  obtain ⟨i, he, hn, _⟩ := freeIndex_spec drive path
  rw [freeName, he, hn]

lemma freeName_congr {drive drive' : Drive Content} {path : Text}
    (h : ∀ k, drive.get? (backupName path k) = none ↔ drive'.get? (backupName path k) = none) :
    freeName drive path = freeName drive' path := by
  obtain ⟨i, he, hn, hl⟩ := freeIndex_spec drive path
  obtain ⟨j, he', hn', hl'⟩ := freeIndex_spec drive' path
  have hij : i = j := by
    rcases lt_trichotomy i j with hlt | heq | hgt
    · exact (hl' i hlt ((h _).mp hn)).elim
    · exact heq
    · exact (hl j hgt ((h _).mpr hn')).elim
  rw [freeName, freeName, he, he', hij]

def renameDamaged (drive : Drive Content) (t : Target Content) : Drive Content :=
  match drive.get? t.path with
  | none => drive
  | some content => (drive.remove t.path).set (freeName drive t.path) content

lemma get?_renameDamaged {drive : Drive Content} {t : Target Content} {content : Content}
    (h : drive.get? t.path = some content) (q : Text) :
    (renameDamaged drive t).get? q =
      if q = freeName drive t.path then some content else if q = t.path then
        none else drive.get? q := by
  rw [renameDamaged, h]
  simp only [get?_setFile, HashTable.get?_remove, id]

/-- The names the damaged targets get, each found with the targets before it out of the way. -/
def takenNames (drive : Drive Content) (damaged : List (Target Content)) : List Text :=
  damaged.map (fun t => freeName
    (drive.removeAll ((damaged.takeWhile (fun u => decide (u.path ≠ t.path))).map Target.path))
      t.path)

lemma takenNames_cons {drive : Drive Content} {t : Target Content} {damaged : List (Target Content)}
    (hn : ((t :: damaged).map Target.path).Nodup) {content : Content}
    (h : drive.get? t.path = some content) :
    takenNames drive (t :: damaged) =
      freeName drive t.path :: takenNames (renameDamaged drive t) damaged := by
  rw [List.map_cons, List.nodup_cons] at hn
  simp only [takenNames, List.map_cons, List.takeWhile_cons, ne_eq, not_true_eq_false, decide_false,
    Bool.false_eq_true, if_false, List.map_nil, List.cons.injEq]
  refine ⟨rfl, ?_⟩
  apply List.map_congr_left
  intro u hu
  have hne : t.path ≠ u.path := fun he => hn.1 (he ▸ List.mem_map_of_mem hu)
  simp only [hne, not_false_eq_true, decide_true, if_true, List.map_cons]
  apply freeName_congr
  intro k
  have hfree : backupName u.path k ≠ freeName drive t.path :=
    fun he => hne (backupName_inj he).1.symm
  simp only [get?_without, get?_renameDamaged h, hfree, if_false, List.mem_cons]
  by_cases ht : backupName u.path k = t.path <;> simp [ht]

section Pass

variable {drive : Drive Content} {damaged : List (Target Content)}

lemma occupied_renameDamaged {t u : Target Content} {content : Content}
    (h : drive.get? t.path = some content) (hne : u.path ≠ t.path) (hu : drive.get? u.path ≠ none) :
    (renameDamaged drive t).get? u.path = drive.get? u.path := by
  have hf : u.path ≠ freeName drive t.path := fun he => hu (he ▸ freeName_free drive t.path)
  rw [get?_renameDamaged h, if_neg hf, if_neg hne]

lemma get?_renamed (hn : (damaged.map Target.path).Nodup)
    (ho : ∀ t ∈ damaged, drive.get? t.path ≠ none) {q : Text} (hq : q ∉ takenNames drive damaged) :
    (damaged.foldl renameDamaged drive).get? q =
      if q ∈ damaged.map Target.path then none else drive.get? q := by
  induction damaged generalizing drive with
  | nil => simp
  | cons t damaged ih =>
    obtain ⟨content, hc⟩ := Option.ne_none_iff_exists'.mp (ho t List.mem_cons_self)
    rw [takenNames_cons hn hc, List.mem_cons, not_or] at hq
    rw [List.map_cons, List.nodup_cons] at hn
    have ho' : ∀ u ∈ damaged, (renameDamaged drive t).get? u.path ≠ none := by
      intro u hu
      have hne : u.path ≠ t.path := fun he => hn.1 (he ▸ List.mem_map_of_mem hu)
      rw [occupied_renameDamaged hc hne (ho u (List.mem_cons_of_mem t hu))]
      exact ho u (List.mem_cons_of_mem t hu)
    rw [List.foldl_cons, ih hn.2 ho' hq.2, get?_renameDamaged hc, if_neg hq.1, List.map_cons]
    by_cases hm : q ∈ damaged.map Target.path <;> by_cases ht : q = t.path <;> simp [hm, ht]

lemma renamed_taken (hn : (damaged.map Target.path).Nodup)
    (ho : ∀ t ∈ damaged, drive.get? t.path ≠ none)
    {q : Text} (hq : q ∈ takenNames drive damaged) :
    (damaged.foldl renameDamaged drive).get? q ≠ none := by
  induction damaged generalizing drive with
  | nil => simp [takenNames] at hq
  | cons t damaged ih =>
    obtain ⟨content, hc⟩ := Option.ne_none_iff_exists'.mp (ho t List.mem_cons_self)
    rw [takenNames_cons hn hc, List.mem_cons] at hq
    rw [List.map_cons, List.nodup_cons] at hn
    have ho' : ∀ u ∈ damaged, (renameDamaged drive t).get? u.path ≠ none := by
      intro u hu
      have hne : u.path ≠ t.path := fun he => hn.1 (he ▸ List.mem_map_of_mem hu)
      rw [occupied_renameDamaged hc hne (ho u (List.mem_cons_of_mem t hu))]
      exact ho u (List.mem_cons_of_mem t hu)
    rw [List.foldl_cons]
    by_cases hl : q ∈ takenNames (renameDamaged drive t) damaged
    · exact ih hn.2 ho' hl
    · have hf := hq.resolve_right hl
      have hm : q ∉ damaged.map Target.path := by
        intro hm
        obtain ⟨u, hu, he⟩ := List.mem_map.mp hm
        exact ho u (List.mem_cons_of_mem t hu) (by rw [he, hf, freeName_free])
      rw [get?_renamed hn.2 ho' hl, if_neg hm, get?_renameDamaged hc, if_pos hf]
      simp

lemma taken_free {q : Text} (hq : q ∈ takenNames drive damaged) :
    drive.get? q = none ∨ q ∈ damaged.map Target.path := by
  obtain ⟨t, _, rfl⟩ := List.mem_map.mp hq
  have hf := freeName_free
    (drive.removeAll ((damaged.takeWhile (fun u => decide (u.path ≠ t.path))).map Target.path))
      t.path
  rw [get?_without] at hf
  split_ifs at hf with hk
  · exact Or.inr (((List.takeWhile_sublist _).map Target.path).subset hk)
  · exact Or.inl hf

end Pass

end Rename

section Create

/-- `CreateTargetFiles` and the recovery of their data, for the targets that are missing or
renamed. -/
def createTargetFiles (targets : List (Target Content)) (drive : Drive Content) : Drive Content :=
  targets.foldl (fun drive t => drive.set t.path t.stored) drive

lemma get?_created {targets : List (Target Content)} (hn : (targets.map Target.path).Nodup)
    (drive : Drive Content) {t : Target Content} (ht : t ∈ targets) :
    (createTargetFiles targets drive).get? t.path = some t.stored := by
  induction targets using List.reverseRecOn with
  | nil => simp at ht
  | append_singleton targets u ih =>
    have hc : createTargetFiles (targets ++ [u]) drive =
        (createTargetFiles targets drive).set u.path u.stored := by simp [createTargetFiles]
    rw [hc, get?_setFile]
    rw [List.map_append, List.nodup_append] at hn
    rcases List.mem_append.mp ht with hm | hm
    · have hne : t.path ≠ u.path := hn.2.2 _ (List.mem_map_of_mem hm) _ (by simp)
      rw [if_neg hne]
      exact ih hn.1 hm
    · rw [List.mem_singleton.mp hm, if_pos rfl]

lemma get?_created_of_notMem {targets : List (Target Content)} (drive : Drive Content) {q : Text}
    (hq : q ∉ targets.map Target.path) :
    (createTargetFiles targets drive).get? q = drive.get? q := by
  induction targets using List.reverseRecOn with
  | nil => rfl
  | append_singleton targets u ih =>
    have hc : createTargetFiles (targets ++ [u]) drive =
        (createTargetFiles targets drive).set u.path u.stored := by simp [createTargetFiles]
    simp only [List.map_append, List.mem_append, not_or, List.map_cons, List.map_nil,
      List.mem_singleton] at hq
    rw [hc, get?_setFile, if_neg hq.2, ih hq.1]

end Create

section Repair

variable [DecidableEq Content]

def intact (drive : Drive Content) (t : Target Content) : Bool :=
  decide (drive.get? t.path = some t.stored)

def damaged (drive : Drive Content) (t : Target Content) : Bool :=
  !intact drive t && (drive.get? t.path).isSome

def renameTargetFiles (set : List (Target Content)) (drive : Drive Content) : Drive Content :=
  (set.filter (damaged drive)).foldl renameDamaged drive

/-- What verification finds at each target's name. -/
def targetContents (drive : Drive Content) (set : List (Target Content)) : List (Option Content) :=
  set.map (fun t => drive.get? t.path)

/-- `Par2Repairer::Process` with repair; `enough` tells whether the recovery blocks suffice. -/
def par2Repair (enough : List (Target Content) → List (Option Content) → Bool)
    (drive : Drive Content) (set : List (Target Content)) : Drive Content :=
  if enough set (targetContents drive set) then
    createTargetFiles (set.filter (fun t => !intact drive t)) (renameTargetFiles set drive)
  else drive

/-- The names `par2 r` gives to the damaged targets of a set. -/
def backups (drive : Drive Content) (set : List (Target Content)) : List Text :=
  takenNames drive (set.filter (damaged drive))

section Call

variable {enough : List (Target Content) → List (Option Content) → Bool} {drive : Drive Content}
  {set : List (Target Content)}

lemma damaged_iff (t : Target Content) :
    damaged drive t = true ↔ drive.get? t.path ≠ some t.stored ∧ drive.get? t.path ≠ none := by
  simp [damaged, intact, Option.isSome_iff_ne_none]

lemma par2Repair_broken (hn : (set.map Target.path).Nodup)
    (he : enough set (targetContents drive set) = true)
    {t : Target Content} (ht : t ∈ set) (hb : drive.get? t.path ≠ some t.stored) :
    (par2Repair enough drive set).get? t.path = some t.stored := by
  rw [par2Repair, if_pos he]
  apply get?_created ((List.filter_sublist.map _).nodup hn)
  exact List.mem_filter.mpr ⟨ht, by simpa [intact] using hb⟩

lemma par2Repair_other (hn : (set.map Target.path).Nodup) {q : Text}
    (hq : ∀ t ∈ set, t.path = q → drive.get? q = some t.stored) (hb : q ∉ backups drive set) :
    (par2Repair enough drive set).get? q = drive.get? q := by
  rw [par2Repair]
  split_ifs with he
  · have hbroken : ∀ p : Target Content → Bool,
        (∀ t, p t = true → drive.get? t.path ≠ some t.stored) →
        q ∉ (set.filter p).map Target.path := by
      intro p hp hm
      obtain ⟨t, ht, rfl⟩ := List.mem_map.mp hm
      obtain ⟨hts, hpt⟩ := List.mem_filter.mp ht
      exact hp t hpt (hq t hts rfl)
    have hd := hbroken (damaged drive) (fun t h => ((damaged_iff t).mp h).1)
    rw [get?_created_of_notMem _ (hbroken _ (fun t h => by simpa [intact] using h)),
      renameTargetFiles, get?_renamed ((List.filter_sublist.map _).nodup hn) _ hb, if_neg hd]
    intro t ht
    exact ((damaged_iff t).mp (List.mem_filter.mp ht).2).2
  · rfl

lemma par2Repair_backup (hn : (set.map Target.path).Nodup)
    (he : enough set (targetContents drive set) = true)
    {q : Text} (hq : q ∈ backups drive set) : (par2Repair enough drive set).get? q ≠ none := by
  by_cases hm : q ∈ (set.filter (fun t => !intact drive t)).map Target.path
  · obtain ⟨t, ht, rfl⟩ := List.mem_map.mp hm
    obtain ⟨hts, hb⟩ := List.mem_filter.mp ht
    rw [par2Repair_broken hn he hts (by simpa [intact] using hb)]
    simp
  · rw [par2Repair, if_pos he, get?_created_of_notMem _ hm]
    apply renamed_taken ((List.filter_sublist.map _).nodup hn) _ hq
    intro t ht
    exact ((damaged_iff t).mp (List.mem_filter.mp ht).2).2

lemma backup_free {q : Text} (hq : q ∈ backups drive set) :
    drive.get? q = none ∨ ∃ t ∈ set, t.path = q ∧ drive.get? q ≠ some t.stored := by
  rcases taken_free hq with h | h
  · exact Or.inl h
  · obtain ⟨t, ht, rfl⟩ := List.mem_map.mp h
    obtain ⟨hts, hd⟩ := List.mem_filter.mp ht
    exact Or.inr ⟨t, hts, rfl, ((damaged_iff t).mp hd).1⟩

lemma par2Repair_occupied (hn : (set.map Target.path).Nodup) {q : Text} (hq : drive.get? q ≠ none) :
    (par2Repair enough drive set).get? q ≠ none := by
  by_cases he : enough set (targetContents drive set) = true
  · by_cases hb : ∃ t ∈ set, t.path = q ∧ drive.get? q ≠ some t.stored
    · obtain ⟨t, ht, rfl, hb⟩ := hb
      rw [par2Repair_broken hn he ht hb]
      simp
    · have hnb : q ∉ backups drive set := by
        intro hm
        rcases backup_free hm with h | h
        · exact hq h
        · exact hb h
      rw [par2Repair_other hn _ hnb]
      · exact hq
      · intro t ht hp
        by_contra hs
        exact hb ⟨t, ht, hp, hs⟩
  · rwa [par2Repair, if_neg he]

end Call

end Repair

end DriveIntegrity.Integrity
