import DriveIntegrity.Integrity.Compare

/-! The four lists of the comparison partition the files by path and digest. -/

namespace DriveIntegrity.Integrity

variable (C : Culture)

/-- The files have the same path without the drive letter, up to case and separator style. -/
def Matches (b c : File) : Prop := foldedPath C b.path = foldedPath C c.path

instance (b c : File) : Decidable (Matches C b c) := inferInstanceAs (Decidable (_ = _))

def fileMd5 (f : File) : Option Text :=
  match f.hashdigest with
  | some d => if C.lower d.type = C.lower "md5".toList then some d.text else none
  | none => none

/-- Both files have an `md5` value and the values differ beyond letter case. -/
def hashesDiffer (b c : File) : Bool :=
  match fileMd5 C b, fileMd5 C c with
  | some h, some h' => decide (h ≠ [] ∧ h' ≠ [] ∧ C.lower h ≠ C.lower h')
  | _, _ => false

def secondsApart (b c : File) : ℚ :=
  match C.parse b.mtime, C.parse c.mtime with
  | some t, some t' => |((t' - t : ℤ) : ℚ)| / 10000000
  | _, _ => 0

def Corrupted (b c : File) : Prop := hashesDiffer C b c = true ∧ secondsApart C b c < 21 / 10

def Edited (b c : File) : Prop := hashesDiffer C b c = true ∧ 21 / 10 ≤ secondsApart C b c

instance (b c : File) : Decidable (Corrupted C b c) := inferInstanceAs (Decidable (_ ∧ _))
instance (b c : File) : Decidable (Edited C b c) := inferInstanceAs (Decidable (_ ∧ _))

def newFiles (bs cs : List File) : List File :=
  cs.filter (fun c => decide (∀ b ∈ bs, ¬ Matches C b c))

def deletedFiles (bs cs : List File) : List File :=
  bs.filter (fun b => decide (∀ c ∈ cs, ¬ Matches C b c))

def corruptFiles (bs cs : List File) : List File :=
  cs.filter (fun c => decide (∃ b ∈ bs, Matches C b c ∧ Corrupted C b c))

def editedFiles (bs cs : List File) : List File :=
  cs.filter (fun c => decide (∃ b ∈ bs, Matches C b c ∧ Edited C b c))

/-- The verdict on a file of the current list, from the files alone. -/
def fileVerdict (bs : List File) (c : File) : Verdict :=
  match bs.find? (fun b => decide (Matches C b c)) with
  | none => .new
  | some b =>
    if Corrupted C b c then .corrupt else if Edited C b c then .modified else .unchanged

def printedName (X : DriveLetter) (f : File) : Text := absolute X f.path

/-- No two absolute paths of the list are equal after lower-casing. -/
def DistinctPaths (X : DriveLetter) (files : List File) : Prop :=
  (files.map (fun f => C.lower (printedName X f))).Nodup

instance (X : DriveLetter) (files : List File) : Decidable (DistinctPaths C X files) :=
  inferInstanceAs (Decidable (List.Nodup _))

/-- The baseline and the current list as `quick_file_check` compares them. -/
def compareDrives (cOrder bOrder : IterationOrder Text) (X Y : DriveLetter) (bs cs : List File) :
    Option Discrepancies :=
  compareInventories C cOrder bOrder (getFileInventory C (bs.map (fileObject X)))
    (getFileInventory C (cs.map (fileObject Y)))

@[simp] lemma lower_folded (p : RootPath) : C.lower (foldedPath C p) = foldedPath C p :=
  lower_idem C _

lemma DistinctPaths.keys {X : DriveLetter} {files : List File} (h : DistinctPaths C X files) :
    (files.map (fun f => foldedPath C f.path)).Nodup := by
  apply foldedPath_nodup
  have hc : (fun f : File => C.lower (printedName X f)) =
      (fun t => C.toLower X.val :: C.toLower ':' :: t) ∘ fun f : File => C.lower f.path.text := rfl
  rw [DistinctPaths, hc, ← List.map_map] at h
  exact List.Nodup.of_map _ h

lemma compareHashes_eq (X Y : DriveLetter) (b c : File) {t t' : ℤ} (ht : C.parse b.mtime = some t)
    (ht' : C.parse c.mtime = some t') :
    compareHashes C (fileObject X b) (fileObject Y c) =
      some (if hashesDiffer C b c then (if timesAgree t t' then .corrupt else .modified)
        else .unchanged) := by
  have hm : ∀ (Z : DriveLetter) (f : File), md5Text C (fileObject Z f) = fileMd5 C f :=
    fun _ _ => rfl
  rw [compareHashes, hm, hm, hashesDiffer]
  cases fileMd5 C b with
  | none => rfl
  | some h =>
    cases fileMd5 C c with
    | none => rfl
    | some h' =>
      simp only [fileObject, ht, ht', decide_eq_true_eq]
      split_ifs <;> rfl

lemma compareHashes_files (X Y : DriveLetter) (b c : File) (hb : (C.parse b.mtime).isSome)
    (hc : (C.parse c.mtime).isSome) :
    compareHashes C (fileObject X b) (fileObject Y c) =
      some
        (if Corrupted C b c then .corrupt else if Edited C b c then .modified else .unchanged) := by
  obtain ⟨t, ht⟩ := Option.isSome_iff_exists.mp hb
  obtain ⟨t', ht'⟩ := Option.isSome_iff_exists.mp hc
  have hs : secondsApart C b c = |((t' - t : ℤ) : ℚ)| / 10000000 := by rw [secondsApart, ht, ht']
  rw [compareHashes_eq C X Y b c ht ht', timesAgree, ← hs]
  cases hd : hashesDiffer C b c with
  | false => simp [Corrupted, Edited, hd]
  | true =>
    by_cases hl : secondsApart C b c < 21 / 10
    · simp [Corrupted, hd, hl]
    · simp [Corrupted, Edited, hd, hl, not_lt.mp hl]

section Verdicts

variable {bs cs : List File} (X Y : DriveLetter)

lemma find_match (hb : (bs.map (fun f => foldedPath C f.path)).Nodup) {b c : File} (hbm : b ∈ bs)
    (h : Matches C b c) : bs.find? (fun b => decide (Matches C b c)) = some b := by
  cases hf : bs.find? (fun b => decide (Matches C b c)) with
  | none => exact absurd h (by simpa using List.find?_eq_none.mp hf b hbm)
  | some d =>
    have hd : Matches C d c := by simpa using List.find?_some hf
    rw [List.inj_on_of_nodup_map hb (List.mem_of_find?_eq_some hf) hbm (hd.trans h.symm)]

lemma get_mounted (hb : (bs.map (fun f => foldedPath C f.path)).Nodup) (c : File) :
    (getFileInventory C (bs.map (fileObject X))).get? (foldedPath C c.path) =
      (bs.find? (fun b => decide (Matches C b c))).map (fileObject X) := by
  cases hf : bs.find? (fun b => decide (Matches C b c)) with
  | none =>
    rw [Option.map_none, HashTable.get?_eq_none_iff, mounted_entries C X bs hb]
    intro e he
    obtain ⟨b, hbm, rfl⟩ := List.mem_map.mp he
    intro h
    rw [lower_folded, lower_folded] at h
    exact List.find?_eq_none.mp hf b hbm (decide_eq_true h)
  | some b =>
    have hm : Matches C b c := by simpa using List.find?_some hf
    rw [Option.map_some, HashTable.get?_eq_some_iff, mounted_entries C X bs hb]
    exact ⟨_, List.mem_map_of_mem (List.mem_of_find?_eq_some hf),
      by rwa [lower_folded, lower_folded], rfl⟩

lemma nodeAt_mounted (hc : (cs.map (fun f => foldedPath C f.path)).Nodup) {c : File}
    (hcm : c ∈ cs) :
    nodeAt C (getFileInventory C (cs.map (fileObject Y))) (foldedPath C c.path) =
      fileObject Y c := by
  rw [nodeAt, get_mounted C Y hc, find_match C hc hcm rfl]
  rfl

lemma verdictAt_mounted (hb : (bs.map (fun f => foldedPath C f.path)).Nodup)
    (hc : (cs.map (fun f => foldedPath C f.path)).Nodup)
    (hp : ∀ f ∈ bs ++ cs, (C.parse f.mtime).isSome) {c : File} (hcm : c ∈ cs) :
    verdictAt C (getFileInventory C (bs.map (fileObject X)))
      (getFileInventory C (cs.map (fileObject Y)))
      (foldedPath C c.path) = some (fileVerdict C bs c) := by
  rw [verdictAt, get_mounted C X hb, nodeAt_mounted C Y hc hcm, fileVerdict]
  cases hf : bs.find? (fun b => decide (Matches C b c)) with
  | none => rfl
  | some b =>
    exact compareHashes_files C X Y b c
      (hp b (List.mem_append_left cs (List.mem_of_find?_eq_some hf)))
      (hp c (List.mem_append_right bs hcm))

lemma fileVerdict_new_iff (c : File) : fileVerdict C bs c = .new ↔ ∀ b ∈ bs, ¬ Matches C b c := by
  rw [fileVerdict]
  cases hf : bs.find? (fun b => decide (Matches C b c)) with
  | none => simpa using List.find?_eq_none.mp hf
  | some b =>
    have hm : Matches C b c := by simpa using List.find?_some hf
    constructor
    · simp only
      split_ifs <;> simp
    · intro h
      exact absurd hm (h b (List.mem_of_find?_eq_some hf))

lemma exists_match_iff (hb : (bs.map (fun f => foldedPath C f.path)).Nodup) {b c : File}
    (hbm : b ∈ bs)
    (h : Matches C b c) (P : File → Prop) : (∃ d ∈ bs, Matches C d c ∧ P d) ↔ P b := by
  constructor
  · rintro ⟨d, hd, hm, hP⟩
    rwa [List.inj_on_of_nodup_map hb hbm hd (h.trans hm.symm)]
  · intro hP
    exact ⟨b, hbm, h, hP⟩

lemma fileVerdict_corrupt_iff (hb : (bs.map (fun f => foldedPath C f.path)).Nodup) (c : File) :
    fileVerdict C bs c = .corrupt ↔ ∃ b ∈ bs, Matches C b c ∧ Corrupted C b c := by
  rw [fileVerdict]
  cases hf : bs.find? (fun b => decide (Matches C b c)) with
  | none =>
    simp only [reduceCtorEq, false_iff]
    rintro ⟨b, hbm, hm, _⟩
    exact List.find?_eq_none.mp hf b hbm (decide_eq_true hm)
  | some b =>
    have hm : Matches C b c := by simpa using List.find?_some hf
    rw [exists_match_iff C hb (List.mem_of_find?_eq_some hf) hm (fun d => Corrupted C d c)]
    simp only
    split_ifs <;> simp_all

lemma fileVerdict_modified_iff (hb : (bs.map (fun f => foldedPath C f.path)).Nodup) (c : File) :
    fileVerdict C bs c = .modified ↔ ∃ b ∈ bs, Matches C b c ∧ Edited C b c := by
  rw [fileVerdict]
  cases hf : bs.find? (fun b => decide (Matches C b c)) with
  | none =>
    simp only [reduceCtorEq, false_iff]
    rintro ⟨b, hbm, hm, _⟩
    exact List.find?_eq_none.mp hf b hbm (decide_eq_true hm)
  | some b =>
    have hm : Matches C b c := by simpa using List.find?_some hf
    rw [exists_match_iff C hb (List.mem_of_find?_eq_some hf) hm (fun d => Edited C d c)]
    have hx : Corrupted C b c → ¬ Edited C b c := fun h h' => absurd h.2 (not_lt.mpr h'.2)
    simp only
    split_ifs <;> simp_all

lemma reported_perm (order : IterationOrder Text)
    (hc : (cs.map (fun f => foldedPath C f.path)).Nodup)
    (verdict : Text → Verdict) (hv : ∀ c ∈ cs, verdict (foldedPath C c.path) = fileVerdict C bs c)
    (v : Verdict) :
    (reported C verdict v (getFileInventory C (cs.map (fileObject Y)))
        (order.run (getFileInventory C (cs.map (fileObject Y))).keys)).Perm
      ((cs.filter (fun c => decide (fileVerdict C bs c = v))).map (printedName Y)) := by
  have hk : (getFileInventory C (cs.map (fileObject Y))).keys =
      cs.map (fun f => foldedPath C f.path) := by
    rw [HashTable.keys, mounted_entries C Y cs hc, List.map_map]
    rfl
  have hperm := order.perm (getFileInventory C (cs.map (fileObject Y))).keys
  refine ((hperm.filter _).map _).trans (List.Perm.of_eq ?_)
  rw [hk, List.filter_map, List.map_map]
  have hfilter : cs.filter ((fun k => decide (verdict k = v)) ∘ fun f => foldedPath C f.path) =
      cs.filter (fun c => decide (fileVerdict C bs c = v)) := by
    apply List.filter_congr
    intro c hcm
    rw [Function.comp_apply, hv c hcm]
  rw [hfilter]
  apply List.map_congr_left
  intro c hcm
  rw [Function.comp_apply, nodeAt_mounted C Y hc (List.mem_of_mem_filter hcm)]
  rfl

lemma leftover_perm (order cOrder : IterationOrder Text)
    (hb : (bs.map (fun f => foldedPath C f.path)).Nodup)
    (hc : (cs.map (fun f => foldedPath C f.path)).Nodup) :
    let left := (getFileInventory C (bs.map (fileObject X))).removeAll
      (cOrder.run (getFileInventory C (cs.map (fileObject Y))).keys)
    ((order.run left.keys).map (fun k => (nodeAt C left k).name)).Perm
      ((deletedFiles C bs cs).map (printedName X)) := by
  intro left
  have hkeys : ∀ k, k ∈ cOrder.run (getFileInventory C (cs.map (fileObject Y))).keys ↔
      k ∈ cs.map (fun f => foldedPath C f.path) := by
    intro k
    rw [(cOrder.perm _).mem_iff, HashTable.keys, mounted_entries C Y cs hc, List.map_map]
    rfl
  have hleft : left.entries =
      (deletedFiles C bs cs).map (fun f => (foldedPath C f.path, fileObject X f)) := by
    rw [HashTable.removeAll_entries, mounted_entries C X bs hb, List.filter_map, deletedFiles]
    apply congrArg
    apply List.filter_congr
    intro b _
    simp only [Function.comp_apply, decide_eq_decide, hkeys, lower_folded]
    constructor
    · intro h c hcm hm
      exact h _ (List.mem_map_of_mem hcm) (by rw [lower_folded]; exact hm)
    · rintro h k hk
      obtain ⟨c, hcm, rfl⟩ := List.mem_map.mp hk
      rw [lower_folded]
      exact h c hcm
  refine ((order.perm left.keys).map _).trans (List.Perm.of_eq ?_)
  rw [HashTable.keys, hleft, List.map_map, List.map_map]
  apply List.map_congr_left
  intro b hbm
  have hmem : (foldedPath C b.path, fileObject X b) ∈ left.entries := by
    rw [hleft]
    exact List.mem_map_of_mem hbm
  have hget : left.get? (foldedPath C b.path) = some (fileObject X b) := left.get?_of_mem hmem
  simp only [Function.comp_apply]
  rw [nodeAt, hget]
  rfl

lemma compareDrives_eq (cOrder bOrder : IterationOrder Text)
    (hb : (bs.map (fun f => foldedPath C f.path)).Nodup)
    (hc : (cs.map (fun f => foldedPath C f.path)).Nodup)
    (hp : ∀ f ∈ bs ++ cs, (C.parse f.mtime).isSome) :
    ∃ r, compareDrives C cOrder bOrder X Y bs cs = some r ∧
      r.newList.Perm ((newFiles C bs cs).map (printedName Y)) ∧
      r.modList.Perm ((editedFiles C bs cs).map (printedName Y)) ∧
      r.delList.Perm ((deletedFiles C bs cs).map (printedName X)) ∧
      r.corList.Perm ((corruptFiles C bs cs).map (printedName Y)) := by
  set bT := getFileInventory C (bs.map (fileObject X)) with hbT
  set cT := getFileInventory C (cs.map (fileObject Y)) with hcT
  let verdict : Text → Verdict := fun k => (verdictAt C bT cT k).getD .unchanged
  have hkeys : ∀ k ∈ cOrder.run cT.keys, ∃ c ∈ cs, foldedPath C c.path = k := by
    intro k hk
    rw [(cOrder.perm _).mem_iff, HashTable.keys, hcT, mounted_entries C Y cs hc, List.map_map] at hk
    exact List.mem_map.mp hk
  have hnodup : ((cOrder.run cT.keys).map C.lower).Nodup := by
    rw [((cOrder.perm cT.keys).map C.lower).nodup_iff, HashTable.keys, List.map_map]
    exact cT.distinct
  have hv : ∀ k ∈ cOrder.run cT.keys, verdictAt C bT cT k = some (verdict k) := by
    intro k hk
    obtain ⟨c, hcm, rfl⟩ := hkeys k hk
    have := verdictAt_mounted C X Y hb hc hp hcm
    simp only [verdict]
    rw [this]
    rfl
  have hfile : ∀ c ∈ cs, verdict (foldedPath C c.path) = fileVerdict C bs c := by
    intro c hcm
    simp only [verdict, hbT, hcT]
    rw [verdictAt_mounted C X Y hb hc hp hcm]
    rfl
  have hrun := compareKeys_eq C cT verdict _ hnodup ⟨bT, [], [], []⟩ hv
  refine ⟨_, by rw [compareDrives, compareInventories, hrun, Option.map_some],
    ?_, ?_, leftover_perm C X Y bOrder cOrder hb hc, ?_⟩
  · simpa only [newFiles, List.nil_append, fileVerdict_new_iff] using
      reported_perm C Y cOrder hc verdict hfile .new
  · simpa only [editedFiles, List.nil_append, fileVerdict_modified_iff C hb] using
      reported_perm C Y cOrder hc verdict hfile .modified
  · simpa only [corruptFiles, List.nil_append, fileVerdict_corrupt_iff C hb] using
      reported_perm C Y cOrder hc verdict hfile .corrupt

lemma reported_nodup (hb : (bs.map (fun f => foldedPath C f.path)).Nodup)
    (hc : (cs.map (fun f => foldedPath C f.path)).Nodup) :
    ((newFiles C bs cs ++ editedFiles C bs cs ++ deletedFiles C bs cs ++ corruptFiles C bs cs).map
      (fun f => foldedPath C f.path)).Nodup := by
  have hpart : ∀ {l : List File} (p : File → Bool), (l.map (fun f => foldedPath C f.path)).Nodup →
      ((l.filter p).map (fun f => foldedPath C f.path)).Nodup :=
    fun p h => (List.filter_sublist.map _).nodup h
  have hsame : ∀ f ∈ cs, ∀ g ∈ cs, foldedPath C f.path = foldedPath C g.path → f = g :=
    fun f hf g hg h => List.inj_on_of_nodup_map hc hf hg h
  have hnew : ∀ f ∈ newFiles C bs cs, f ∈ cs ∧ ∀ b ∈ bs, ¬ Matches C b f := by
    intro f hf
    simpa [newFiles] using hf
  have hdel : ∀ f ∈ deletedFiles C bs cs, f ∈ bs ∧ ∀ c ∈ cs, ¬ Matches C f c := by
    intro f hf
    simpa [deletedFiles] using hf
  have hedit : ∀ f ∈ editedFiles C bs cs, f ∈ cs ∧ ∃ b ∈ bs, Matches C b f ∧ Edited C b f := by
    intro f hf
    simpa [editedFiles] using hf
  have hcor : ∀ f ∈ corruptFiles C bs cs, f ∈ cs ∧ ∃ b ∈ bs, Matches C b f ∧ Corrupted C b f := by
    intro f hf
    simpa [corruptFiles] using hf
  have hdis : ∀ fs gs : List File, (∀ f ∈ fs, ∀ g ∈ gs, foldedPath C f.path ≠ foldedPath C g.path) →
      List.Disjoint (fs.map (fun f => foldedPath C f.path))
        (gs.map (fun f => foldedPath C f.path)) := by
    intro fs gs h k hf hg
    obtain ⟨f, hfm, rfl⟩ := List.mem_map.mp hf
    obtain ⟨g, hgm, hk⟩ := List.mem_map.mp hg
    exact h f hfm g hgm hk.symm
  simp only [List.map_append, List.nodup_append', List.disjoint_append_left]
  refine ⟨⟨⟨hpart _ hc, hpart _ hc, hdis _ _ ?_⟩, hpart _ hb, hdis _ _ ?_, hdis _ _ ?_⟩, hpart _ hc,
    ⟨hdis _ _ ?_, hdis _ _ ?_⟩, hdis _ _ ?_⟩
  -- new and edited
  · intro f hf g hg hk
    obtain ⟨hgc, b, hbm, hm, _⟩ := hedit g hg
    obtain rfl := hsame f (hnew f hf).1 g hgc hk
    exact (hnew f hf).2 b hbm hm
  -- new and deleted
  · intro f hf g hg hk
    exact (hdel g hg).2 f (hnew f hf).1 hk.symm
  -- edited and deleted
  · intro f hf g hg hk
    exact (hdel g hg).2 f (hedit f hf).1 hk.symm
  -- new and corrupt
  · intro f hf g hg hk
    obtain ⟨hgc, b, hbm, hm, _⟩ := hcor g hg
    obtain rfl := hsame f (hnew f hf).1 g hgc hk
    exact (hnew f hf).2 b hbm hm
  -- edited and corrupt
  · intro f hf g hg hk
    obtain ⟨hfc, d, hdm, hm', hed⟩ := hedit f hf
    obtain ⟨hgc, b, hbm, hm, hbad⟩ := hcor g hg
    obtain rfl := hsame f hfc g hgc hk
    obtain rfl := List.inj_on_of_nodup_map hb hbm hdm (hm.trans hm'.symm)
    exact absurd hbad.2 (not_lt.mpr hed.2)
  -- deleted and corrupt
  · intro f hf g hg hk
    exact (hdel f hf).2 g (hcor g hg).1 hk

end Verdicts

def SameUpToDrive (r r' : Discrepancies) : Prop :=
  (r.newList.map (List.drop 2)).Perm (r'.newList.map (List.drop 2)) ∧
  (r.modList.map (List.drop 2)).Perm (r'.modList.map (List.drop 2)) ∧
  (r.delList.map (List.drop 2)).Perm (r'.delList.map (List.drop 2)) ∧
  (r.corList.map (List.drop 2)).Perm (r'.corList.map (List.drop 2))

lemma dropped_perm (X X' : DriveLetter) {l l' : List Text} {fs fs' : List File}
    (h : l.Perm (fs.map (printedName X))) (h' : l'.Perm (fs'.map (printedName X')))
    (hf : fs.Perm fs') :
    (l.map (List.drop 2)).Perm (l'.map (List.drop 2)) := by
  have hdrop : ∀ (Z : DriveLetter) (fs : List File),
      (fs.map (printedName Z)).map (List.drop 2) = fs.map (fun f => f.path.text) := by
    intro Z fs
    rw [List.map_map]
    rfl
  have hl := h.map (List.drop 2)
  have hl' := h'.map (List.drop 2)
  rw [hdrop] at hl hl'
  exact (hl.trans (hf.map _)).trans hl'.symm

lemma filter_perm_congr {l l' : List File} (h : l.Perm l') {p q : File → Bool}
    (hpq : ∀ f, p f = q f) :
    (l.filter p).Perm (l'.filter q) := by
  rw [funext hpq]
  exact h.filter q

theorem comparison_partitions (cOrder bOrder : IterationOrder Text) (X Y : DriveLetter)
    (bs cs : List File) (hb : DistinctPaths C X bs) (hc : DistinctPaths C Y cs)
    (hp : ∀ f ∈ bs ++ cs, (C.parse f.mtime).isSome) :
    ∃ r, compareDrives C cOrder bOrder X Y bs cs = some r ∧
      r.newList.Perm ((newFiles C bs cs).map (printedName Y)) ∧
      r.modList.Perm ((editedFiles C bs cs).map (printedName Y)) ∧
      r.delList.Perm ((deletedFiles C bs cs).map (printedName X)) ∧
      r.corList.Perm ((corruptFiles C bs cs).map (printedName Y)) ∧
      ((r.newList ++ r.modList ++ r.delList ++ r.corList).map (inventoryKey C)).Nodup ∧
      ∀ (cOrder' bOrder' : IterationOrder Text) (X' Y' : DriveLetter) (bs' cs' : List File),
        bs'.Perm bs → cs'.Perm cs →
          ∃ r', compareDrives C cOrder' bOrder' X' Y' bs' cs' = some r' ∧ SameUpToDrive r r' := by
  obtain ⟨r, hr, hnew, hmod, hdel, hcor⟩ := compareDrives_eq C X Y cOrder bOrder hb.keys hc.keys hp
  refine ⟨r, hr, hnew, hmod, hdel, hcor, ?_, ?_⟩
  · have hall := ((((hnew.append hmod).append hdel).append hcor).map (inventoryKey C)).nodup_iff
    rw [hall]
    have hkey : ∀ (Z : DriveLetter) (fs : List File),
        (fs.map (printedName Z)).map (inventoryKey C) = fs.map (fun f => foldedPath C f.path) := by
      intro Z fs
      rw [List.map_map]
      exact List.map_congr_left (fun f _ => key_absolute C Z f.path)
    simpa only [List.map_append, hkey] using reported_nodup C hb.keys hc.keys
  · intro cOrder' bOrder' X' Y' bs' cs' hbs hcs
    have hb' : (bs'.map (fun f => foldedPath C f.path)).Nodup := (hbs.map _).nodup_iff.mpr hb.keys
    have hc' : (cs'.map (fun f => foldedPath C f.path)).Nodup := (hcs.map _).nodup_iff.mpr hc.keys
    have hp' : ∀ f ∈ bs' ++ cs', (C.parse f.mtime).isSome :=
      fun f hf => hp f ((hbs.append hcs).mem_iff.mp hf)
    obtain ⟨r', hr', hnew', hmod', hdel', hcor'⟩ :=
      compareDrives_eq C X' Y' cOrder' bOrder' hb' hc' hp'
    refine ⟨r', hr', dropped_perm Y Y' hnew hnew' ?_, dropped_perm Y Y' hmod hmod' ?_,
      dropped_perm X X' hdel hdel' ?_, dropped_perm Y Y' hcor hcor' ?_⟩
    · exact filter_perm_congr hcs.symm (fun f => by simp only [hbs.mem_iff])
    · exact filter_perm_congr hcs.symm (fun f => by simp only [hbs.mem_iff])
    · exact filter_perm_congr hbs.symm (fun f => by simp only [hcs.mem_iff])
    · exact filter_perm_congr hcs.symm (fun f => by simp only [hbs.mem_iff])

section Example

def sampleFile (path : String)
    (h : path.toList.head? = some '\\' ∧ ∀ c ∈ path.toList, c ≠ '/' ∧ 32 ≤ c.toNat)
    (md5 mtime : String) : File :=
  ⟨⟨path.toList, h.1, h.2⟩, some ⟨"MD5".toList, md5.toList⟩, mtime.toList⟩

def sampleBaseline : List File :=
  [sampleFile "\\Docs\\a.txt" (by decide) "aa" "2024-03-01T10:00:00Z",
    sampleFile "\\Docs\\b.txt" (by decide) "bb" "2024-03-01T10:00:00Z",
    sampleFile "\\old.txt" (by decide) "cc" "2024-03-01T10:00:00Z",
    sampleFile "\\same.txt" (by decide) "dd" "2024-03-01T10:00:00Z"]

def sampleCurrent : List File :=
  [sampleFile "\\new.txt" (by decide) "ee" "2024-03-02T10:00:00Z",
    sampleFile "\\same.txt" (by decide) "DD" "2024-03-02T10:00:00Z",
    sampleFile "\\docs\\A.TXT" (by decide) "a0" "2024-03-01T10:00:02Z",
    sampleFile "\\docs\\b.txt" (by decide) "b0" "2024-03-02T10:00:00Z"]

theorem comparison_partitions_sample :
    ∃ r, compareDrives plainCulture .listed .listed ⟨'E', by decide⟩ ⟨'F', by decide⟩ sampleBaseline
        sampleCurrent = some r ∧
      r.newList.Perm ["F:\\new.txt".toList] ∧ r.modList.Perm ["F:\\docs\\b.txt".toList] ∧
      r.delList.Perm ["E:\\old.txt".toList] ∧ r.corList.Perm ["F:\\docs\\A.TXT".toList] := by
  obtain ⟨r, hr, hnew, hmod, hdel, hcor, _⟩ := comparison_partitions plainCulture .listed .listed
    ⟨'E', by decide⟩ ⟨'F', by decide⟩ sampleBaseline sampleCurrent (by decide +kernel)
      (by decide +kernel)
    (by decide +kernel)
  refine ⟨r, hr, hnew.trans (List.Perm.of_eq ?_), hmod.trans (List.Perm.of_eq ?_),
    hdel.trans (List.Perm.of_eq ?_), hcor.trans (List.Perm.of_eq ?_)⟩
  all_goals decide +kernel

end Example

end DriveIntegrity.Integrity
