import DriveIntegrity.Integrity.Inventory

/-! The comparison loop of `quick_file_check`. -/

namespace DriveIntegrity.Integrity

variable (C : Culture)

inductive Verdict
  | new
  | corrupt
  | modified
  | unchanged
  deriving DecidableEq

def timesAgree (oldTime newTime : ℤ) : Bool :=
  decide (|((newTime - oldTime : ℤ) : ℚ)| / 10000000 < 21 / 10)

/-- The text of the `md5` digest; PowerShell's `-eq` ignores case. -/
def md5Text (node : FileObject) : Option Text :=
  match node.hashdigest with
  | some d => if C.lower d.type = C.lower "md5".toList then some d.text else none
  | none => none

/-- The verdict on a matched pair; `none` when `DateTime.Parse` throws. -/
def compareHashes (old new : FileObject) : Option Verdict :=
  match md5Text C old, md5Text C new with
  | some oldHash, some newHash =>
    if oldHash ≠ [] ∧ newHash ≠ [] ∧ C.lower oldHash ≠ C.lower newHash then
      match C.parse old.mtime, C.parse new.mtime with
      | some oldTime, some newTime =>
          some (if timesAgree oldTime newTime then .corrupt else .modified)
      | _, _ => none
    else some .unchanged
  | _, _ => some .unchanged

structure Comparison where
  bFiles : Inventory C
  newList : List Text
  modList : List Text
  corList : List Text

/-- `$table[$key]`, `$null` when there is no such key. -/
def nodeAt (table : Inventory C) (key : Text) : FileObject :=
  (table.get? key).getD ⟨none, none, []⟩

/-- The body of the loop over `$cFiles.Keys`. -/
def compareKey (cFiles : Inventory C) (st : Comparison C) (key : Text) : Option (Comparison C) :=
  let new := nodeAt C cFiles key
  match st.bFiles.get? key with
  | none => some { st with newList := st.newList ++ [new.name] }
  | some old =>
    let bFiles := st.bFiles.remove key
    match compareHashes C old new with
    | none => none
    | some .corrupt => some { st with bFiles := bFiles, corList := st.corList ++ [new.name] }
    | some .modified => some { st with bFiles := bFiles, modList := st.modList ++ [new.name] }
    | some _ => some { st with bFiles := bFiles }

structure Discrepancies where
  newList : List Text
  modList : List Text
  delList : List Text
  corList : List Text
  deriving DecidableEq

def integrityGrade (corList : List Text) : Text :=
  if corList.length > 0 then "Low".toList else "High".toList

lemma integrityGrade_low_iff (corList : List Text) :
    integrityGrade corList = "Low".toList ↔ 0 < corList.length := by
  unfold integrityGrade
  split_ifs with h
  · exact iff_of_true rfl h
  · exact iff_of_false (by decide) h

lemma integrityGrade_ne_high (corList : List Text) :
    integrityGrade corList ≠ "High".toList ↔ corList ≠ [] := by
  cases corList with
  | nil => simp [integrityGrade]
  | cons name names => simp [integrityGrade]

/-- The comparison of two inventories, with the orders in which the two tables enumerate their
keys. -/
def compareInventories (cOrder bOrder : IterationOrder Text) (bFiles cFiles : Inventory C) :
    Option Discrepancies :=
  ((cOrder.run cFiles.keys).foldlM (compareKey C cFiles) ⟨bFiles, [], [], []⟩).map (fun st =>
    { newList := st.newList
      modList := st.modList
      delList := (bOrder.run st.bFiles.keys).map (fun key => (nodeAt C st.bFiles key).name)
      corList := st.corList })

def verdictAt (bFiles cFiles : Inventory C) (key : Text) : Option Verdict :=
  match bFiles.get? key with
  | none => some .new
  | some old => compareHashes C old (nodeAt C cFiles key)

lemma compareHashes_ne_new (old new : FileObject) : compareHashes C old new ≠ some .new := by
  unfold compareHashes
  split
  · split_ifs
    · split
      · split_ifs <;> simp
      · simp
    · simp
  · simp

def reported (verdict : Text → Verdict) (v : Verdict) (cFiles : Inventory C) (keys : List Text) :
    List Text :=
  (keys.filter (fun k => decide (verdict k = v))).map (fun k => (nodeAt C cFiles k).name)

lemma compareKey_eq (cFiles : Inventory C) (st : Comparison C) (key : Text) (v : Verdict)
    (hv : verdictAt C st.bFiles cFiles key = some v) :
    compareKey C cFiles st key = some
      { bFiles := st.bFiles.remove key
        newList := st.newList ++ reported C (fun _ => v) .new cFiles [key]
        modList := st.modList ++ reported C (fun _ => v) .modified cFiles [key]
        corList := st.corList ++ reported C (fun _ => v) .corrupt cFiles [key] } := by
  unfold verdictAt at hv
  cases hb : st.bFiles.get? key with
  | none =>
    rw [hb, Option.some.injEq] at hv
    subst hv
    simp [compareKey, hb, reported, HashTable.remove_of_absent _ _ hb]
  | some old =>
    simp only [hb] at hv
    have hn := compareHashes_ne_new C old (nodeAt C cFiles key)
    rw [hv] at hn
    cases v <;> simp_all [compareKey, reported]

lemma compareKeys_eq (cFiles : Inventory C) (verdict : Text → Verdict) (keys : List Text)
    (hn : (keys.map C.lower).Nodup) (st : Comparison C)
    (hv : ∀ k ∈ keys, verdictAt C st.bFiles cFiles k = some (verdict k)) :
    keys.foldlM (compareKey C cFiles) st = some
      { bFiles := st.bFiles.removeAll keys
        newList := st.newList ++ reported C verdict .new cFiles keys
        modList := st.modList ++ reported C verdict .modified cFiles keys
        corList := st.corList ++ reported C verdict .corrupt cFiles keys } := by
  induction keys generalizing st with
  | nil => simp [reported, HashTable.removeAll]
  | cons key keys ih =>
    rw [List.map_cons, List.nodup_cons] at hn
    obtain ⟨hk, hn⟩ := hn
    rw [List.foldlM_cons, compareKey_eq C cFiles st key (verdict key) (hv key (by simp))]
    have hrest : ∀ k ∈ keys, verdictAt C (st.bFiles.remove key) cFiles k = some (verdict k) := by
      intro k hkm
      have hne : C.lower k ≠ C.lower key := fun h => hk (h ▸ List.mem_map_of_mem hkm)
      rw [← hv k (by simp [hkm]), verdictAt, verdictAt, HashTable.get?_remove_of_ne _ hne]
    change keys.foldlM (compareKey C cFiles) _ = _
    rw [ih hn _ hrest]
    have hcons : ∀ v, reported C verdict v cFiles (key :: keys) =
        reported C (fun _ => verdict key) v cFiles [key] ++ reported C verdict v cFiles keys := by
      intro v
      simp only [reported, List.filter_cons, List.filter_nil]
      split_ifs <;> rfl
    simp only [hcons, List.append_assoc]
    rfl

def corruptKeys (bFiles cFiles : Inventory C) : List Text :=
  cFiles.keys.filter (fun k => decide (verdictAt C bFiles cFiles k = some .corrupt))

lemma verdictAt_of_compareKey {cFiles : Inventory C} {st st' : Comparison C} {key : Text}
    (h : compareKey C cFiles st key = some st') :
    (verdictAt C st.bFiles cFiles key).isSome = true ∧
      ∀ k, C.lower k ≠ C.lower key → st'.bFiles.get? k = st.bFiles.get? k := by
  unfold compareKey at h
  unfold verdictAt
  cases hb : st.bFiles.get? key with
  | none =>
    simp only [hb, Option.some.injEq] at h
    subst h
    exact ⟨rfl, fun _ _ => rfl⟩
  | some old =>
    simp only [hb] at h
    cases hv : compareHashes C old (nodeAt C cFiles key) with
    | none =>
      rw [hv] at h
      cases h
    | some v =>
      rw [hv] at h
      refine ⟨by simp only [hv, Option.isSome_some], fun k hk => ?_⟩
      cases v <;> (cases h; exact HashTable.get?_remove_of_ne _ hk)

lemma verdicts_of_compareKeys {cFiles : Inventory C} {keys : List Text}
    (hn : (keys.map C.lower).Nodup)
    {st st' : Comparison C} (h : keys.foldlM (compareKey C cFiles) st = some st') :
    ∀ k ∈ keys, (verdictAt C st.bFiles cFiles k).isSome = true := by
  induction keys generalizing st with
  | nil => exact fun k hk => absurd hk List.not_mem_nil
  | cons key keys ih =>
    rw [List.map_cons, List.nodup_cons] at hn
    rw [List.foldlM_cons] at h
    obtain ⟨mid, hm, hr⟩ := Option.bind_eq_some_iff.mp h
    obtain ⟨hv, hframe⟩ := verdictAt_of_compareKey C hm
    intro k hk
    rcases List.mem_cons.mp hk with rfl | hk
    · exact hv
    · have hne : C.lower k ≠ C.lower key := fun he => hn.1 (he ▸ List.mem_map_of_mem hk)
      have hrest := ih hn.2 hr k hk
      rwa [verdictAt, hframe k hne, ← verdictAt] at hrest

lemma corList_length {cOrder bOrder : IterationOrder Text} {bFiles cFiles : Inventory C}
    {r : Discrepancies} (h : compareInventories C cOrder bOrder bFiles cFiles = some r) :
    r.corList.length = (corruptKeys C bFiles cFiles).length := by
  obtain ⟨st, hst, rfl⟩ := Option.map_eq_some_iff.mp h
  have hperm := cOrder.perm cFiles.keys
  have hn : ((cOrder.run cFiles.keys).map C.lower).Nodup := by
    rw [(hperm.map C.lower).nodup_iff, HashTable.keys, List.map_map]
    exact cFiles.distinct
  have hv : ∀ k ∈ cOrder.run cFiles.keys,
      verdictAt C bFiles cFiles k = some ((verdictAt C bFiles cFiles k).getD .new) := by
    intro k hk
    obtain ⟨v, he⟩ := Option.isSome_iff_exists.mp (verdicts_of_compareKeys C hn hst k hk)
    rw [he, Option.getD_some]
  rw [compareKeys_eq C cFiles _ _ hn _ hv, Option.some.injEq] at hst
  subst hst
  have hfilter : (cOrder.run cFiles.keys).filter
        (fun k => decide ((verdictAt C bFiles cFiles k).getD .new = .corrupt)) =
      (cOrder.run cFiles.keys).filter
        (fun k => decide (verdictAt C bFiles cFiles k = some .corrupt)) := by
    refine List.filter_congr (fun k hk => ?_)
    rw [hv k hk, Option.getD_some]
    simp
  simp only [List.nil_append, reported, List.length_map]
  rw [hfilter]
  exact (hperm.filter _).length_eq

end DriveIntegrity.Integrity
