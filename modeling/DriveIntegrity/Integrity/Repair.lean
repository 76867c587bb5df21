import DriveIntegrity.Integrity.Partition
import DriveIntegrity.Integrity.Recovery
import DriveIntegrity.Integrity.ParityRuns

/-! The repair step of `quick_file_check` works on whole parity sets. -/

namespace DriveIntegrity.Integrity

variable (C : Culture) {Content : Type}

/-- `recovery_data_part<n>.par2` for each part number; the targets are baseline files. -/
structure ParitySets (Content : Type) (bs : List File) where
  part : ℕ → Option (List (Target Content))
  fromBaseline : ∀ {n set}, part n = some set → ∀ t ∈ set, ∃ b ∈ bs, foldedPath C b.path = t.path
  nodup : ∀ {n set}, part n = some set → (set.map Target.path).Nodup
  apart : ∀ {m n set set'}, part m = some set → part n = some set' →
    ∀ t ∈ set, ∀ t' ∈ set', t.path = t'.path → m = n

/-- The target `par2 c` stores for a listed name. -/
def storedTarget (X : DriveLetter) (bs : List File) (content : File → Content) (name : Text) :
    Option (Target Content) :=
  (bs.find? (fun b => decide (printedName X b = name))).map
    (fun b => ⟨foldedPath C b.path, content b⟩)

/-- The sets `create_recovery` makes of the baseline. -/
def createdPart (X : DriveLetter) (bs : List File) (content : File → Content) (n : ℕ) :
    Option (List (Target Content)) :=
  if n = 0 then none
  else (chunks (bs.map (printedName X)))[n - 1]?.map
    (fun chunk => chunk.filterMap (storedTarget C X bs content))

lemma storedTarget_spec {X : DriveLetter} {bs : List File} {content : File → Content} {name : Text}
    {t : Target Content} (h : storedTarget C X bs content name = some t) :
    ∃ b ∈ bs, printedName X b = name ∧ foldedPath C b.path = t.path := by
  obtain ⟨b, hf, rfl⟩ := Option.map_eq_some_iff.mp h
  exact ⟨b, List.mem_of_find?_eq_some hf, by simpa using List.find?_some hf, rfl⟩

lemma storedTarget_inj {X : DriveLetter} {bs : List File} (hb : DistinctPaths C X bs)
    {content : File → Content} {name name' : Text} {t t' : Target Content}
    (h : storedTarget C X bs content name = some t)
    (h' : storedTarget C X bs content name' = some t')
    (he : t.path = t'.path) : name = name' := by
  obtain ⟨b, hbm, rfl, hp⟩ := storedTarget_spec C h
  obtain ⟨b', hbm', rfl, hp'⟩ := storedTarget_spec C h'
  rw [List.inj_on_of_nodup_map hb.keys hbm hbm' (hp.trans (he.trans hp'.symm))]

lemma createdPart_spec {X : DriveLetter} {bs : List File} {content : File → Content} {n : ℕ}
    {set : List (Target Content)} (h : createdPart C X bs content n = some set) :
    0 < n ∧ ∃ chunk, (chunks (bs.map (printedName X)))[n - 1]? = some chunk ∧
      chunk.filterMap (storedTarget C X bs content) = set := by
  rw [createdPart] at h
  split_ifs at h with h0
  obtain ⟨chunk, hc, rfl⟩ := Option.map_eq_some_iff.mp h
  exact ⟨Nat.pos_of_ne_zero h0, chunk, hc, rfl⟩

lemma printedNames_nodup {X : DriveLetter} {bs : List File} (hb : DistinctPaths C X bs) :
    (bs.map (printedName X)).Nodup := by
  apply List.Nodup.of_map C.lower
  rw [List.map_map]
  exact hb

/-- What `create_recovery` leaves after a full run. -/
def ParitySets.created (X : DriveLetter) (bs : List File) (hb : DistinctPaths C X bs)
    (content : File → Content) : ParitySets C Content bs where
  part := createdPart C X bs content
  fromBaseline h t ht := by
    obtain ⟨_, chunk, _, rfl⟩ := createdPart_spec C h
    obtain ⟨name, _, hs⟩ := List.mem_filterMap.mp ht
    obtain ⟨b, hbm, _, hp⟩ := storedTarget_spec C hs
    exact ⟨b, hbm, hp⟩
  nodup h := by
    obtain ⟨_, chunk, hc, rfl⟩ := createdPart_spec C h
    rw [List.map_filterMap]
    apply List.Nodup.filterMap _ (chunk_nodup (printedNames_nodup C hb) hc)
    intro name name' path hm hm'
    obtain ⟨t, ht, rfl⟩ := Option.map_eq_some_iff.mp hm
    obtain ⟨t', ht', he⟩ := Option.map_eq_some_iff.mp hm'
    exact storedTarget_inj C hb ht ht' he.symm
  apart h h' t ht t' ht' he := by
    obtain ⟨hm, chunk, hc, rfl⟩ := createdPart_spec C h
    obtain ⟨hn, chunk', hc', rfl⟩ := createdPart_spec C h'
    obtain ⟨name, hname, hs⟩ := List.mem_filterMap.mp ht
    obtain ⟨name', hname', hs'⟩ := List.mem_filterMap.mp ht'
    obtain rfl := storedTarget_inj C hb hs hs' he
    have := chunk_unique (printedNames_nodup C hb) hc hc' hname hname'
    omega

/-- The set the script repairs for a corrupt file. -/
def repairSet (masterList : Option (List Text)) (part : ℕ → Option (List (Target Content)))
    (corruptFile : Text) : Option (List (Target Content)) :=
  masterList.bind
    (fun list => (masterIndex list corruptFile).bind (fun index => part (partNumber index)))

variable {C} in
lemma ParitySets.separate {bs : List File} (sets : ParitySets C Content bs)
    {calls : List (List (Target Content))}
    (h : ∀ s ∈ calls, ∃ n, sets.part n = some s) : Separate calls where
  nodup s hs := by
    obtain ⟨n, hn⟩ := h s hs
    exact sets.nodup hn
  apart s hs s' hs' t ht t' ht' he := by
    obtain ⟨m, hm⟩ := h s hs
    obtain ⟨n, hn⟩ := h s' hs'
    obtain rfl := sets.apart hm hn t ht t' ht' he
    exact Option.some.inj (hm.symm.trans hn)

lemma repairSet_part {masterList : Option (List Text)} {part : ℕ → Option (List (Target Content))}
    {file : Text} {set : List (Target Content)} (h : repairSet masterList part file = some set) :
    ∃ n, part n = some set := by
  obtain ⟨list, _, h⟩ := Option.bind_eq_some_iff.mp h
  obtain ⟨index, _, h⟩ := Option.bind_eq_some_iff.mp h
  exact ⟨_, h⟩

variable [DecidableEq Content]

def repairFile (enough : List (Target Content) → List (Option Content) → Bool)
    (masterList : Option (List Text))
    (part : ℕ → Option (List (Target Content))) (drive : Drive Content) (corruptFile : Text) :
    Drive Content :=
  match repairSet masterList part corruptFile with
  | some set => par2Repair enough drive set
  | none => drive

/-- The repair branch; without `baseline_files.txt` it returns at once. -/
def repairStep (enough : List (Target Content) → List (Option Content) → Bool) (userAccepts : Bool)
    (masterList : Option (List Text)) (part : ℕ → Option (List (Target Content)))
    (corList : List Text)
    (drive : Drive Content) : Drive Content :=
  if corList.length > 0 ∧ userAccepts ∧ masterList.isSome then
    corList.foldl (repairFile enough masterList part) drive
  else drive

lemma repairFiles_eq (enough : List (Target Content) → List (Option Content) → Bool)
    (masterList : Option (List Text)) (part : ℕ → Option (List (Target Content)))
    (corList : List Text)
    (drive : Drive Content) :
    corList.foldl (repairFile enough masterList part) drive =
      (corList.filterMap (repairSet masterList part)).foldl (par2Repair enough) drive := by
  induction corList generalizing drive with
  | nil => rfl
  | cons file corList ih =>
    rw [List.foldl_cons, ih, List.filterMap_cons, repairFile]
    cases repairSet masterList part file <;> rfl

lemma repairStep_eq (enough : List (Target Content) → List (Option Content) → Bool)
    (masterList : Option (List Text)) (part : ℕ → Option (List (Target Content)))
    (corList : List Text)
    (drive : Drive Content) :
    repairStep enough true masterList part corList drive =
      (corList.filterMap (repairSet masterList part)).foldl (par2Repair enough) drive := by
  rw [repairStep, ← repairFiles_eq]
  split_ifs with h
  · rfl
  · rw [repairFiles_eq]
    cases masterList with
    | none =>
      have hnone : ∀ file ∈ corList, repairSet none part file = none := fun _ _ => rfl
      rw [List.filterMap_eq_nil_iff.mpr hnone]
      rfl
    | some list =>
      have hl : corList = [] := by simpa using h
      rw [hl]
      rfl

/-- The path of a file of one of the inventories that is not in the corrupt list. -/
def NotCorrupt (bs cs : List File) (path : Text) : Prop :=
  (∃ f ∈ bs ++ cs, foldedPath C f.path = path) ∧ ∀ c ∈ corruptFiles C bs cs,
  foldedPath C c.path ≠ path

instance (bs cs : List File) (path : Text) : Decidable (NotCorrupt C bs cs path) :=
  inferInstanceAs (Decidable (_ ∧ _))

theorem repair_spares_others_iff (cOrder bOrder : IterationOrder Text) (X Y : DriveLetter)
    (bs cs : List File) (hb : DistinctPaths C X bs) (hc : DistinctPaths C Y cs)
    (hp : ∀ f ∈ bs ++ cs, (C.parse f.mtime).isSome) (sets : ParitySets C Content bs)
    (enough : List (Target Content) → List (Option Content) → Bool)
    (masterList : Option (List Text))
    (drive : Drive Content) (hdrive : ∀ c ∈ cs, drive.get? (foldedPath C c.path) ≠ none) :
    ∃ r, compareDrives C cOrder bOrder X Y bs cs = some r ∧
      ((∀ path, NotCorrupt C bs cs path →
          (repairStep enough true masterList sets.part r.corList drive).get? path =
            drive.get? path) ↔
        ∀ c ∈ corruptFiles C bs cs, ∀ set,
        repairSet masterList sets.part (printedName Y c) = some set →
          enough set (targetContents drive set) = true →
            (∀ t ∈ set, NotCorrupt C bs cs t.path → drive.get? t.path = some t.stored) ∧
              ∀ name ∈ backups drive set, ¬ NotCorrupt C bs cs name) := by
  obtain ⟨r, hr, _, _, _, hcor⟩ := compareDrives_eq C X Y cOrder bOrder hb.keys hc.keys hp
  refine ⟨r, hr, ?_⟩
  set calls := r.corList.filterMap (repairSet masterList sets.part) with hcalls
  have hpart : ∀ s ∈ calls, ∃ n, sets.part n = some s := by
    intro s hs
    obtain ⟨file, _, hf⟩ := List.mem_filterMap.mp hs
    exact repairSet_part hf
  have hexist : ∀ s ∈ calls, ∀ t ∈ s, ¬ NotCorrupt C bs cs t.path → drive.get? t.path ≠ none := by
    intro s hs t ht hn
    obtain ⟨n, hsn⟩ := hpart s hs
    obtain ⟨b, hbm, he⟩ := sets.fromBaseline hsn t ht
    by_contra hnone
    apply hn
    refine ⟨⟨b, List.mem_append_left cs hbm, he⟩, ?_⟩
    intro c hcm hce
    exact hdrive c (List.mem_of_mem_filter hcm) (hce ▸ hnone)
  rw [repairStep_eq, ← hcalls, runs_spare_iff (sets.separate hpart) (List.Subset.refl calls) hexist]
  constructor
  · intro h c hcm set hset
    refine h set (List.mem_filterMap.mpr ⟨printedName Y c, ?_, hset⟩)
    exact hcor.mem_iff.mpr (List.mem_map_of_mem hcm)
  · intro h set hset
    obtain ⟨file, hf, hs⟩ := List.mem_filterMap.mp hset
    obtain ⟨c, hcm, rfl⟩ := List.mem_map.mp (hcor.mem_iff.mp hf)
    exact h c hcm set hs

section Example

def twoFiles : List File :=
  [sampleFile "\\a" (by decide) "a0" "2024-03-01T10:00:00Z",
    sampleFile "\\b" (by decide) "b0" "2024-03-01T10:00:00Z"]

def rottedAndEdited : List File :=
  [sampleFile "\\a" (by decide) "a1" "2024-03-01T10:00:00Z",
    sampleFile "\\b" (by decide) "b1" "2024-03-02T10:00:00Z"]

def md5Content (f : File) : Text := (fileMd5 plainCulture f).getD []

def driveOf (files : List File) : Drive Text :=
  HashTable.ofPairs (files.map (fun f => (foldedPath plainCulture f.path, md5Content f)))

def letterE : DriveLetter := ⟨'E', isAlpha_E⟩

def twoFilesParity : ParitySets plainCulture Text twoFiles :=
  .created plainCulture letterE twoFiles (by decide +kernel) md5Content

/-- Repairing the rotted file puts the old content of the edited one back. -/
theorem repair_reverts_edit :
    ∃ r,
    compareDrives plainCulture .listed .listed letterE letterE twoFiles rottedAndEdited = some r ∧
      r.modList = ["E:\\b".toList] ∧ r.corList = ["E:\\a".toList] ∧
      NotCorrupt plainCulture twoFiles rottedAndEdited "/b".toList ∧
      (driveOf rottedAndEdited).get? "/b".toList = some "b1".toList ∧
      (repairStep (fun _ _ => true) true (some ["E:\\a".toList, "E:\\b".toList])
        twoFilesParity.part r.corList
        (driveOf rottedAndEdited)).get? "/b".toList = some "b0".toList := by
  refine ⟨⟨[], ["E:\\b".toList], [], ["E:\\a".toList]⟩, ?_, rfl, rfl, ?_, ?_, ?_⟩
  all_goals decide +kernel

def rottedOnly : List File :=
  [sampleFile "\\a" (by decide) "a1" "2024-03-01T10:00:00Z",
    sampleFile "\\b" (by decide) "b0" "2024-03-01T10:00:00Z"]

theorem repair_spares_intact_file :
    ∃ r, compareDrives plainCulture .listed .listed letterE letterE twoFiles rottedOnly = some r ∧
      ∀ path, NotCorrupt plainCulture twoFiles rottedOnly path →
        (repairStep (fun _ _ => true) true (some ["E:\\a".toList, "E:\\b".toList])
          twoFilesParity.part r.corList
          (driveOf rottedOnly)).get? path = (driveOf rottedOnly).get? path := by
  obtain ⟨r, hr, hiff⟩ :=
    repair_spares_others_iff plainCulture .listed .listed letterE letterE twoFiles
    rottedOnly (by decide +kernel) (by decide +kernel) (by decide +kernel) twoFilesParity
      (fun _ _ => true)
    (some ["E:\\a".toList, "E:\\b".toList]) (driveOf rottedOnly) (by decide +kernel)
  refine ⟨r, hr, hiff.mpr ?_⟩
  have hset : ∀ c ∈ corruptFiles plainCulture twoFiles rottedOnly,
      repairSet (some ["E:\\a".toList, "E:\\b".toList]) twoFilesParity.part
        (printedName letterE c) =
        some [⟨"/a".toList, "a0".toList⟩, ⟨"/b".toList, "b0".toList⟩] := by decide +kernel
  intro c hc set hs _
  rw [hset c hc, Option.some.injEq] at hs
  subst hs
  decide +kernel

end Example

end DriveIntegrity.Integrity
