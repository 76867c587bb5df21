import DriveIntegrity.Integrity.Partition

/-! What `quick_file_check` makes of files the hasher could not read. -/

namespace DriveIntegrity.Integrity

variable (C : Culture)

/-- How the hashing job went: the program did not start, or it left out the files it could not
read. -/
inductive HasherRun
  | failed
  | ran (unreadable : File → Bool)

def HasherRun.unread : HasherRun → List File → List File
  | .failed, listed => listed
  | .ran unreadable, listed => listed.filter unreadable

/-- The inventory of a scan as its `current_check.xml` holds it. -/
structure Snapshot where
  mount : DriveLetter
  files : List File

/-- `current_check.xml` after the job: without any input `Set-Content` leaves an older file
alone. -/
def currentCheck (hasher : HasherRun) (stale : Option Snapshot) (Y : DriveLetter)
    (listed : List File) :
    Option Snapshot :=
  match hasher with
  | .failed => stale
  | .ran unreadable => some ⟨Y, listed.filter (fun f => !unreadable f)⟩

/-- A scan compares the baseline with whatever the file holds, and with nothing when there is no
file. -/
def quickFileCheck (cOrder bOrder : IterationOrder Text) (X Y : DriveLetter) (bs listed : List File)
    (hasher : HasherRun) (stale : Option Snapshot) : Option Discrepancies :=
  let current := (currentCheck hasher stale Y listed).getD ⟨Y, []⟩
  compareDrives C cOrder bOrder X current.mount bs current.files

/-- The run neither reports an unread file as deleted nor grades the drive `High` in spite of
one. -/
def Cautious (unread : List File) (r : Discrepancies) : Prop :=
  (∀ u ∈ unread, ∀ name ∈ r.delList, inventoryKey C name ≠ foldedPath C u.path) ∧
    (unread ≠ [] → integrityGrade r.corList ≠ "High".toList)

section Report

variable {C} {X Y : DriveLetter} {bs cs : List File} {r : Discrepancies}

lemma not_deleted_iff
    (hdel : r.delList.Perm ((deletedFiles C bs cs).map (printedName X))) {u : File}
    (hu : ∃ b ∈ bs, Matches C b u) :
    (∀ name ∈ r.delList, inventoryKey C name ≠ foldedPath C u.path) ↔ ∃ c ∈ cs, Matches C c u := by
  obtain ⟨b, hb, hm⟩ := hu
  constructor
  · intro h
    by_contra hnone
    have hbd : b ∈ deletedFiles C bs cs := by
      refine List.mem_filter.mpr ⟨hb, decide_eq_true ?_⟩
      intro c hc hbc
      exact hnone ⟨c, hc, hbc.symm.trans hm⟩
    apply h (printedName X b) (hdel.mem_iff.mpr (List.mem_map_of_mem hbd))
    rw [printedName, key_absolute]
    exact hm
  · rintro ⟨c, hc, hcu⟩ name hname he
    obtain ⟨d, hd, rfl⟩ := List.mem_map.mp (hdel.mem_iff.mp hname)
    rw [printedName, key_absolute] at he
    exact of_decide_eq_true (List.mem_filter.mp hd).2 c hc (he.trans hcu.symm)

lemma cautious_iff (hdel : r.delList.Perm ((deletedFiles C bs cs).map (printedName X)))
    (hcor : r.corList.Perm ((corruptFiles C bs cs).map (printedName Y))) {unread : List File}
    (hin : ∀ u ∈ unread, ∃ b ∈ bs, Matches C b u) :
    Cautious C unread r ↔
      (∀ u ∈ unread, ∃ c ∈ cs, Matches C c u) ∧ (unread ≠ [] → corruptFiles C bs cs ≠ []) := by
  have hlow : integrityGrade r.corList ≠ "High".toList ↔ corruptFiles C bs cs ≠ [] := by
    rw [integrityGrade_ne_high, ne_eq, ne_eq, ← List.length_eq_zero_iff, hcor.length_eq,
      List.length_map, List.length_eq_zero_iff]
  rw [Cautious, hlow]
  apply and_congr_left'
  exact forall₂_congr (fun u hu => not_deleted_iff hdel (hin u hu))

lemma compareDrives_cautious (cOrder bOrder : IterationOrder Text)
    (hb : (bs.map (fun f => foldedPath C f.path)).Nodup)
    (hc : (cs.map (fun f => foldedPath C f.path)).Nodup)
    (hp : ∀ f ∈ bs ++ cs, (C.parse f.mtime).isSome) {unread : List File}
    (hin : ∀ u ∈ unread, ∃ b ∈ bs, Matches C b u) :
    ∃ r, compareDrives C cOrder bOrder X Y bs cs = some r ∧
      (Cautious C unread r ↔
        (∀ u ∈ unread, ∃ c ∈ cs, Matches C c u) ∧ (unread ≠ [] → corruptFiles C bs cs ≠ [])) := by
  obtain ⟨r, hr, _, _, hdel, hcor⟩ := compareDrives_eq C X Y cOrder bOrder hb hc hp
  exact ⟨r, hr, cautious_iff hdel hcor hin⟩

lemma unread_found_iff {listed : List File} (hl : (listed.map (fun f => foldedPath C f.path)).Nodup)
    (unreadable : File → Bool) :
    (∀ u ∈ listed.filter unreadable, ∃ c ∈ listed.filter (fun f => !unreadable f), Matches C c u) ↔
      listed.filter unreadable = [] := by
  constructor
  · intro hall
    apply List.eq_nil_iff_forall_not_mem.mpr
    intro u hu
    obtain ⟨c, hc, hm⟩ := hall u hu
    obtain ⟨hul, huu⟩ := List.mem_filter.mp hu
    obtain ⟨hcl, hcu⟩ := List.mem_filter.mp hc
    -- the entry would be the unread file itself
    obtain rfl := List.inj_on_of_nodup_map hl hcl hul hm
    simp [huu] at hcu
  · intro h
    simp [h]

end Report

theorem unread_files_cautious_iff (cOrder bOrder : IterationOrder Text) (X Y : DriveLetter)
    (bs listed : List File) (hb : DistinctPaths C X bs) (hd : DistinctPaths C Y listed)
    (hp : ∀ f ∈ bs ++ listed, (C.parse f.mtime).isSome)
    (hin : ∀ f ∈ listed, ∃ b ∈ bs, Matches C b f)
    (hasher : HasherRun) (stale : Option Snapshot)
    (hs : ∀ s ∈ stale, DistinctPaths C s.mount s.files ∧ ∀ f ∈ s.files, (C.parse f.mtime).isSome) :
    ∃ r, quickFileCheck C cOrder bOrder X Y bs listed hasher stale = some r ∧
      (Cautious C (hasher.unread listed) r ↔
        hasher.unread listed = [] ∨ (hasher matches .failed) ∧ ∃ s ∈ stale,
          (∀ f ∈ listed, ∃ c ∈ s.files, Matches C c f) ∧ corruptFiles C bs s.files ≠ []) := by
  have hunread : ∀ u ∈ hasher.unread listed, ∃ b ∈ bs, Matches C b u := by
    intro u hu
    cases hasher with
    | failed => exact hin u hu
    | ran unreadable => exact hin u (List.mem_of_mem_filter hu)
  cases hasher with
  | ran unreadable =>
    have hck :
        ((listed.filter (fun f => !unreadable f)).map (fun f => foldedPath C f.path)).Nodup :=
      (List.filter_sublist.map _).nodup hd.keys
    have hcp : ∀ f ∈ bs ++ listed.filter (fun f => !unreadable f), (C.parse f.mtime).isSome := by
      intro f hf
      apply hp f
      rcases List.mem_append.mp hf with h | h
      · exact List.mem_append_left listed h
      · exact List.mem_append_right bs (List.mem_of_mem_filter h)
    obtain ⟨r, hr, hiff⟩ := compareDrives_cautious cOrder bOrder hb.keys hck hcp hunread
    refine ⟨r, hr, ?_⟩
    rw [hiff]
    simp only [HasherRun.unread, Bool.false_eq_true, false_and, or_false]
    rw [unread_found_iff hd.keys]
    exact and_iff_left_of_imp (fun h hne => absurd h hne)
  | failed =>
    cases stale with
    | none =>
      have hbp : ∀ f ∈ bs ++ [], (C.parse f.mtime).isSome :=
        fun f hf => hp f (List.mem_append_left listed (by simpa using hf))
      have hnone : (([] : List File).map (fun f => foldedPath C f.path)).Nodup := List.nodup_nil
      obtain ⟨r, hr, hiff⟩ := compareDrives_cautious cOrder bOrder hb.keys hnone hbp hunread
      refine ⟨r, hr, ?_⟩
      rw [hiff]
      simp only [HasherRun.unread, Option.mem_def, reduceCtorEq, false_and, exists_false,
        and_false, or_false, List.not_mem_nil]
      constructor
      · rintro ⟨hall, _⟩
        exact List.eq_nil_iff_forall_not_mem.mpr hall
      · rintro rfl
        simp
    | some s =>
      obtain ⟨hsd, hsp⟩ := hs s rfl
      have hbp : ∀ f ∈ bs ++ s.files, (C.parse f.mtime).isSome :=
        fun f hf =>
          (List.mem_append.mp hf).elim (fun h => hp f (List.mem_append_left listed h)) (hsp f)
      obtain ⟨r, hr, hiff⟩ := compareDrives_cautious cOrder bOrder hb.keys hsd.keys hbp hunread
      refine ⟨r, hr, ?_⟩
      rw [hiff]
      simp only [HasherRun.unread, Option.mem_def, Option.some.injEq, exists_eq_left', true_and]
      constructor
      · rintro ⟨hall, hgrade⟩
        by_cases hl : listed = []
        · exact Or.inl hl
        · exact Or.inr ⟨hall, hgrade hl⟩
      · rintro (rfl | ⟨hall, hgrade⟩)
        · simp
        · exact ⟨hall, fun _ => hgrade⟩

section Example

def mountG : DriveLetter := ⟨'G', by decide⟩

def photos : List File :=
  [sampleFile "\\p1" (by decide) "a0" "2024-03-01T10:00:00Z",
    sampleFile "\\p2" (by decide) "b0" "2024-03-01T10:00:00Z"]

/-- An older scan of the same files, in which one had rotted -/
def stalePhotos : Snapshot :=
  ⟨mountG, [sampleFile "\\p1" (by decide) "ff" "2024-03-01T10:00:00Z",
    sampleFile "\\p2" (by decide) "b0" "2024-03-01T10:00:00Z"]⟩

/-- Every file is read, or the job fails and an older scan with a corrupt file is compared. -/
theorem unread_files_cautious_none :
    (∃ r, quickFileCheck plainCulture .listed .listed mountG mountG photos photos
      (.ran (fun _ => false)) none = some r ∧
      Cautious plainCulture [] r) ∧
    ∃ r, quickFileCheck plainCulture .listed .listed mountG mountG photos photos .failed
      (some stalePhotos) = some r ∧
      Cautious plainCulture photos r := by
  have hcautious (hasher : HasherRun) (stale : Option Snapshot)
      (hs : ∀ s ∈ stale, DistinctPaths plainCulture s.mount s.files ∧ ∀ f ∈ s.files,
        (plainCulture.parse f.mtime).isSome) :=
    unread_files_cautious_iff plainCulture .listed .listed mountG mountG photos photos
      (by decide +kernel)
      (by decide +kernel) (by decide +kernel) (fun f hf => ⟨f, hf, rfl⟩) hasher stale hs
  constructor
  · obtain ⟨r, hr, hiff⟩ := hcautious (.ran fun _ => false) none (by simp)
    exact ⟨r, hr, hiff.mpr (Or.inl rfl)⟩
  · obtain ⟨r, hr, hiff⟩ := hcautious .failed (some stalePhotos) (by decide +kernel)
    exact ⟨r, hr, hiff.mpr (Or.inr ⟨rfl, stalePhotos, rfl, by decide +kernel, by decide +kernel⟩)⟩

/-- The file that could not be read is reported as deleted, and the drive is graded `High`. -/
theorem unread_file_deleted :
    ∃ r, quickFileCheck plainCulture .listed .listed mountG mountG photos photos
        (.ran (fun f => decide (f.path.text = "\\p2".toList))) none = some r ∧
      r.delList = ["G:\\p2".toList] ∧ integrityGrade r.corList = "High".toList ∧
      ¬ Cautious plainCulture (photos.drop 1) r := by
  refine ⟨⟨[], [], ["G:\\p2".toList], []⟩, by decide +kernel, rfl, by decide, ?_⟩
  intro h
  exact h.2 (by decide +kernel) (by decide)

end Example

end DriveIntegrity.Integrity
