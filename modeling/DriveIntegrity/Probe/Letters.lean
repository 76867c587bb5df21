import DriveIntegrity.Probe.Texts
import DriveIntegrity.Status.Writers

/-! Which of a disk's volumes `full_probe` names, and what `deviceinfo` makes of a letter. -/

namespace DriveIntegrity.Probe

open Integrity (Text)
open Status
  (LocalTime DriveStats rootOpen openLine closeLine leafLine copyBlock rootClose
    xmlEscape deviceinfo)

section Selection

variable {tB : LocalTime} {disks : List Disk} {d : Disk}

lemma find_record (target : Text) :
    (probeRecords tB disks).find? (fun r => decide (toUpper r.letter = target)) =
      ((disks.filter (fun d => decide (1 / 100 < d.totGB))).find?
        (fun d => decide (d.mounted.letter = target))).map
        (fun d => d.record tB) := by
  unfold probeRecords
  rw [List.find?_map]
  congr 2
  funext e
  exact congrArg (fun t => decide (t = target)) e.toUpper_mounted

lemma selectDrive_disks (h : ∀ e ∈ disks, e.Unspelled) {target : Text}
    (ht : target ≠ "N/A".toList) :
    selectDrive target (fullProbe (probeRecords tB disks)) =
      ((disks.filter (fun d => decide (1 / 100 < d.totGB))).find?
        (fun d => decide (d.mounted.letter = target))).map
        (fun d => readStats target (firstBlock (object (d.record tB).fields))) := by
  have hrecords : ∀ r ∈ probeRecords tB disks, r.Lettered := by
    intro r hr
    obtain ⟨e, he, rfl⟩ := List.mem_map.mp hr
    exact (h e (List.mem_filter.mp he).1).lettered tB
  have hstart : '{' ∉ "[\n".toList := by decide
  unfold fullProbe
  rw [List.append_assoc, selectDrive_records ht hrecords hstart, find_record, Option.map_map]
  rfl

lemma Disk.Readable.readStats (h : d.Readable) (tB : LocalTime) (target : Text) :
    readStats target (firstBlock (object (d.record tB).fields)) = (d.record tB).stats target := by
  have hw := h.wellFormed tB
  have hbody : '}' ∉ '{' :: ('\n' :: members (d.record tB).fields ++ "    ".toList) := by
    simp only [List.cons_append, List.mem_cons, List.mem_append, not_or]
    exact ⟨by decide, by decide, hw.noBrace.2, by decide⟩
  have hfirst : firstBlock (object (d.record tB).fields) = object (d.record tB).fields := by
    rw [object_eq]
    exact firstBlock_eq hbody []
  rw [hfirst, readStats_eq hw]

/-- A letter finds its disk exactly when it is the one that is printed for it. -/
theorem mounted_letter_found_iff (hspell : ∀ e ∈ disks, e.Unspelled) (hd : d ∈ disks)
    (hsize : 1 / 100 < d.totGB)
    {v : Volume} (hv : ∀ e ∈ disks, ∀ w ∈ e.volumes, w.letter = v.letter → e = d) {arg : Text}
    (harg : targetDrive arg = v.deviceID) :
    (selectDrive (targetDrive arg) (fullProbe (probeRecords tB disks)) =
          some (readStats v.deviceID (firstBlock (object (d.record tB).fields))) ↔
        ∃ w, d.firstVolume = some w ∧ w.letter = v.letter) ∧
      (selectDrive (targetDrive arg) (fullProbe (probeRecords tB disks)) = none ↔
        ¬∃ w, d.firstVolume = some w ∧ w.letter = v.letter) ∧
      (d.Readable → readStats v.deviceID (firstBlock (object (d.record tB).fields)) =
        (d.record tB).stats v.deviceID) := by
  rw [harg, selectDrive_disks hspell v.deviceID_ne, ← and_assoc]
  refine ⟨?_, fun h => h.readStats tB v.deviceID⟩
  have honly : ∀ e ∈ disks, e.mounted.letter = v.deviceID → e = d := by
    intro e he hletter
    obtain ⟨w, hw, heq⟩ := (e.mounted_letter_eq_iff v).mp hletter
    exact hv e he w (Disk.firstVolume_mem hw) heq
  rw [← d.mounted_letter_eq_iff v]
  have hin : d ∈ disks.filter (fun d => decide (1 / 100 < d.totGB)) :=
    List.mem_filter.mpr ⟨hd, decide_eq_true hsize⟩
  cases hfind : (disks.filter (fun d => decide (1 / 100 < d.totGB))).find?
      (fun d => decide (d.mounted.letter = v.deviceID)) with
  | none =>
    have hnone : ¬d.mounted.letter = v.deviceID := by
      have h := List.find?_eq_none.mp hfind d hin
      rwa [decide_eq_true_eq] at h
    exact ⟨iff_of_false (fun h => Option.some_ne_none _ h.symm) hnone, iff_of_true rfl hnone⟩
  | some e =>
    have hletter := List.find?_some hfind
    rw [decide_eq_true_eq] at hletter
    obtain rfl := honly e (List.mem_filter.mp (List.mem_of_find?_eq_some hfind)).1 hletter
    exact ⟨iff_of_true rfl hletter,
      iff_of_false (fun h => Option.some_ne_none _ h) (fun h => h hletter)⟩

def dataVolume : Volume := ⟨'D', "NTFS".toList, none, by decide⟩

def systemVolume : Volume := ⟨'C', "NTFS".toList, none, by decide⟩

/-- A data partition in front of the one that Windows runs from. -/
def sharedDisk : Disk where
  model := "Disk".toList
  index := 0
  size := some (2 ^ 40)
  interfaceType := "SCSI".toList
  pnpDeviceID := "S1".toList
  partitions := [[dataVolume], [systemVolume]]
  output := []

lemma sharedDisk_readable : sharedDisk.Readable := ⟨by decide, by decide⟩

lemma sharedDisk_unspelled : ∀ d ∈ [sharedDisk], d.Unspelled := by
  intro d hd
  rw [List.mem_singleton.mp hd]
  exact ⟨by decide, by decide⟩

lemma sharedDisk_size : 1 / 100 < sharedDisk.totGB := by
  change (1 : ℚ) / 100 < ((2 ^ 40 : ℕ) : ℚ) / 1073741824
  norm_num

def noon : LocalTime := ⟨2026, 4, 12, 12, 0, 0⟩

lemma sharedDisk_select {target : Text} (ht : target ≠ "N/A".toList) :
    selectDrive target (fullProbe (probeRecords noon [sharedDisk])) =
      if "D:".toList = target then some ((sharedDisk.record noon).stats target) else none := by
  have hfilter : [sharedDisk].filter (fun d => decide (1 / 100 < d.totGB)) = [sharedDisk] :=
    List.filter_cons_of_pos (decide_eq_true sharedDisk_size)
  have hletter : sharedDisk.mounted.letter = "D:".toList := by decide
  rw [selectDrive_disks sharedDisk_unspelled ht, hfilter, List.find?_singleton, hletter,
    ← sharedDisk_readable.readStats noon target]
  by_cases h : "D:".toList = target
  · rw [if_pos h, if_pos (decide_eq_true h)]
    rfl
  · rw [if_neg h, if_neg (by simpa only [decide_eq_true_eq] using h)]
    rfl

lemma systemVolume_mem : systemVolume ∈ sharedDisk.volumes :=
  List.mem_cons_of_mem dataVolume List.mem_cons_self

/-- The disk has a volume C:, but the only letter that finds its record is D:. -/
theorem second_letter_not_found :
    systemVolume ∈ sharedDisk.volumes ∧
      selectDrive (targetDrive "C".toList) (fullProbe (probeRecords noon [sharedDisk])) = none := by
  refine ⟨systemVolume_mem, ?_⟩
  rw [sharedDisk_select (by decide), if_neg (by decide)]

theorem first_letter_found :
    selectDrive (targetDrive "d".toList) (fullProbe (probeRecords noon [sharedDisk])) =
      some (readStats "D:".toList (firstBlock (object (sharedDisk.record noon).fields))) := by
  refine (mounted_letter_found_iff sharedDisk_unspelled List.mem_cons_self sharedDisk_size
    (v := dataVolume) ?_
    (by decide)).1.mpr ⟨dataVolume, rfl, rfl⟩
  intro e he w _ _
  exact List.mem_singleton.mp he

end Selection

section Policy

variable {tB : LocalTime} {disks : List Disk} {d : Disk}

/-- The status file up to the line that allows or forbids stress tests. -/
def policyLead (now : LocalTime) (stats : DriveStats) : Text :=
  rootOpen ++
    openLine "Metadata".toList ++
    leafLine "LastHardwareProbe".toList now.text ++
    closeLine "Metadata".toList ++
    openLine "HardwareIdentity".toList ++
    leafLine "Model".toList (xmlEscape stats.model) ++
    leafLine "Serial".toList (xmlEscape stats.serial) ++
    leafLine "Interface".toList stats.interface ++
    leafLine "Technology".toList stats.tech ++
    leafLine "FileSystem".toList stats.fsType ++
    closeLine "HardwareIdentity".toList ++
    openLine "StorageCapacity".toList ++
    leafLine "TotalGB".toList stats.totalGB ++
    leafLine "UsedGB".toList stats.usedGB ++
    leafLine "FreeGB".toList stats.freeGB ++
    closeLine "StorageCapacity".toList ++
    openLine "HardwareVitals".toList ++
    leafLine "PowerOnHours".toList stats.hours ++
    leafLine "Temperature".toList stats.temp ++
    leafLine "ReallocatedSectors".toList stats.reallocated ++
    leafLine "HealthRating".toList stats.health ++
    closeLine "HardwareVitals".toList ++
    openLine "Policy".toList

/-- `deviceinfo` writes `False` on that line. -/
def ForbidsStressTest (now : LocalTime) (stats : DriveStats) (existingContent : Text) : Prop :=
  policyLead now stats ++ leafLine "StressTestAllowed".toList "False".toList <+:
    deviceinfo now stats existingContent

lemma leafLine_prefix_eq {tag s t rest : Text} (h : leafLine tag s <+: leafLine tag t ++ rest) :
    s.head? = t.head? ∨ s = [] ∨ t = [] := by
  unfold leafLine at h
  simp only [List.append_assoc, List.prefix_append_right_inj] at h
  cases s with
  | nil => exact Or.inr (Or.inl rfl)
  | cons c s =>
    cases t with
    | nil => exact Or.inr (Or.inr rfl)
    | cons e t =>
      rw [List.cons_append, List.cons_append, List.cons_prefix_cons] at h
      rw [List.head?_cons, List.head?_cons, h.1]
      exact Or.inl rfl

lemma forbidsStressTest_iff (now : LocalTime) (stats : DriveStats) (existingContent : Text) :
    ForbidsStressTest now stats existingContent ↔ stats.isSystemDrive = true := by
  have hdoc : deviceinfo now stats existingContent = policyLead now stats ++
      (leafLine "StressTestAllowed".toList
        (if stats.isSystemDrive then "False".toList else "True".toList) ++
        (leafLine "Notes".toList
            (if stats.isSystemDrive then "System Drive Protection Active".toList else
              "Standard Drive".toList) ++
          (closeLine "Policy".toList ++
            ((if stats.health = "N/A".toList then
                openLine "SmartHealthStatus".toList ++ leafLine "SmartStatus".toList "N/A".toList ++
                  closeLine "SmartHealthStatus".toList
              else copyBlock existingContent "SmartHealthStatus".toList) ++
              (copyBlock existingContent "FileIntegrityScan".toList ++
                (copyBlock existingContent "SurfaceScanInfo".toList ++ rootClose)))))) := by
    unfold deviceinfo policyLead
    simp only [List.append_assoc]
  unfold ForbidsStressTest
  rw [hdoc, List.prefix_append_right_inj]
  cases stats.isSystemDrive with
  | true => exact iff_of_true (List.prefix_append _ _) rfl
  | false =>
    apply iff_of_false _ Bool.false_ne_true
    intro hprefix
    exact absurd (leafLine_prefix_eq hprefix) (by decide)

/-- A record of a system drive, and a policy that forbids stress tests for every letter that finds
it. -/
structure Protected (tB : LocalTime) (disks : List Disk) (d : Disk) : Prop where
  profile : (d.record tB).profile = "System Drive".toList
  policy :
    ∀ arg stats, selectDrive (targetDrive arg) (fullProbe (probeRecords tB disks)) = some stats →
    (probeRecords tB disks).find? (fun r => decide (toUpper r.letter = targetDrive arg)) =
      some (d.record tB) →
    ∀ now existingContent, ForbidsStressTest now stats existingContent

lemma profile_iff {v : Volume} (hv : v ∈ d.volumes) (hc : v.letter = 'C') :
    d.profile = "System Drive".toList ↔ ∃ w, d.firstVolume = some w ∧ w.letter = 'C' := by
  have hdrive : d.profile = "System Drive".toList ↔ d.SystemDrive := by
    unfold Disk.profile
    split_ifs with h1 h2
    · exact iff_of_true rfl h1
    · exact iff_of_false (by decide) h1
    · exact iff_of_false (by decide) h1
  have hletter : d.mounted.letter = "C:".toList ↔ ∃ w, d.firstVolume = some w ∧ w.letter = 'C' := by
    have hid : "C:".toList = v.deviceID := by
      rw [Volume.deviceID, hc]
      rfl
    rw [hid, d.mounted_letter_eq_iff v, hc]
  have hnamed : d.mounted.letter ≠ "N/A".toList := by
    obtain ⟨w, hw⟩ := Disk.exists_firstVolume hv
    rw [d.mounted_letter, hw]
    exact w.deviceID_ne
  rw [hdrive, Disk.SystemDrive, hletter]
  exact ⟨fun h => h.resolve_right (fun hn => hnamed hn.2), Or.inl⟩

lemma selectDrive_system {json : Text} {stats : DriveStats}
    (h : selectDrive "C:".toList json = some stats) :
    stats.isSystemDrive = true := by
  induction hn : json.length using Nat.strong_induction_on generalizing json with
  | _ n ih =>
    cases hblock : nextBlock json with
    | none =>
      rw [selectDrive_none hblock] at h
      cases h
    | some b =>
      rw [selectDrive_some hblock] at h
      split_ifs at h
      · rw [← Option.some.inj h]
        exact decide_eq_true (Or.inr rfl)
      · exact ih b.2.length (hn ▸ nextBlock_lt hblock) h rfl

theorem system_disk_protected_iff {v : Volume} (hv : v ∈ d.volumes) (hc : v.letter = 'C') :
    Protected tB disks d ↔ ∃ w, d.firstVolume = some w ∧ w.letter = 'C' := by
  rw [← profile_iff hv hc]
  refine ⟨Protected.profile, fun hprofile => ⟨hprofile, ?_⟩⟩
  intro arg stats hselect hfind now existingContent
  have hletter : targetDrive arg = d.mounted.letter := by
    have h := List.find?_some hfind
    rw [decide_eq_true_eq] at h
    exact h.symm.trans d.toUpper_mounted
  rw [profile_iff hv hc, ← hc, ← d.mounted_letter_eq_iff v] at hprofile
  have htarget : targetDrive arg = "C:".toList := by
    rw [hletter, hprofile, Volume.deviceID, hc]
    rfl
  rw [forbidsStressTest_iff]
  rw [htarget] at hselect
  exact selectDrive_system hselect

/-- Behind a data partition the volume C: goes unnoticed, and D: may be stressed. -/
theorem shared_disk_unprotected :
    systemVolume ∈ sharedDisk.volumes ∧ (sharedDisk.record noon).profile = "Internal".toList ∧
      ∃ stats, selectDrive (targetDrive "D".toList) (fullProbe (probeRecords noon [sharedDisk])) =
        some stats ∧
        ∀ now existingContent, ¬ForbidsStressTest now stats existingContent := by
  refine ⟨systemVolume_mem, by decide, (sharedDisk.record noon).stats "D:".toList, ?_, ?_⟩
  · exact (sharedDisk_select (by decide)).trans (if_pos rfl)
  · intro now existingContent h
    rw [forbidsStressTest_iff] at h
    exact absurd h (by decide)

theorem shared_disk_protected_iff :
    Protected noon [sharedDisk] sharedDisk ↔ ∃ w, sharedDisk.firstVolume = some w ∧
    w.letter = 'C' :=
  system_disk_protected_iff systemVolume_mem rfl

end Policy

end DriveIntegrity.Probe
