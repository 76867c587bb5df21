import DriveIntegrity.Integrity.Repair
import DriveIntegrity.Integrity.Unreadable
import DriveIntegrity.Status.Figures

/-! What `quick_file_check` leaves behind after its comparison. -/

namespace DriveIntegrity.Status

open Integrity (Text Culture Drive Target Inventory File DriveLetter HasherRun Snapshot repairStep
  compareInventories
  corruptKeys plainCulture currentCheck getFileInventory fileObject)

section Script

/-- `$statusXml`; the script ends when the conversion throws. -/
def statusXml : Option Text → Option XmlNode
  | some content => parseXml content
  | none => parseXml "<DriveBabySitter></DriveBabySitter>".toList

structure Outcome (Content : Type) where
  drive : Drive Content
  status : Option Text

/-- The state the repair branch works in: the answer of the user, the lines of `baseline_files.txt`,
the parity sets, and whether a set can restore its targets. -/
structure RepairState (Content : Type) where
  userAccepts : Bool
  masterList : Option (List Text)
  part : ℕ → Option (List (Target Content))
  enough : List (Target Content) → List (Option Content) → Bool

variable {Content : Type} [DecidableEq Content]

/-- The script from the update of the status document to its end. -/
def finishCheck (env : RepairState Content) (now : LocalTime) (filesChecked : ℕ)
    (corList : List Text) (before : Outcome Content) : Outcome Content :=
  match statusXml before.status with
  | none => before
  | some root =>
    let saved := some (saveXml (updateStatus now filesChecked corList root))
    if 0 < corList.length then
      if env.userAccepts then
        match env.masterList with
        -- The early `return` skips the save.
        | none => before
        -- An empty file reads as `$null`, on which `IndexOf` throws.
        | some [] => before
        | some (file :: list) =>
            ⟨repairStep env.enough true (some (file :: list)) env.part corList before.drive, saved⟩
      else ⟨before.drive, saved⟩
    else ⟨before.drive, saved⟩

/-- A run from the comparison on; `none` when the comparison throws. -/
def checkRun (C : Culture) (cOrder bOrder : IterationOrder Text) (bFiles cFiles : Inventory C)
    (env : RepairState Content) (now : LocalTime) (before : Outcome Content) :
    Option (Outcome Content) :=
  (compareInventories C cOrder bOrder bFiles cFiles).map (fun d =>
    finishCheck env now cFiles.keys.length d.corList before)

end Script

section Completed

variable {Content : Type} [DecidableEq Content]

/-- The repair is accepted, and the index it needs is missing or empty. -/
def RepairState.Abandoned (env : RepairState Content) (C : Culture) (bFiles cFiles : Inventory C) :
    Prop :=
  corruptKeys C bFiles cFiles ≠ [] ∧ env.userAccepts = true ∧ env.masterList.getD [] = []

lemma updatable_statusXml {status : Option Text} {root : XmlNode}
    (h : statusXml status = some root) : Updatable root := by
  cases status with
  | none => exact ⟨(wellFormed_of_parseXml h).1, (wellFormed_of_parseXml h).2⟩
  | some content => exact ⟨(wellFormed_of_parseXml h).1, (wellFormed_of_parseXml h).2⟩

lemma finishCheck_abandoned {env : RepairState Content} {corList : List Text}
    (hk : 0 < corList.length)
    (ha : env.userAccepts = true) (hl : env.masterList.getD [] = []) (now : LocalTime)
    (filesChecked : ℕ)
    (before : Outcome Content) : finishCheck env now filesChecked corList before = before := by
  obtain ⟨accepts, list, part, enough⟩ := env
  obtain rfl : accepts = true := ha
  rw [finishCheck]
  cases statusXml before.status with
  | none => rfl
  | some root =>
    rcases list with _ | _ | ⟨file, list⟩
    · simp [hk]
    · simp [hk]
    · cases hl

lemma finishCheck_completed {env : RepairState Content} {corList : List Text}
    (h : ¬(0 < corList.length ∧ env.userAccepts = true ∧ env.masterList.getD [] = []))
    (now : LocalTime)
    (filesChecked : ℕ) {before : Outcome Content} {root : XmlNode}
    (hr : statusXml before.status = some root) :
    (finishCheck env now filesChecked corList before).status =
      some (saveXml (updateStatus now filesChecked corList root)) := by
  obtain ⟨accepts, list, part, enough⟩ := env
  rw [finishCheck, hr]
  by_cases hk : 0 < corList.length
  · cases accepts with
    | false => simp [hk]
    | true =>
      rcases list with _ | _ | ⟨file, list⟩
      · exact absurd ⟨hk, rfl, rfl⟩ h
      · exact absurd ⟨hk, rfl, rfl⟩ h
      · simp [hk]
  · simp [hk]

lemma finishCheck_quickFileCheck {env : RepairState Content} {corList : List Text}
    (h : ¬(0 < corList.length ∧ env.userAccepts = true ∧ env.masterList.getD [] = []))
    (now : LocalTime)
    (filesChecked : ℕ) {before : Outcome Content} {content : Text}
    (hcontent : before.status = some content)
    (hreads : (parseXml content).isSome) :
    (finishCheck env now filesChecked corList before).status =
      quickFileCheck now filesChecked corList content := by
  obtain ⟨root, hroot⟩ := Option.isSome_iff_exists.mp hreads
  rw [finishCheck_completed h now filesChecked (by rw [hcontent]; exact hroot), quickFileCheck,
    hroot, Option.map_some]

/-- The run on a drive, from the scan whose inventory `current_check.xml` holds -/
lemma checkRun_scan (C : Culture) (cOrder bOrder : IterationOrder Text) (X Y : DriveLetter)
    (bs listed : List File)
    (hasher : HasherRun) (stale : Option Snapshot) (env : RepairState Content) (now : LocalTime)
    (before : Outcome Content) :
    let current := (currentCheck hasher stale Y listed).getD ⟨Y, []⟩
    let cFiles := getFileInventory C (current.files.map (fileObject current.mount))
    checkRun C cOrder bOrder (getFileInventory C (bs.map (fileObject X))) cFiles env now before =
      (Integrity.quickFileCheck C cOrder bOrder X Y bs listed hasher stale).map fun d =>
        finishCheck env now cFiles.keys.length d.corList before :=
  rfl

/-- A check records its figures exactly when it can read the status file and its repair is not
abandoned. -/
theorem comparison_recorded_iff (C : Culture) {cOrder bOrder : IterationOrder Text}
    {bFiles cFiles : Inventory C}
    {env : RepairState Content} {now : LocalTime} {before after : Outcome Content}
    (h : checkRun C cOrder bOrder bFiles cFiles env now before = some after) :
    Recorded after.status cFiles.keys.length (corruptKeys C bFiles cFiles).length ↔
      ((statusXml before.status).isSome = true ∧ ¬env.Abandoned C bFiles cFiles) ∨
        Recorded before.status cFiles.keys.length (corruptKeys C bFiles cFiles).length := by
  obtain ⟨d, hd, rfl⟩ := Option.map_eq_some_iff.mp h
  have hk := Integrity.corList_length C hd
  have habandoned : env.Abandoned C bFiles cFiles ↔
      0 < d.corList.length ∧ env.userAccepts = true ∧ env.masterList.getD [] = [] := by
    rw [RepairState.Abandoned, hk, List.length_pos_iff]
  cases hr : statusXml before.status with
  | none => simp [finishCheck, hr]
  | some root =>
    rw [← hk, habandoned]
    by_cases ha : 0 < d.corList.length ∧ env.userAccepts = true ∧ env.masterList.getD [] = []
    · rw [finishCheck_abandoned ha.1 ha.2.1 ha.2.2]
      exact ⟨Or.inr, fun hor => hor.resolve_left (fun hl => hl.2 ha)⟩
    · rw [finishCheck_completed ha now _ hr]
      exact iff_of_true (recorded_saved (updatable_statusXml hr) now cFiles.keys.length d.corList)
        (Or.inl ⟨rfl, ha⟩)

end Completed

section Example

open Integrity (twoFiles rottedOnly letterE driveOf)

def inventoryOf (files : List Integrity.File) : Inventory plainCulture :=
  getFileInventory plainCulture (files.map (fileObject letterE))

/-- The user accepts the repair of a drive without `baseline_files.txt`. -/
def withoutIndex : RepairState Text := ⟨true, none, fun _ => none, fun _ _ => true⟩

lemma rottedOnly_compared :
    compareInventories plainCulture .listed .listed (inventoryOf twoFiles)
      (inventoryOf rottedOnly) =
      some ⟨[], [], [], ["E:\\a".toList]⟩ := by decide +kernel

/-- A status file that no tool of the suite writes. -/
def foreignStatus : Text :=
  "<Drive>Stick<FileIntegrityScan>none yet</FileIntegrityScan></Drive>".toList

/-- The user declines the repair, and the figures are recorded. -/
theorem comparison_recorded_sample :
    ∃ after, checkRun plainCulture .listed .listed (inventoryOf twoFiles) (inventoryOf rottedOnly)
        { withoutIndex with userAccepts := false } sampleTime ⟨driveOf rottedOnly,
          some foreignStatus⟩ = some after ∧
      Recorded after.status 2 1 := by
  have hrun : checkRun plainCulture .listed .listed (inventoryOf twoFiles) (inventoryOf rottedOnly)
      { withoutIndex with userAccepts := false } sampleTime
        ⟨driveOf rottedOnly, some foreignStatus⟩ =
        some (finishCheck { withoutIndex with userAccepts := false } sampleTime
          (inventoryOf rottedOnly).keys.length
          ["E:\\a".toList] ⟨driveOf rottedOnly, some foreignStatus⟩) := by
    rw [checkRun, rottedOnly_compared, Option.map_some]
  have hc : (corruptKeys plainCulture (inventoryOf twoFiles) (inventoryOf rottedOnly)).length =
      1 := by decide +kernel
  have hn : (inventoryOf rottedOnly).keys.length = 2 := by decide +kernel
  have hiff := comparison_recorded_iff plainCulture hrun
  rw [hc, hn] at hiff
  exact ⟨_, hrun, hiff.mpr (Or.inl ⟨by decide +kernel, fun ha => absurd ha.2.1 (by decide)⟩)⟩

theorem comparison_unrecorded :
    ∃ after, checkRun plainCulture .listed .listed (inventoryOf twoFiles)
      (inventoryOf rottedOnly) withoutIndex
        sampleTime ⟨driveOf rottedOnly, some shippedStatus⟩ = some after ∧
      (corruptKeys plainCulture (inventoryOf twoFiles) (inventoryOf rottedOnly)).length = 1 ∧
      ∀ n, ¬Recorded after.status n 1 := by
  refine ⟨finishCheck withoutIndex sampleTime (inventoryOf rottedOnly).keys.length ["E:\\a".toList]
    ⟨driveOf rottedOnly, some shippedStatus⟩, ?_, by decide +kernel, fun n => ?_⟩
  · rw [checkRun, rottedOnly_compared, Option.map_some]
  rw [finishCheck_abandoned (by decide) rfl rfl]
  rintro ⟨content, hcontent, -, hcorrupt, -⟩
  obtain rfl := Option.some.inj hcontent
  have hold : documentValue shippedStatus "FileIntegrityScan".toList "CorruptFiles".toList =
      some "0".toList := by
    decide +kernel
  rw [hold] at hcorrupt
  exact absurd hcorrupt (by decide)

end Example

end DriveIntegrity.Status
