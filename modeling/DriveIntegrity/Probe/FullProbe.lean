import DriveIntegrity.Probe.ParseSmart
import DriveIntegrity.Probe.SelectDrive
import Mathlib

/-! The disk loop of `full_probe`, from what Windows and `smartctl` tell to the printed records. -/

namespace DriveIntegrity.Probe

open Integrity (Text)
open Status (LocalTime DriveStats)

section Program

/-- A `Win32_LogicalDisk`; its `DeviceID` is a capital letter and a colon. -/
structure Volume where
  letter : Char
  fileSystem : Text
  freeSpace : Option ℕ
  upper : letter.isUpper = true

def Volume.deviceID (v : Volume) : Text := [v.letter, ':']

/-- A `Win32_DiskDrive`, the volumes of its partitions in the order of the queries, and the output
of `smartctl`. -/
structure Disk where
  model : Text
  index : ℤ
  size : Option ℕ
  interfaceType : Text
  pnpDeviceID : Text
  partitions : List (List Volume)
  output : Text

def extractSerialFromPnP (pnp : Text) : Text :=
  if '\\' ∈ pnp then
    cleanStr ((pnp.reverse.takeWhile (fun c => c != '\\')).reverse.takeWhile (fun c => c != '&'))
  else cleanStr pnp

structure Mounted where
  letter : Text := "N/A".toList
  fs : Text := "N/A".toList
  freeGB : ℚ := -1

/-- Of the volumes of a partition only the first is asked for. -/
def Mounted.enter (s : Mounted) : List Volume → Mounted
  | [] => s
  | v :: _ =>
    { letter := cleanStr v.deviceID
      fs := cleanStr v.fileSystem
      freeGB := match v.freeSpace with
        | none => s.freeGB
        | some n => n / 1073741824 }

def partitionLoop (s : Mounted) : List (List Volume) → Mounted
  | [] => s
  | p :: partitions =>
    if (s.enter p).letter ≠ "N/A".toList then s.enter p else partitionLoop (s.enter p) partitions

def SmartData.HasTelemetry (sd : SmartData) : Prop :=
  0 ≤ sd.hours ∨ 0 ≤ sd.temp ∨ 0 ≤ sd.reallocated

instance (sd : SmartData) : Decidable sd.HasTelemetry := inferInstanceAs (Decidable (_ ∨ _))

/-- Sectors that fail, or have failed. -/
def SmartData.Failing (sd : SmartData) : Prop :=
  0 < sd.reallocated ∨ 0 < sd.pending ∨ 0 < sd.offlineUnc

instance (sd : SmartData) : Decidable sd.Failing := inferInstanceAs (Decidable (_ ∨ _))

/-- The health logic of `main`, with the remark for the notes. -/
def healthStatus (sd : SmartData) (tech : Text) : Text × Option Text :=
  if ¬sd.HasTelemetry then ("N/A".toList, some "No SMART telemetry available".toList)
  else if sd.Failing then ("WARNING".toList, some "Hardware Sectors Failing".toList)
  else if tech ≠ "Flash".toList ∧ 35000 < sd.hours
    then ("DEGRADED (AGED)".toList, some "High Power-On Hours".toList)
  else if 90 < sd.percentageUsed then ("DEGRADED (WEAR)".toList, some "High Percentage Used".toList)
  else if tech = "CMR".toList ∧ 300000 < sd.loadCycles then
    ("DEGRADED (WEAR)".toList, some "High Load Cycle Count".toList)
  else ("PASSED".toList, none)

namespace Disk

variable (d : Disk)

def totGB : ℚ :=
  match d.size with
  | none => 0
  | some n => n / 1073741824

def smart : SmartData := parseSmart d.output {}

def interfaceStr : Text := cleanStr d.interfaceType

def modelStr : Text := if d.smart.model = [] then cleanStr d.model else d.smart.model

def serial : Text :=
  if d.smart.serial = [] then extractSerialFromPnP (cleanStr d.pnpDeviceID) else d.smart.serial

def Flash : Prop := "Flash".toList <:+: d.modelStr ∨ d.interfaceStr = "USB".toList ∧ d.totGB < 256

instance : Decidable d.Flash := inferInstanceAs (Decidable (_ ∨ _))

def Rotating : Prop := 0 < d.smart.rpm ∨ 1200 < d.totGB ∨ "3.5".toList <:+: d.smart.formFactor

instance : Decidable d.Rotating := inferInstanceAs (Decidable (_ ∨ _))

def tech : Text :=
  if d.Flash then "Flash".toList else if d.Rotating then "CMR".toList else "SSD".toList

def finalFamily : Text :=
  if 1 < d.smart.family.length then d.smart.family
  else if d.tech = "Flash".toList then "USB Flash Drive".toList
  else "N/A".toList

def mounted : Mounted := partitionLoop {} d.partitions

def SystemDrive : Prop :=
  d.mounted.letter = "C:".toList ∨ d.index = 0 ∧ d.mounted.letter = "N/A".toList

instance : Decidable d.SystemDrive := inferInstanceAs (Decidable (_ ∨ _))

def profile : Text :=
  if d.SystemDrive then "System Drive".toList
  else if d.interfaceStr = "USB".toList then "External".toList
  else "Internal".toList

def health : Text × Option Text :=
  healthStatus d.smart d.tech

def notes : Text :=
  let notes := if d.SystemDrive then "System Drive - Stress Test Forbidden".toList else []
  match d.health.2 with
  | none => notes
  | some remark => notes ++ (if notes = [] then [] else " | ".toList) ++ remark

def record (tB : LocalTime) : DriveRecord where
  letter := d.mounted.letter
  fs := d.mounted.fs
  totGB := d.totGB
  usedGB := if 0 ≤ d.mounted.freeGB then d.totGB - d.mounted.freeGB else 0
  freeGB := if 0 ≤ d.mounted.freeGB then d.mounted.freeGB else 0
  percentUsed := if 0 ≤ d.mounted.freeGB then (d.totGB - d.mounted.freeGB) / d.totGB * 100 else 0
  modelStr := d.modelStr
  serial := d.serial
  interfaceStr := d.interfaceStr
  idx := d.index
  finalFamily := d.finalFamily
  tech := d.tech
  finalForm := finalForm d.smart.formFactor d.modelStr d.interfaceStr d.smart.rpm d.totGB
  profile := d.profile
  rpm := d.smart.rpm
  healthStatus := d.health.1
  hours := d.smart.hours
  temp := d.smart.temp
  loadCycles := d.smart.loadCycles
  dataUnitsWritten := if d.smart.dataUnitsWritten < 0
    then none else some (d.smart.dataUnitsWritten * 512000 / 1099511627776)
  reallocated := d.smart.reallocated
  pending := d.smart.pending
  offlineUnc := d.smart.offlineUnc
  notes := d.notes
  tB := tB

end Disk

/-- The records that are printed; disks of at most 0.01 GB are skipped. -/
def probeRecords (tB : LocalTime) (disks : List Disk) : List DriveRecord :=
  (disks.filter (fun d => decide (1 / 100 < d.totGB))).map (fun d => d.record tB)

end Program

section Letter

lemma mem_cleanStr {t : Text} {c : Char} (h : c ∈ cleanStr t) : c ∈ t := by
  unfold cleanStr at h
  rw [List.mem_reverse] at h
  have hrev := List.mem_reverse.mp ((List.dropWhile_sublist _).mem h)
  exact (List.dropWhile_sublist _).mem hrev

lemma Volume.letter_range (v : Volume) : 'A'.val ≤ v.letter.val ∧ v.letter.val ≤ 'Z'.val :=
  of_decide_eq_true v.upper

lemma Volume.letter_ne (v : Volume) {c : Char} (hc : c.isUpper = false) : v.letter ≠ c := by
  rintro rfl
  rw [v.upper] at hc
  cases hc

lemma Volume.cleanStr_deviceID (v : Volume) : cleanStr v.deviceID = v.deviceID := by
  have htrim : isTrimmed v.letter = false := by
    simp only [isTrimmed, Bool.or_eq_false_iff, beq_eq_false_iff_ne]
    refine ⟨⟨⟨⟨?_, ?_⟩, ?_⟩, ?_⟩, ?_⟩ <;> exact v.letter_ne (by decide)
  have hcolon : isTrimmed ':' = false := by decide
  simp only [cleanStr, Volume.deviceID, List.dropWhile_cons, htrim, hcolon, Bool.false_eq_true,
    if_false, List.reverse_cons, List.reverse_nil, List.nil_append, List.cons_append]

lemma Volume.deviceID_ne (v : Volume) : v.deviceID ≠ "N/A".toList := by
  intro h
  exact absurd (congrArg List.length h)
    (by simp only [Volume.deviceID, List.length_cons, List.length_nil]; decide)

lemma Volume.deviceID_injective {v w : Volume} (h : v.deviceID = w.deviceID) :
    v.letter = w.letter := by
  injection h

def Disk.firstVolume (d : Disk) : Option Volume := d.partitions.findSome? List.head?

def Disk.volumes (d : Disk) : List Volume := d.partitions.flatten

/-- The letter that is printed for the volume that was found. -/
def letterOf : Option Volume → Text
  | none => "N/A".toList
  | some v => v.deviceID

lemma partitionLoop_letter (s : Mounted) (hs : s.letter = "N/A".toList)
    (partitions : List (List Volume)) :
    (partitionLoop s partitions).letter = letterOf (partitions.findSome? List.head?) := by
  induction partitions with
  | nil => exact hs
  | cons p partitions ih =>
    unfold partitionLoop
    cases p with
    | nil =>
      have hstay : ¬(s.enter []).letter ≠ "N/A".toList := not_not.mpr hs
      rw [if_neg hstay]
      exact ih
    | cons v p =>
      have hletter : (s.enter (v :: p)).letter = v.deviceID := v.cleanStr_deviceID
      rw [if_pos (hletter ▸ v.deviceID_ne)]
      exact hletter

lemma Disk.mounted_letter (d : Disk) : d.mounted.letter = letterOf d.firstVolume :=
  partitionLoop_letter {} rfl d.partitions

lemma Disk.mounted_letter_eq_iff (d : Disk) (v : Volume) :
    d.mounted.letter = v.deviceID ↔ ∃ w, d.firstVolume = some w ∧ w.letter = v.letter := by
  rw [d.mounted_letter]
  cases d.firstVolume with
  | none => exact iff_of_false (fun hv => v.deviceID_ne hv.symm) (fun ⟨w, hw, _⟩ =>
      Option.some_ne_none w hw.symm)
  | some w =>
    constructor
    · exact fun hw => ⟨w, rfl, Volume.deviceID_injective hw⟩
    · rintro ⟨u, hu, hletter⟩
      obtain rfl := Option.some.inj hu
      rw [letterOf, Volume.deviceID, hletter]
      rfl

lemma Disk.firstVolume_mem {d : Disk} {v : Volume} (h : d.firstVolume = some v) :
    v ∈ d.volumes := by
  obtain ⟨p, hp, hv⟩ := List.exists_of_findSome?_eq_some h
  exact List.mem_flatten.mpr ⟨p, hp, List.mem_of_mem_head? hv⟩

lemma Disk.exists_firstVolume {d : Disk} {v : Volume} (h : v ∈ d.volumes) :
    ∃ w, d.firstVolume = some w := by
  obtain ⟨p, hp, hv⟩ := List.mem_flatten.mp h
  apply Option.isSome_iff_exists.mp
  rw [Disk.firstVolume, List.findSome?_isSome_iff]
  refine ⟨p, hp, ?_⟩
  rw [List.isSome_head?]
  exact List.ne_nil_of_mem hv

lemma Disk.toUpper_mounted (d : Disk) : toUpper d.mounted.letter = d.mounted.letter := by
  rw [d.mounted_letter]
  cases d.firstVolume with
  | none => decide
  | some v =>
    rw [letterOf, Volume.deviceID, toUpper, List.map_cons,
      Char.toUpper_eq_of_not_isLower (Char.not_isLower_of_isUpper v.upper)]
    rfl

end Letter

end DriveIntegrity.Probe
