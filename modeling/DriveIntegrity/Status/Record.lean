import DriveIntegrity.Status.Writers

/-! The contents of the status file as a record, and the writers as updates of it. -/

namespace DriveIntegrity.Status

open Integrity (Text)

structure FileValues where
  date : Value
  checked : Value
  corrupt : Value
  grade : Value

structure SurfaceValues where
  date : Value
  time : Value
  grade : Value
  stability : Value
  speed : Value
  coverage : Value
  errors : Value

def valueLeaf (tag : Text) (name : isXmlName tag = true) (v : Value) : Leaf where
  tag := tag
  raw := v.1
  name := name
  clean := v.2.plain.noAngle

lemma lastScanDate_name : isXmlName "LastScanDate".toList = true := by decide

lemma healthStatus_name : isXmlName "HealthStatus".toList = true := by decide

lemma smartHealthStatus_name : isXmlName "SmartHealthStatus".toList = true := by decide

def fileSection (v : FileValues) : Section where
  tag := "FileIntegrityScan".toList
  leaves :=
    [valueLeaf "LastScanDate".toList lastScanDate_name v.date,
      valueLeaf "FilesChecked".toList (by decide) v.checked,
      valueLeaf "CorruptFiles".toList (by decide) v.corrupt,
      valueLeaf "IntegrityGrade".toList (by decide) v.grade]
  name := by decide

def surfaceSection (v : SurfaceValues) : Section where
  tag := "SurfaceScanInfo".toList
  leaves :=
    [valueLeaf "SurfaceScanDate".toList (by decide) v.date,
      valueLeaf "ActualTimeTaken".toList (by decide) v.time,
      valueLeaf "SurfaceGrade".toList (by decide) v.grade,
      valueLeaf "StabilityScore".toList (by decide) v.stability,
      valueLeaf "AvgReadSpeed".toList (by decide) v.speed,
      valueLeaf "ScanCoverage".toList (by decide) v.coverage,
      valueLeaf "ErrorsDetected".toList (by decide) v.errors]
  name := by decide

/-- What a file check leaves in the health section. -/
structure CheckMark where
  date : Value
  health : Text

def notAvailable : Value := ⟨"N/A".toList, by decide⟩

def CheckMark.leaves (m : CheckMark) : List Leaf :=
  [valueLeaf "LastScanDate".toList lastScanDate_name m.date,
    ⟨"HealthStatus".toList, savedText 2 m.health, healthStatus_name, noAngle_savedText _⟩]

def smartSection (mark : Option CheckMark) : Section where
  tag := "SmartHealthStatus".toList
  leaves :=
    valueLeaf "SmartStatus".toList (by decide) notAvailable :: (mark.map CheckMark.leaves).getD []
  name := smartHealthStatus_name

def hardwareSchema : List (Text × List Text) :=
  [("Metadata".toList, ["LastHardwareProbe".toList]),
    ("HardwareIdentity".toList,
      ["Model".toList, "Serial".toList, "Interface".toList, "Technology".toList,
        "FileSystem".toList]),
    ("StorageCapacity".toList, ["TotalGB".toList, "UsedGB".toList, "FreeGB".toList]),
    ("HardwareVitals".toList,
      ["PowerOnHours".toList, "Temperature".toList, "ReallocatedSectors".toList,
        "HealthRating".toList]),
    ("Policy".toList, ["StressTestAllowed".toList, "Notes".toList])]

structure Record where
  hardware : List Section
  mark : Option CheckMark
  file : FileValues
  surface : SurfaceValues
  layout : hardware.map Section.schema = hardwareSchema

def Record.sections (r : Record) : List Section :=
  r.hardware ++ [smartSection r.mark, fileSection r.file, surfaceSection r.surface]

def statusSchema (marked : Bool) : List (Text × List Text) :=
  hardwareSchema ++
    [("SmartHealthStatus".toList,
        "SmartStatus".toList :: if marked
        then ["LastScanDate".toList, "HealthStatus".toList] else []),
      ("FileIntegrityScan".toList,
        ["LastScanDate".toList, "FilesChecked".toList, "CorruptFiles".toList,
          "IntegrityGrade".toList]),
      ("SurfaceScanInfo".toList,
        ["SurfaceScanDate".toList, "ActualTimeTaken".toList, "SurfaceGrade".toList,
          "StabilityScore".toList,
          "AvgReadSpeed".toList, "ScanCoverage".toList, "ErrorsDetected".toList])]

lemma Record.schema (r : Record) : r.sections.map Section.schema = statusSchema r.mark.isSome := by
  rw [Record.sections, List.map_append, r.layout]
  cases r.mark <;> rfl

lemma statusSchema_apart (marked : Bool) : NamesApart (statusSchema marked) := by
  cases marked <;> decide +kernel

lemma Record.namesApart (r : Record) : NamesApart (r.sections.map Section.schema) :=
  r.schema ▸ statusSchema_apart _

lemma Record.hardware_tags (r : Record) : r.hardware.map Section.tag = hardwareTags := by
  have := congrArg (List.map Prod.fst) r.layout
  rw [List.map_map] at this
  exact this

section Probe

def DriveStats.fields (s : DriveStats) : List Text :=
  [s.model, s.serial, s.totalGB, s.usedGB, s.freeGB, s.interface, s.tech, s.fsType, s.hours, s.temp,
    s.reallocated, s.health]

/-- No field holds an angle bracket. -/
def DriveStats.Clean (s : DriveStats) : Prop := ∀ t ∈ s.fields, NoAngle t

instance (s : DriveStats) : Decidable s.Clean :=
  inferInstanceAs (Decidable (∀ t ∈ s.fields, NoAngle t))

lemma noAngle_xmlEscape {t : Text} (h : NoAngle t) : NoAngle (xmlEscape t) := by
  intro c hc
  obtain ⟨d, hd, hcd⟩ := List.mem_flatMap.mp hc
  split_ifs at hcd
  · exact (by decide : NoAngle "&amp;".toList) c hcd
  · rw [List.mem_singleton.mp hcd]
    exact h d hd

def probeSections (now : LocalTime) (s : DriveStats) (h : s.Clean) : List Section :=
  [{ tag := "Metadata".toList
     leaves := [valueLeaf "LastHardwareProbe".toList (by decide) ⟨now.text, isValue_time now⟩]
     name := by decide },
   { tag := "HardwareIdentity".toList
     leaves :=
      [⟨"Model".toList, xmlEscape s.model, by decide,
        noAngle_xmlEscape (h _ (by simp [DriveStats.fields]))⟩,
        ⟨"Serial".toList, xmlEscape s.serial, by decide,
          noAngle_xmlEscape (h _ (by simp [DriveStats.fields]))⟩,
        ⟨"Interface".toList, s.interface, by decide, h _ (by simp [DriveStats.fields])⟩,
        ⟨"Technology".toList, s.tech, by decide, h _ (by simp [DriveStats.fields])⟩,
        ⟨"FileSystem".toList, s.fsType, by decide, h _ (by simp [DriveStats.fields])⟩]
     name := by decide },
   { tag := "StorageCapacity".toList
     leaves :=
      [⟨"TotalGB".toList, s.totalGB, by decide, h _ (by simp [DriveStats.fields])⟩,
        ⟨"UsedGB".toList, s.usedGB, by decide, h _ (by simp [DriveStats.fields])⟩,
        ⟨"FreeGB".toList, s.freeGB, by decide, h _ (by simp [DriveStats.fields])⟩]
     name := by decide },
   { tag := "HardwareVitals".toList
     leaves :=
      [⟨"PowerOnHours".toList, s.hours, by decide, h _ (by simp [DriveStats.fields])⟩,
        ⟨"Temperature".toList, s.temp, by decide, h _ (by simp [DriveStats.fields])⟩,
        ⟨"ReallocatedSectors".toList, s.reallocated, by decide, h _ (by simp [DriveStats.fields])⟩,
        ⟨"HealthRating".toList, s.health, by decide, h _ (by simp [DriveStats.fields])⟩]
     name := by decide },
   { tag := "Policy".toList
     leaves :=
      [⟨"StressTestAllowed".toList,
        if s.isSystemDrive then "False".toList else "True".toList, by decide,
          by split_ifs <;> decide⟩,
        ⟨"Notes".toList,
          if s.isSystemDrive then "System Drive Protection Active".toList
            else "Standard Drive".toList, by decide,
          by split_ifs <;> decide⟩]
     name := by decide }]

def Record.probed (r : Record) (now : LocalTime) (s : DriveStats) (h : s.Clean) : Record where
  hardware := probeSections now s h
  mark := if s.health = "N/A".toList then none else r.mark
  file := r.file
  surface := r.surface
  layout := rfl

lemma deviceinfo_sections (now : LocalTime) (s : DriveStats) (h : s.Clean) {content : Text}
    {kept : List Section} (hkept : (if s.health = "N/A".toList then
        openLine "SmartHealthStatus".toList ++ leafLine "SmartStatus".toList "N/A".toList ++
          closeLine "SmartHealthStatus".toList
        else copyBlock content "SmartHealthStatus".toList) ++
      copyBlock content "FileIntegrityScan".toList ++ copyBlock content "SurfaceScanInfo".toList =
        kept.flatMap Section.render) :
    deviceinfo now s content = renderStatus (probeSections now s h ++ kept) ['\n'] := by
  rw [renderStatus_lines, List.flatMap_append, ← hkept]
  unfold deviceinfo
  simp only [probeSections, List.flatMap_cons, List.flatMap_nil, List.append_nil, List.append_assoc,
    Section.render_lines, Leaf.render, valueLeaf]

lemma smartSection_none : (smartSection none).render =
    openLine "SmartHealthStatus".toList ++ leafLine "SmartStatus".toList "N/A".toList ++
      closeLine "SmartHealthStatus".toList := by
  rw [Section.render_lines]
  rfl

lemma deviceinfo_eq (r : Record) (tail : Text) (now : LocalTime) (s : DriveStats) (h : s.Clean) :
    deviceinfo now s (renderStatus r.sections tail) =
      renderStatus (r.probed now s h).sections ['\n'] := by
  have hsmart : copyBlock (renderStatus r.sections tail) "SmartHealthStatus".toList =
      (smartSection r.mark).render :=
    copyBlock_section r.namesApart (s := smartSection r.mark) (by simp [Record.sections])
  have hfile : copyBlock (renderStatus r.sections tail) "FileIntegrityScan".toList =
      (fileSection r.file).render :=
    copyBlock_section r.namesApart (s := fileSection r.file) (by simp [Record.sections])
  have hsurface : copyBlock (renderStatus r.sections tail) "SurfaceScanInfo".toList =
      (surfaceSection r.surface).render :=
    copyBlock_section r.namesApart (s := surfaceSection r.surface) (by simp [Record.sections])
  apply deviceinfo_sections now s h
  rw [hsmart, hfile, hsurface, ← smartSection_none, Record.probed]
  simp only [List.flatMap_cons, List.flatMap_nil, List.append_nil, List.append_assoc]
  split_ifs <;> rfl

end Probe

section Scan

lemma isValue_grade (g : Surface.SurfaceGrade) : IsValue g.text := by
  cases g <;> decide

def ScanResult.values (now : LocalTime) (r : ScanResult) : SurfaceValues where
  date := ⟨now.text, isValue_time now⟩
  time := ⟨formatSeconds r.seconds, isValue_formatSeconds _⟩
  grade := ⟨r.finalGrade.text, isValue_grade _⟩
  stability := ⟨fixedText 1 (Surface.rStab r.rSpeeds), isValue_fixedText _ _⟩
  speed := ⟨fixedText 2 (Surface.avgR r.rSpeeds), isValue_fixedText _ _⟩
  coverage := ⟨intText r.percentage, isValue_intText _⟩
  errors := ⟨intText r.errors.toInt, isValue_intText _⟩

lemma surfaceScan_eq (r : Record) (tail : Text) (now : LocalTime) (result : ScanResult) :
    surfaceScan now result (renderStatus r.sections tail) =
      renderStatus { r with surface := result.values now }.sections ['\n'] := by
  have ht : hardwareTags ++ ["SmartHealthStatus".toList, "FileIntegrityScan".toList] =
      (r.hardware ++ [smartSection r.mark, fileSection r.file]).map Section.tag := by
    rw [List.map_append, r.hardware_tags]
    rfl
  have hmem : ∀ t ∈ r.hardware ++ [smartSection r.mark, fileSection r.file], t ∈ r.sections := by
    intro t ht
    rcases List.mem_append.mp ht with h | h
    · exact List.mem_append_left _ h
    · exact List.mem_append_right _ (List.mem_append_left [surfaceSection r.surface] h)
  have hcopied : (hardwareTags ++ ["SmartHealthStatus".toList, "FileIntegrityScan".toList]).flatMap
      (copyBlock (renderStatus r.sections tail)) =
        (r.hardware ++ [smartSection r.mark, fileSection r.file]).flatMap Section.render := by
    rw [ht]
    exact copyBlocks_sections r.namesApart hmem
  unfold surfaceScan
  rw [hcopied, renderStatus_lines]
  simp only [Record.sections, ScanResult.values, List.flatMap_append, List.flatMap_cons,
    List.flatMap_nil, List.append_nil, List.append_assoc]
  unfold surfaceSection
  simp only [List.flatMap_cons, List.flatMap_nil, List.append_nil, List.append_assoc,
    Section.render_lines, Leaf.render, valueLeaf]

end Scan

end DriveIntegrity.Status
