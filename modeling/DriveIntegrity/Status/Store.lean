import DriveIntegrity.Status.Batch
import DriveIntegrity.Status.Readable

/-! Runs of the three tools on one status file. -/

namespace DriveIntegrity.Status

open Integrity (Text integrityGrade)

inductive ToolRun
  | deviceinfo (now : LocalTime) (stats : DriveStats)
  | surfaceScan (now : LocalTime) (result : ScanResult)
  | quickFileCheck (now : LocalTime) (filesChecked : ℕ) (corList : List Text)

/-- The file after a run, `none` when the run does not reach its save. -/
def ToolRun.step (content : Text) : ToolRun → Option Text
  | .deviceinfo now stats => some (Status.deviceinfo now stats content)
  | .surfaceScan now result => some (Status.surfaceScan now result content)
  | .quickFileCheck now filesChecked corList =>
      Status.quickFileCheck now filesChecked corList content

def shippedLines : List String :=
  ["<DriveBabySitter>",
    "  <Metadata>",
    "    <LastHardwareProbe>0000-00-00 00:00:00</LastHardwareProbe>",
    "  </Metadata>",
    "  <HardwareIdentity>",
    "    <Model>Model</Model>",
    "    <Serial>Seria Number </Serial>",
    "    <Interface>USB</Interface>",
    "    <Technology>Technology</Technology>",
    "    <FileSystem>File System</FileSystem>",
    "  </HardwareIdentity>",
    "  <StorageCapacity>",
    "    <TotalGB>00.00</TotalGB>",
    "    <UsedGB>00.00</UsedGB>",
    "    <FreeGB>00.00</FreeGB>",
    "  </StorageCapacity>",
    "  <HardwareVitals>",
    "    <PowerOnHours>N/A</PowerOnHours>",
    "    <Temperature>N/A</Temperature>",
    "    <ReallocatedSectors>N/A</ReallocatedSectors>",
    "    <HealthRating>N/A</HealthRating>",
    "  </HardwareVitals>",
    "  <Policy>",
    "    <StressTestAllowed>True</StressTestAllowed>",
    "    <Notes>Standard Drive</Notes>",
    "  </Policy>",
    "  <SmartHealthStatus>",
    "    <SmartStatus>N/A</SmartStatus>",
    "  </SmartHealthStatus>",
    "  <FileIntegrityScan>",
    "    <LastScanDate>0000-00-00 00:00:00</LastScanDate>",
    "    <FilesChecked>0</FilesChecked>",
    "    <CorruptFiles>0</CorruptFiles>",
    "    <IntegrityGrade>N/A</IntegrityGrade>",
    "  </FileIntegrityScan>",
    "  <SurfaceScanInfo>",
    "    <SurfaceScanDate>0000-00-00 00:00:00</SurfaceScanDate>",
    "    <ActualTimeTaken>00:00:00</ActualTimeTaken>",
    "    <SurfaceGrade>N/A</SurfaceGrade>",
    "    <StabilityScore>000.0</StabilityScore>",
    "    <AvgReadSpeed>000.00</AvgReadSpeed>",
    "    <ScanCoverage>0</ScanCoverage>",
    "    <ErrorsDetected>0</ErrorsDetected>",
    "  </SurfaceScanInfo>",
    "</DriveBabySitter>"]

def shippedStatus : Text := shippedLines.flatMap (fun line => line.toList ++ ['\n'])

/-- The file after the runs, each of which reaches its save. -/
def runTools (runs : List ToolRun) : Option Text := runs.foldlM ToolRun.step shippedStatus

section Record

def shippedStats : DriveStats where
  model := "Model".toList
  serial := "Seria Number ".toList
  totalGB := "00.00".toList
  usedGB := "00.00".toList
  freeGB := "00.00".toList
  interface := "USB".toList
  tech := "Technology".toList
  fsType := "File System".toList
  hours := "N/A".toList
  temp := "N/A".toList
  reallocated := "N/A".toList
  health := "N/A".toList
  isSystemDrive := false

def never : LocalTime := ⟨0, 0, 0, 0, 0, 0⟩

lemma shippedStats_clean : shippedStats.Clean := by decide

def shippedFile : FileValues where
  date := ⟨never.text, isValue_time _⟩
  checked := ⟨"0".toList, by decide⟩
  corrupt := ⟨"0".toList, by decide⟩
  grade := notAvailable

def shippedSurface : SurfaceValues where
  date := ⟨never.text, isValue_time _⟩
  time := ⟨"00:00:00".toList, by decide⟩
  grade := notAvailable
  stability := ⟨"000.0".toList, by decide⟩
  speed := ⟨"000.00".toList, by decide⟩
  coverage := ⟨"0".toList, by decide⟩
  errors := ⟨"0".toList, by decide⟩

def shippedRecord : Record where
  hardware := probeSections never shippedStats shippedStats_clean
  mark := none
  file := shippedFile
  surface := shippedSurface
  layout := rfl

lemma shippedStatus_eq : shippedStatus = renderStatus shippedRecord.sections ['\n'] := by
  decide +kernel

end Record

section LastWritten

/-- The value of the last run that has one. -/
def latest {α : Type} (f : ToolRun → Option α) (runs : List ToolRun) : Option α :=
  (runs.filterMap f).getLast?

/-- What the last of the runs that write it has written, or the shipped value. -/
def lastOf {α : Type} (f : ToolRun → Option α) (runs : List ToolRun) (shipped : α) : α :=
  (latest f runs).getD shipped

variable {α β : Type} {f : ToolRun → Option α} {runs : List ToolRun} {run : ToolRun} {shipped : α}

lemma latest_append_some {a : α} (h : f run = some a) : latest f (runs ++ [run]) = some a := by
  rw [latest, List.filterMap_append, List.filterMap_cons_some h, List.filterMap_nil,
    List.getLast?_append]
  rfl

lemma latest_append_none (h : f run = none) : latest f (runs ++ [run]) = latest f runs := by
  rw [latest, List.filterMap_append, List.filterMap_cons_none h, List.filterMap_nil,
    List.append_nil, latest]

lemma latest_map (g : α → β) : latest (fun run => (f run).map g) runs = (latest f runs).map g := by
  rw [latest, latest, ← List.map_filterMap, List.getLast?_map]

lemma lastOf_append_some {a : α} (h : f run = some a) : lastOf f (runs ++ [run]) shipped = a := by
  rw [lastOf, latest_append_some h, Option.getD_some]

lemma lastOf_append_none (h : f run = none) :
    lastOf f (runs ++ [run]) shipped = lastOf f runs shipped := by
  rw [lastOf, latest_append_none h, lastOf]

lemma lastOf_map (g : α → β) :
    lastOf (fun run => (f run).map g) runs (g shipped) = g (lastOf f runs shipped) := by
  rw [lastOf, latest_map, Option.getD_map, lastOf]

def ToolRun.fileValues : ToolRun → Option FileValues
  | .quickFileCheck now filesChecked corList => some (checkValues now filesChecked corList)
  | _ => none

def ToolRun.surfaceValues : ToolRun → Option SurfaceValues
  | .surfaceScan now result => some (result.values now)
  | _ => none

def ToolRun.stats : ToolRun → Option DriveStats
  | .deviceinfo _ stats => some stats
  | _ => none

end LastWritten

section Invariant

def ToolRun.Clean : ToolRun → Prop
  | .deviceinfo _ stats => stats.Clean
  | _ => True

instance (run : ToolRun) : Decidable run.Clean := by
  cases run with
  | deviceinfo now stats => exact inferInstanceAs (Decidable stats.Clean)
  | surfaceScan now result => exact inferInstanceAs (Decidable True)
  | quickFileCheck now filesChecked corList => exact inferInstanceAs (Decidable True)

structure Tracks (runs : List ToolRun) (content : Text) (r : Record) : Prop where
  content_eq : ∃ tail, (tail = [] ∨ tail = ['\n']) ∧ content = renderStatus r.sections tail
  legible : r.Legible
  file_eq : r.file = lastOf ToolRun.fileValues runs shippedFile
  surface_eq : r.surface = lastOf ToolRun.surfaceValues runs shippedSurface
  readable_iff : r.Readable ↔ (lastOf ToolRun.stats runs shippedStats).Readable

lemma tail_blank {tail : Text} (h : tail = [] ∨ tail = ['\n']) :
    tail.all isXmlSpace = true ∧ NoAngle tail := by
  rcases h with rfl | rfl <;> decide

variable {runs : List ToolRun} {content : Text} {r : Record}

lemma Record.probed_legible (h : r.Legible) (now : LocalTime) (stats : DriveStats)
    (hc : stats.Clean) :
    (r.probed now stats hc).Legible := by
  unfold Legible probed
  dsimp only
  split_ifs
  · exact fun m hm => absurd hm (Option.not_mem_none m)
  · exact h

lemma Tracks.deviceinfo (h : Tracks runs content r) (now : LocalTime) (stats : DriveStats)
    (hc : stats.Clean) :
    Tracks (runs ++ [.deviceinfo now stats]) (Status.deviceinfo now stats content)
      (r.probed now stats hc) := by
  obtain ⟨tail, _, rfl⟩ := h.content_eq
  refine ⟨⟨['\n'], Or.inr rfl, deviceinfo_eq r tail now stats hc⟩,
    r.probed_legible h.legible now stats hc, ?_, ?_, ?_⟩
  · rw [lastOf_append_none rfl]
    exact h.file_eq
  · rw [lastOf_append_none rfl]
    exact h.surface_eq
  · rw [lastOf_append_some (a := stats) rfl]
    exact probed_readable_iff r now stats hc

lemma Tracks.surfaceScan (h : Tracks runs content r) (now : LocalTime) (result : ScanResult) :
    Tracks (runs ++ [.surfaceScan now result]) (Status.surfaceScan now result content)
      { r with surface := result.values now } := by
  obtain ⟨tail, _, rfl⟩ := h.content_eq
  refine ⟨⟨['\n'], Or.inr rfl, surfaceScan_eq r tail now result⟩, h.legible, ?_, ?_, ?_⟩
  · rw [lastOf_append_none rfl]
    exact h.file_eq
  · rw [lastOf_append_some (a := result.values now) rfl]
  · rw [lastOf_append_none rfl]
    exact h.readable_iff

lemma Tracks.quickFileCheck (h : Tracks runs content r) {now : LocalTime} {filesChecked : ℕ}
    {corList : List Text}
    {after : Text} (hs : Status.quickFileCheck now filesChecked corList content = some after) :
    r.Readable ∧ Tracks (runs ++ [.quickFileCheck now filesChecked corList]) after
      (r.checked now filesChecked corList) := by
  obtain ⟨tail, ht, rfl⟩ := h.content_eq
  rw [quickFileCheck_eq h.legible (tail_blank ht).1 (tail_blank ht).2] at hs
  obtain ⟨ds, hds, rfl⟩ := Option.map_eq_some_iff.mp hs
  have hr : r.Readable := Option.isSome_iff_exists.mpr ⟨ds, hds⟩
  refine ⟨hr, ⟨[], Or.inl rfl, rfl⟩, Record.checked_legible hr _ _ _, ?_, ?_, ?_⟩
  · rw [lastOf_append_some (a := checkValues now filesChecked corList) rfl]
    rfl
  · rw [lastOf_append_none rfl]
    exact h.surface_eq
  · rw [lastOf_append_none rfl, ← h.readable_iff]
    exact iff_of_true (Record.checked_readable hr _ _ _) hr

lemma tracks_shipped : Tracks [] shippedStatus shippedRecord where
  content_eq := ⟨['\n'], Or.inr rfl, shippedStatus_eq⟩
  legible := fun m hm => absurd hm (Option.not_mem_none m)
  file_eq := rfl
  surface_eq := rfl
  readable_iff := probed_readable_iff shippedRecord never shippedStats shippedStats_clean

lemma shippedRecord_readable : shippedRecord.Readable :=
  (probed_readable_iff shippedRecord never shippedStats shippedStats_clean).mpr (by decide)

lemma runTools_nil : runTools [] = some shippedStatus := rfl

lemma runTools_append (runs : List ToolRun) (run : ToolRun) :
    runTools (runs ++ [run]) = (runTools runs).bind (fun content => run.step content) := by
  rw [runTools, List.foldlM_append, runTools]
  cases runs.foldlM ToolRun.step shippedStatus with
  | none => rfl
  | some before =>
    change (run.step before).bind some = run.step before
    cases run.step before <;> rfl

lemma exists_tracks (hc : ∀ run ∈ runs, run.Clean) (h : runTools runs = some content) :
    ∃ r, Tracks runs content r := by
  induction runs using List.reverseRecOn generalizing content with
  | nil =>
    obtain rfl : shippedStatus = content := Option.some.inj h
    exact ⟨_, tracks_shipped⟩
  | append_singleton runs run ih =>
    rw [runTools_append] at h
    obtain ⟨before, hb, hs⟩ := Option.bind_eq_some_iff.mp h
    obtain ⟨r, hr⟩ := ih (fun t ht => hc t (List.mem_append_left _ ht)) hb
    cases run with
    | deviceinfo now stats =>
      obtain rfl : Status.deviceinfo now stats before = content := Option.some.inj hs
      exact ⟨_, hr.deviceinfo now stats (hc _ (List.mem_append_right _ List.mem_cons_self))⟩
    | surfaceScan now result =>
      obtain rfl : Status.surfaceScan now result before = content := Option.some.inj hs
      exact ⟨_, hr.surfaceScan now result⟩
    | quickFileCheck now filesChecked corList => exact ⟨_, (hr.quickFileCheck hs).2⟩

end Invariant

section Display

def ToolRun.checkPanel : ToolRun → Option FilePanel
  | .quickFileCheck now _ corList => some ⟨integrityGrade corList, now.text⟩
  | _ => none

def ToolRun.scanPanel : ToolRun → Option SurfacePanel
  | .surfaceScan now r =>
    some ⟨r.finalGrade.text, now.text, fixedText 1 (Surface.rStab r.rSpeeds),
      fixedText 2 (Surface.avgR r.rSpeeds),
      intText r.percentage⟩
  | _ => none

def shippedFilePanel : FilePanel := ⟨"N/A".toList, "0000-00-00 00:00:00".toList⟩

def shippedSurfacePanel : SurfacePanel :=
  ⟨"N/A".toList, "0000-00-00 00:00:00".toList, "000.0".toList, "000.00".toList, "0".toList⟩

variable {runs : List ToolRun} {content : Text}

lemma checkPanel_eq (run : ToolRun) :
    run.checkPanel = run.fileValues.map (fun v => ⟨v.grade.1, v.date.1⟩) := by
  cases run <;> rfl

lemma scanPanel_eq (run : ToolRun) :
    run.scanPanel = run.surfaceValues.map
      (fun v => ⟨v.grade.1, v.date.1, v.stability.1, v.speed.1, v.coverage.1⟩) := by
  cases run <;> rfl

lemma never_text : never.text = "0000-00-00 00:00:00".toList := by decide

lemma lastOf_checkPanel (runs : List ToolRun) :
    lastOf ToolRun.checkPanel runs shippedFilePanel =
      ⟨(lastOf ToolRun.fileValues runs shippedFile).grade.1,
        (lastOf ToolRun.fileValues runs shippedFile).date.1⟩ := by
  have hs : shippedFilePanel = ⟨shippedFile.grade.1, shippedFile.date.1⟩ := by
    rw [shippedFilePanel, ← never_text]
    rfl
  rw [hs, funext checkPanel_eq]
  exact lastOf_map (fun v : FileValues => (⟨v.grade.1, v.date.1⟩ : FilePanel))

lemma lastOf_scanPanel (runs : List ToolRun) :
    lastOf ToolRun.scanPanel runs shippedSurfacePanel =
      ⟨(lastOf ToolRun.surfaceValues runs shippedSurface).grade.1,
        (lastOf ToolRun.surfaceValues runs shippedSurface).date.1,
        (lastOf ToolRun.surfaceValues runs shippedSurface).stability.1,
        (lastOf ToolRun.surfaceValues runs shippedSurface).speed.1,
        (lastOf ToolRun.surfaceValues runs shippedSurface).coverage.1⟩ := by
  have hs : shippedSurfacePanel =
      ⟨shippedSurface.grade.1, shippedSurface.date.1, shippedSurface.stability.1,
      shippedSurface.speed.1, shippedSurface.coverage.1⟩ := by
    rw [shippedSurfacePanel, ← never_text]
    rfl
  rw [hs, funext scanPanel_eq]
  exact lastOf_map (fun v : SurfaceValues =>
    (⟨v.grade.1, v.date.1, v.stability.1, v.speed.1, v.coverage.1⟩ : SurfacePanel))

lemma Tracks.loadData_eq {r : Record} (h : Tracks runs content r) :
    loadData (some content) = r.panel := by
  obtain ⟨tail, ht, rfl⟩ := h.content_eq
  exact loadText_renderStatus r ht rfl

/-- The menu shows what the last file check and the last surface scan have written. -/
theorem panel_survives_runs (hc : ∀ run ∈ runs, run.Clean) (h : runTools runs = some content) :
    (loadData (some content)).file = lastOf ToolRun.checkPanel runs shippedFilePanel ∧
      (loadData (some content)).surface = lastOf ToolRun.scanPanel runs shippedSurfacePanel := by
  obtain ⟨r, hr⟩ := exists_tracks hc h
  rw [hr.loadData_eq, lastOf_checkPanel, lastOf_scanPanel, ← hr.file_eq, ← hr.surface_eq]
  exact ⟨rfl, rfl⟩

def sampleTime : LocalTime := ⟨2026, 4, 12, 9, 30, 0⟩

def sampleStats : DriveStats :=
  { shippedStats with model := "A & B\n".toList, health := "PASSED".toList }

def sampleRuns : List ToolRun :=
  [.quickFileCheck sampleTime 5 ["a.txt".toList], .surfaceScan sampleTime ⟨60, [], 0, 10⟩,
    .deviceinfo sampleTime sampleStats]

lemma sampleRuns_complete : (runTools sampleRuns).isSome = true := by
  have hcheck :
      (Status.quickFileCheck sampleTime 5 ["a.txt".toList] shippedStatus).isSome = true := by
    rw [shippedStatus_eq, quickFileCheck_eq tracks_shipped.legible (by decide) (by decide),
      Option.isSome_map]
    exact shippedRecord_readable
  obtain ⟨after, hafter⟩ := Option.isSome_iff_exists.mp hcheck
  have hfirst : ToolRun.step shippedStatus (.quickFileCheck sampleTime 5 ["a.txt".toList]) =
      some after := hafter
  rw [runTools, sampleRuns, List.foldlM_cons, hfirst]
  rfl

theorem panel_survives_sample :
    (loadData (some ((runTools sampleRuns).get sampleRuns_complete))).file =
        ⟨"Low".toList, "2026-04-12 09:30:00".toList⟩ ∧
      (loadData (some ((runTools sampleRuns).get sampleRuns_complete))).surface =
        ⟨"Degraded (Extreme Jitter)".toList, "2026-04-12 09:30:00".toList, "0.0".toList,
          "0.00".toList,
          "10".toList⟩ := by
  have hclean : ∀ run ∈ sampleRuns, run.Clean := by decide
  have hp := panel_survives_runs hclean (Option.some_get sampleRuns_complete).symm
  exact ⟨hp.1.trans (by decide +kernel), hp.2.trans (by decide +kernel)⟩

end Display

end DriveIntegrity.Status
