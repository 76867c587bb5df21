import DriveIntegrity.Status.Store

/-! The verdict of `generate_report`. -/

namespace DriveIntegrity.Status

open Integrity (Text integrityGrade Culture plainCulture)
open XmlNode (selectSingleNode innerText)

section Script

/-- `$Root.Section.Leaf`, `$null` when there is no such element or no document. -/
def rootValue (root : Option XmlNode) (name leaf : Text) : Option Text :=
  ((root.bind (fun node => selectSingleNode node name)).bind
    (fun node => selectSingleNode node leaf)).map innerText

def reportRoot (content : Text) : Option XmlNode :=
  (parseXml content).bind (fun node => if node.named rootName then some node else none)

/-- `-eq` on texts, which ignores case. -/
def psEq (C : Culture) (value : Option Text) (other : Text) : Bool :=
  match value with
  | some t => decide (C.lower t = C.lower other)
  | none => false

/-- The conversion `[int]` of a numeral; `none` when it throws. -/
def psInt : Option Text → Option ℤ
  | none => some 0
  | some [] => some 0
  | some ('-' :: t) => (parseDecimal t).map (fun n : ℕ => -(n : ℤ))
  | some t => (parseDecimal t).map Int.ofNat

def reportSmartStatus (root : Option XmlNode) : Text :=
  match rootValue root "SmartHealthStatus".toList "SmartStatus".toList with
  | some (c :: t) => c :: t
  | _ => "N/A".toList

inductive GlobalStatus
  | healthy
  | caution
  deriving DecidableEq

def verdict (C : Culture) (sGrade : Option Text) (smartStatus : Text)
    (errors fGrade : Option Text) : GlobalStatus :=
  if psEq C sGrade "Degraded".toList || psEq C (some smartStatus) "FAILING".toList then .caution
  else
    match psInt errors with
    -- The statement fails as a whole, and the first assignment stands.
    | none => .healthy
    | some n => if decide (0 < n) || psEq C fGrade "Critical".toList then .caution else .healthy

def globalStatus (C : Culture) (content : Text) : GlobalStatus :=
  let root := reportRoot content
  verdict C (rootValue root "SurfaceScanInfo".toList "SurfaceGrade".toList) (reportSmartStatus root)
    (rootValue root "SurfaceScanInfo".toList "ErrorsDetected".toList)
    (rootValue root "FileIntegrityScan".toList "IntegrityGrade".toList)

end Script

section Values

lemma psInt_digits {t : Text} (hne : t ≠ []) (hd : ∀ c ∈ t, c.isDigit = true) :
    psInt (some t) = (parseDecimal t).map Int.ofNat := by
  cases t with
  | nil => exact absurd rfl hne
  | cons c t =>
    have hc : c ≠ '-' := by
      rintro rfl
      exact absurd (hd '-' List.mem_cons_self) (by decide)
    simp [psInt, hc]

lemma psInt_intText (z : ℤ) : psInt (some (intText z)) = some z := by
  unfold intText
  split_ifs with h
  · have hp : psInt (some ('-' :: decimal z.natAbs)) = some (-(z.natAbs : ℤ)) := by
      rw [psInt, parseDecimal_decimal, Option.map_some]
    rw [hp, Option.some.injEq]
    omega
  · rw [psInt_digits (decimal_ne_nil _) (fun _ => isDigit_of_mem_decimal), parseDecimal_decimal,
      Option.map_some, Option.some.injEq, Int.ofNat_eq_natCast]
    omega

lemma psEq_of_length (C : Culture) {t other : Text} (h : t.length ≠ other.length) :
    psEq C (some t) other = false := by
  refine decide_eq_false (fun he => h ?_)
  rw [← Integrity.lower_length C t, he, Integrity.lower_length]

lemma psEq_self (C : Culture) (t : Text) : psEq C (some t) t = true := decide_eq_true rfl

lemma psEq_degraded (C : Culture) (g : Surface.SurfaceGrade) :
    psEq C (some g.text) "Degraded".toList = decide (g = .degraded) := by
  cases g with
  | degraded => exact psEq_self C _
  | dataLoss => exact psEq_of_length C (by decide)
  | healthy => exact psEq_of_length C (by decide)
  | inconsistent => exact psEq_of_length C (by decide)
  | extremeJitter => exact psEq_of_length C (by decide)
  | warning => exact psEq_of_length C (by decide)

lemma verdict_eq_caution {C : Culture} {sGrade errors fGrade : Option Text} {smartStatus : Text} :
    verdict C sGrade smartStatus errors fGrade = .caution ↔
      psEq C sGrade "Degraded".toList = true ∨ psEq C (some smartStatus) "FAILING".toList = true ∨
        ∃ n ∈ psInt errors, 0 < n ∨ psEq C fGrade "Critical".toList = true := by
  have hcases : ∀ (grade smart file : Bool) (count : Option ℤ),
      (if grade || smart then GlobalStatus.caution
        else match count with
          | none => .healthy
          | some n => if decide (0 < n) || file then .caution else .healthy) = .caution ↔
        grade = true ∨ smart = true ∨ ∃ n ∈ count, 0 < n ∨ file = true := by
    intro grade smart file count
    cases count with
    | none => cases grade <;> cases smart <;> simp
    | some n => by_cases hp : 0 < n <;> cases grade <;> cases smart <;> simp [hp]
  exact hcases _ _ _ _

lemma verdict_caution_iff {C : Culture} {sGrade errors fGrade : Option Text}
    {smartStatus : Text} {n : ℤ}
    (hs : psEq C (some smartStatus) "FAILING".toList = false) (hn : psInt errors = some n)
    (hf : psEq C fGrade "Critical".toList = false) :
    verdict C sGrade smartStatus errors fGrade = .caution ↔
      psEq C sGrade "Degraded".toList = true ∨ 0 < n := by
  rw [verdict_eq_caution, hs, hn, hf]
  simp

end Values

section Record

variable {runs : List ToolRun} {content : Text} {r : Record}

lemma reportRoot_readable (h : Tracks runs content r) (hr : r.Readable) :
    ∃ ds marks, ds.map Prod.fst = hardwareTags ∧
      reportRoot content =
        some (rootNode (ds ++ [smartDom marks, fileDom r.file, surfaceDom r.surface])) := by
  obtain ⟨tail, ht, rfl⟩ := h.content_eq
  obtain ⟨marks, hm, _⟩ := Record.mapM_dom h.legible
  obtain ⟨ds, hds⟩ := Option.isSome_iff_exists.mp hr
  refine ⟨ds, marks, (mapM_dom_tags hds).trans r.hardware_tags, ?_⟩
  rw [reportRoot, parseXml_renderStatus _ (tail_blank ht).1 (tail_blank ht).2, hm, hds]
  rfl

lemma reportRoot_unreadable (h : Tracks runs content r) (hr : ¬r.Readable) :
    reportRoot content = none := by
  obtain ⟨tail, ht, rfl⟩ := h.content_eq
  obtain ⟨marks, hm, _⟩ := Record.mapM_dom h.legible
  have hd : r.hardware.mapM Section.dom = none := Option.not_isSome_iff_eq_none.mp hr
  rw [reportRoot, parseXml_renderStatus _ (tail_blank ht).1 (tail_blank ht).2, hm, hd]
  rfl

variable {ds : List DomSection} {marks : List (Text × List XmlNode)}

lemma rootValue_section {pre post : List DomSection} {d : DomSection} {name : Text}
    (h : name ∉ pre.map Prod.fst) (hd : d.1 = name) (leaf : Text) :
    rootValue (some (rootNode (pre ++ d :: post))) name leaf =
      (selectSingleNode (sectionNode d) leaf).map innerText := by
  rw [rootValue, Option.bind_some, selectSection h hd, Option.bind_some]

lemma rootValue_smart (ht : ds.map Prod.fst = hardwareTags) (file surface : DomSection)
    (leaf : Text) :
    rootValue (some (rootNode (ds ++ [smartDom marks, file, surface])))
      "SmartHealthStatus".toList leaf =
      (selectSingleNode (sectionNode (smartDom marks)) leaf).map innerText := by
  have hn : "SmartHealthStatus".toList ∉ ds.map Prod.fst := by
    rw [ht]
    decide
  exact rootValue_section hn rfl leaf

lemma rootValue_file (ht : ds.map Prod.fst = hardwareTags) (v : FileValues) (surface : DomSection)
    (leaf : Text) :
    rootValue (some (rootNode (ds ++ [smartDom marks, fileDom v, surface])))
      "FileIntegrityScan".toList leaf =
      (selectSingleNode (sectionNode (fileDom v)) leaf).map innerText := by
  have hs : ds ++ [smartDom marks, fileDom v, surface] =
      ds ++ [smartDom marks] ++ fileDom v :: [surface] := by
    rw [List.append_assoc, List.singleton_append]
  rw [hs]
  refine rootValue_section ?_ rfl leaf
  rw [List.map_append, ht]
  exact (by decide : "FileIntegrityScan".toList ∉ hardwareTags ++ ["SmartHealthStatus".toList])

lemma rootValue_surface (ht : ds.map Prod.fst = hardwareTags) (f : FileValues) (v : SurfaceValues)
    (leaf : Text) :
    rootValue (some (rootNode (ds ++ [smartDom marks, fileDom f, surfaceDom v])))
      "SurfaceScanInfo".toList leaf =
      (selectSingleNode (sectionNode (surfaceDom v)) leaf).map innerText := by
  have hs : ds ++ [smartDom marks, fileDom f, surfaceDom v] =
      ds ++ [smartDom marks, fileDom f] ++ surfaceDom v :: [] := by
    rw [List.append_assoc]
    rfl
  rw [hs]
  refine rootValue_section ?_ rfl leaf
  rw [List.map_append, ht]
  exact (by decide : "SurfaceScanInfo".toList ∉
    hardwareTags ++ ["SmartHealthStatus".toList, "FileIntegrityScan".toList])

lemma select_smartStatus :
    (selectSingleNode (sectionNode (smartDom marks)) "SmartStatus".toList).map innerText =
      some "N/A".toList := rfl

lemma select_integrityGrade (v : FileValues) :
    (selectSingleNode (sectionNode (fileDom v)) "IntegrityGrade".toList).map innerText =
      some v.grade.1 := rfl

lemma select_surfaceGrade (v : SurfaceValues) :
    (selectSingleNode (sectionNode (surfaceDom v)) "SurfaceGrade".toList).map innerText =
      some v.grade.1 := rfl

lemma select_errorsDetected (v : SurfaceValues) :
    (selectSingleNode (sectionNode (surfaceDom v)) "ErrorsDetected".toList).map innerText =
      some v.errors.1 := rfl

lemma globalStatus_readable (C : Culture) (h : Tracks runs content r) (hr : r.Readable) {n : ℤ}
    (hn : psInt (some r.surface.errors.1) = some n)
    (hf : psEq C (some r.file.grade.1) "Critical".toList = false) :
    globalStatus C content = .caution ↔
      psEq C (some r.surface.grade.1) "Degraded".toList = true ∨ 0 < n := by
  obtain ⟨ds, marks, ht, hroot⟩ := reportRoot_readable h hr
  have hsmart : psEq C (some "N/A".toList) "FAILING".toList = false := psEq_of_length C (by decide)
  have hstatus :
      reportSmartStatus
        (some (rootNode (ds ++ [smartDom marks, fileDom r.file, surfaceDom r.surface]))) =
      "N/A".toList := by
    rw [reportSmartStatus, rootValue_smart ht, select_smartStatus]
    rfl
  unfold globalStatus
  dsimp only
  rw [hroot, rootValue_surface ht, rootValue_surface ht, rootValue_file ht, hstatus,
    select_surfaceGrade, select_errorsDetected, select_integrityGrade]
  exact verdict_caution_iff hsmart hn hf

lemma globalStatus_unreadable (C : Culture) (h : Tracks runs content r) (hr : ¬r.Readable) :
    globalStatus C content ≠ .caution := by
  have hsmart : psEq C (some "N/A".toList) "FAILING".toList = false := psEq_of_length C (by decide)
  unfold globalStatus
  dsimp only
  rw [reportRoot_unreadable h hr]
  change verdict C none "N/A".toList none none ≠ _
  rw [ne_eq, verdict_caution_iff hsmart rfl rfl]
  rintro (hg | hn)
  · cases hg
  · exact absurd hn (lt_irrefl 0)

end Record

section Damage

def ToolRun.corList : ToolRun → Option (List Text)
  | .quickFileCheck _ _ corList => some corList
  | _ => none

def ToolRun.scan : ToolRun → Option (LocalTime × ScanResult)
  | .surfaceScan now result => some (now, result)
  | _ => none

/-- The last probe, check or scan on record has found damage. -/
def Damaged (runs : List ToolRun) : Prop :=
  (∃ corList ∈ latest ToolRun.corList runs, 0 < corList.length) ∨
    (∃ scan ∈ latest ToolRun.scan runs, 0 < scan.2.errors.toInt) ∨
    (∃ scan ∈ latest ToolRun.scan runs,
      scan.2.finalGrade ∈ [.dataLoss, .degraded, .extremeJitter]) ∨
    ∃ stats ∈ latest ToolRun.stats runs, stats.health = "WARNING".toList

/-- Some damage that the report recognises stands in a file it can read. -/
def Recognised (runs : List ToolRun) : Prop :=
  (lastOf ToolRun.stats runs shippedStats).Readable ∧
    ∃ scan ∈ latest ToolRun.scan runs, 0 < scan.2.errors.toInt ∨ scan.2.finalGrade = .degraded

def Sound (runs : List ToolRun) : Prop :=
  (∀ corList ∈ latest ToolRun.corList runs, corList = []) ∧
    (∀ scan ∈ latest ToolRun.scan runs,
      scan.2.errors.toInt ≤ 0 ∧ scan.2.finalGrade ≠ .degraded ∧
      scan.2.finalGrade ≠ .extremeJitter) ∧
    ∀ stats ∈ latest ToolRun.stats runs, stats.health ≠ "WARNING".toList

variable {runs : List ToolRun} {content : Text} {r : Record}

lemma surfaceValues_eq (run : ToolRun) :
    run.surfaceValues = run.scan.map (fun scan => scan.2.values scan.1) := by
  cases run <;> rfl

lemma lastOf_surfaceValues (runs : List ToolRun) :
    lastOf ToolRun.surfaceValues runs shippedSurface =
      ((latest ToolRun.scan runs).map (fun scan => scan.2.values scan.1)).getD shippedSurface := by
  rw [lastOf, funext surfaceValues_eq, latest_map]

lemma latest_mem {α : Type} {f : ToolRun → Option α} {a : α} (h : latest f runs = some a) :
    ∃ run ∈ runs, f run = some a := List.mem_filterMap.mp (List.mem_of_getLast? h)

lemma integrityGrade_length (corList : List Text) :
    (integrityGrade corList).length ≠ "Critical".toList.length := by
  unfold integrityGrade
  split_ifs <;> decide

lemma fileGrade_length (runs : List ToolRun) :
    (lastOf ToolRun.fileValues runs shippedFile).grade.1.length ≠ "Critical".toList.length := by
  unfold lastOf
  cases h : latest ToolRun.fileValues runs with
  | none =>
    change notAvailable.1.length ≠ _
    decide
  | some v =>
    obtain ⟨run, _, hv⟩ := latest_mem h
    cases run with
    | deviceinfo now stats => cases hv
    | surfaceScan now result => cases hv
    | quickFileCheck now filesChecked corList =>
      obtain rfl : checkValues now filesChecked corList = v := Option.some.inj hv
      exact integrityGrade_length corList

lemma globalStatus_caution_iff (C : Culture) (h : Tracks runs content r) :
    globalStatus C content = .caution ↔ Recognised runs := by
  have hf : psEq C (some r.file.grade.1) "Critical".toList = false := by
    rw [h.file_eq]
    exact psEq_of_length C (fileGrade_length runs)
  rw [Recognised, ← h.readable_iff]
  by_cases hr : r.Readable
  · have hs := h.surface_eq.trans (lastOf_surfaceValues runs)
    cases hl : latest ToolRun.scan runs with
    | none =>
      rw [hl, Option.map_none, Option.getD_none] at hs
      have hn : psInt (some r.surface.errors.1) = some 0 := by
        rw [hs]
        exact psInt_intText 0
      have hg : psEq C (some r.surface.grade.1) "Degraded".toList = false := by
        rw [hs]
        exact psEq_of_length C (by decide)
      rw [globalStatus_readable C h hr hn hf, hg]
      simp
    | some scan =>
      rw [hl, Option.map_some, Option.getD_some] at hs
      have hn : psInt (some r.surface.errors.1) = some scan.2.errors.toInt := by
        rw [hs]
        exact psInt_intText _
      have hg : psEq C (some r.surface.grade.1) "Degraded".toList =
          decide (scan.2.finalGrade = .degraded) := by
        rw [hs]
        exact psEq_degraded C _
      rw [globalStatus_readable C h hr hn hf, hg]
      simp [hr, or_comm]
  · exact iff_of_false (globalStatus_unreadable C h hr) (fun hc => hr hc.1)

lemma damaged_iff (runs : List ToolRun) : Damaged runs ↔ ¬Sound runs := by
  have hgrade : ∀ scan : LocalTime × ScanResult,
      scan.2.finalGrade ∈ [Surface.SurfaceGrade.dataLoss, .degraded, .extremeJitter] ↔
        0 < scan.2.errors.toInt ∨ scan.2.finalGrade = .degraded ∨
        scan.2.finalGrade = .extremeJitter := by
    intro scan
    rw [List.mem_cons, List.mem_cons, List.mem_singleton, ScanResult.finalGrade,
      Surface.getTechnicalGrade_dataLoss_iff]
  have hlength : ∀ corList : List Text, corList = [] ↔ ¬0 < corList.length := by
    intro corList
    rw [← List.length_eq_zero_iff]
    omega
  unfold Damaged Sound
  simp only [hgrade, hlength, not_and_or, not_forall, not_not, not_le, exists_prop]
  constructor
  · rintro (h | ⟨scan, hs, he⟩ | ⟨scan, hs, he⟩ | h)
    · exact Or.inl h
    · exact Or.inr (Or.inl ⟨scan, hs, Or.inl he⟩)
    · exact Or.inr (Or.inl ⟨scan, hs, he⟩)
    · exact Or.inr (Or.inr h)
  · rintro (h | ⟨scan, hs, he⟩ | h)
    · exact Or.inl h
    · exact Or.inr (Or.inr (Or.inl ⟨scan, hs, he⟩))
    · exact Or.inr (Or.inr (Or.inr h))

def fileValue (content name leaf : Text) : Option Text := rootValue (reportRoot content) name leaf

def Positive (value : Option Text) : Prop := ∃ n ∈ psInt value, 0 < n

/-- The damage that the file itself records, whatever texts it was made from. -/
def FileDamaged (content : Text) : Prop :=
  Positive (fileValue content "FileIntegrityScan".toList "CorruptFiles".toList) ∨
    Positive (fileValue content "SurfaceScanInfo".toList "ErrorsDetected".toList) ∨
    (∃ grade ∈ [Surface.SurfaceGrade.dataLoss, .degraded, .extremeJitter],
      fileValue content "SurfaceScanInfo".toList "SurfaceGrade".toList = some grade.text) ∨
    fileValue content "HardwareVitals".toList "HealthRating".toList = some "WARNING".toList

/-- What the report compares with, spelled in any case. -/
def FileRecognised (C : Culture) (content : Text) : Prop :=
  psEq C (fileValue content "SurfaceScanInfo".toList "SurfaceGrade".toList) "Degraded".toList =
    true ∨
    psEq C (fileValue content "SmartHealthStatus".toList "SmartStatus".toList) "FAILING".toList =
      true ∨
    ∃ n ∈ psInt (fileValue content "SurfaceScanInfo".toList "ErrorsDetected".toList),
      0 < n ∨
      psEq C (fileValue content "FileIntegrityScan".toList "IntegrityGrade".toList)
        "Critical".toList = true

lemma psEq_smartStatus (C : Culture) (root : Option XmlNode) :
    psEq C (some (reportSmartStatus root)) "FAILING".toList =
      psEq C (rootValue root "SmartHealthStatus".toList "SmartStatus".toList) "FAILING".toList := by
  have hdefault : psEq C (some "N/A".toList) "FAILING".toList = false :=
    psEq_of_length C (by decide)
  unfold reportSmartStatus
  cases rootValue root "SmartHealthStatus".toList "SmartStatus".toList with
  | none => exact hdefault
  | some t =>
    cases t with
    | nil => exact hdefault.trans (psEq_of_length C (by decide)).symm
    | cons c t => rfl

lemma globalStatus_file_iff (C : Culture) (content : Text) :
    globalStatus C content = .caution ↔ FileRecognised C content := by
  rw [globalStatus, verdict_eq_caution, psEq_smartStatus, FileRecognised]
  rfl

/-- The report cautions about the damage that a file records exactly when it recognises some of it,
or there is none; where the probes gave texts without markup, this can be said of the runs that made
the file. -/
theorem report_cautions_iff (C : Culture) (h : runTools runs = some content) :
    ((FileDamaged content → globalStatus C content = .caution) ↔ FileRecognised C content ∨
      ¬FileDamaged content) ∧
      ((∀ run ∈ runs, run.Clean) →
        ((Damaged runs → globalStatus C content = .caution) ↔ Recognised runs ∨ Sound runs)) := by
  constructor
  · rw [globalStatus_file_iff]
    tauto
  · intro hc
    obtain ⟨r, hr⟩ := exists_tracks hc h
    rw [globalStatus_caution_iff C hr, damaged_iff]
    tauto

def failedScan : List ToolRun := [.surfaceScan sampleTime ⟨60, [], 3, 10⟩]

/-- The report cautions about a scan with errors. -/
theorem report_cautions_sample :
    ∃ content, runTools failedScan = some content ∧ Damaged failedScan ∧
      globalStatus plainCulture content = .caution := by
  have hrun :
      runTools failedScan = some (surfaceScan sampleTime ⟨60, [], 3, 10⟩ shippedStatus) := rfl
  have hdamaged : Damaged failedScan := .inr (.inl ⟨_, rfl, by decide⟩)
  have hrecognised : Recognised failedScan := ⟨by decide, _, rfl, .inl (by decide)⟩
  exact ⟨_, hrun, hdamaged,
    ((report_cautions_iff plainCulture hrun).2 (by decide)).mpr (.inl hrecognised) hdamaged⟩

/-- A probe whose model is read as markup: the next probe keeps this empty section and drops the
real one. -/
def markupStats : DriveStats :=
  { shippedStats with model := "<SurfaceScanInfo></SurfaceScanInfo>".toList }

def markupRuns : List ToolRun :=
  [.deviceinfo sampleTime markupStats, .surfaceScan sampleTime ⟨60, [], 3, 10⟩,
    .deviceinfo sampleTime shippedStats]

/-- With markup in a probe's text the runs say less than the file. -/
lemma markup_hides_errors :
    ∃ content, runTools markupRuns = some content ∧ Recognised markupRuns ∧
      globalStatus plainCulture content = .healthy := by
  refine ⟨deviceinfo sampleTime shippedStats (surfaceScan sampleTime ⟨60, [], 3, 10⟩
    (deviceinfo sampleTime markupStats shippedStatus)), rfl, ⟨?_, _, rfl, Or.inl ?_⟩, ?_⟩
  · decide
  · decide
  · decide +kernel

def corruptRuns : List ToolRun := [.quickFileCheck sampleTime 5 ["a.txt".toList]]

theorem report_misses_corruption :
    ∃ content, (∀ run ∈ corruptRuns, run.Clean) ∧ runTools corruptRuns = some content ∧
      Damaged corruptRuns ∧
      globalStatus plainCulture content = .healthy := by
  have hclean : ∀ run ∈ corruptRuns, run.Clean := by decide
  obtain ⟨ds, hds⟩ := Option.isSome_iff_exists.mp shippedRecord_readable
  have hrun : runTools corruptRuns =
      some (renderStatus (shippedRecord.checked sampleTime 5 ["a.txt".toList]).sections []) := by
    rw [corruptRuns, ← List.nil_append [_], runTools_append, runTools_nil,
      Option.bind_some, ToolRun.step,
      shippedStatus_eq, quickFileCheck_eq tracks_shipped.legible (by decide) (by decide), hds]
    rfl
  obtain ⟨r, hr⟩ := exists_tracks hclean hrun
  refine ⟨_, hclean, hrun, Or.inl ⟨["a.txt".toList], rfl, by decide⟩, ?_⟩
  have hnot : globalStatus plainCulture _ ≠ .caution := fun h => by
    obtain ⟨_, scan, hscan, _⟩ := (globalStatus_caution_iff plainCulture hr).mp h
    cases hscan
  cases hg : globalStatus plainCulture _ with
  | healthy => rfl
  | caution => exact absurd hg hnot

end Damage

end DriveIntegrity.Status
