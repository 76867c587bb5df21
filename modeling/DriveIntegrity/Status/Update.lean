import DriveIntegrity.Status.FileCheck

/-! The file check as an update of the record. -/

namespace DriveIntegrity.Status

open Integrity (Text integrityGrade)

section Dom

lemma charsNode_value (v : Value) : charsNode v.1 = some [.text v.1] := by
  rw [charsNode, if_neg (by simp [v.2.not_blank]), decodeChars_plain v.2.plain]
  rfl

lemma savedText_value (v : Value) : savedText 2 v.1 = v.1 := by
  rw [savedText, if_neg v.2.ne_nil, escape_plain v.2.plain]

lemma valueLeaf_dom (tag : Text) (name : isXmlName tag = true) (v : Value) :
    (valueLeaf tag name v).dom = some (tag, [.text v.1]) := by
  change (charsNode v.1).map _ = _
  rw [charsNode_value]
  rfl

lemma valueLeaf_saved (tag : Text) (name : isXmlName tag = true) (v : Value) :
    SavedLeaf (tag, [.text v.1]) (valueLeaf tag name v) :=
  ⟨Or.inr ⟨v.1, rfl⟩, rfl, (savedText_value v).symm⟩

def valueDom (tag : Text) (v : Value) : Text × List XmlNode := (tag, [.text v.1])

def fileDom (v : FileValues) : DomSection :=
  ("FileIntegrityScan".toList,
    [valueDom "LastScanDate".toList v.date, valueDom "FilesChecked".toList v.checked,
      valueDom "CorruptFiles".toList v.corrupt, valueDom "IntegrityGrade".toList v.grade])

def surfaceDom (v : SurfaceValues) : DomSection :=
  ("SurfaceScanInfo".toList,
    [valueDom "SurfaceScanDate".toList v.date, valueDom "ActualTimeTaken".toList v.time,
      valueDom "SurfaceGrade".toList v.grade, valueDom "StabilityScore".toList v.stability,
      valueDom "AvgReadSpeed".toList v.speed, valueDom "ScanCoverage".toList v.coverage,
      valueDom "ErrorsDetected".toList v.errors])

def smartDom (marks : List (Text × List XmlNode)) : DomSection :=
  ("SmartHealthStatus".toList, valueDom "SmartStatus".toList notAvailable :: marks)

def markDom (date health : List XmlNode) : List (Text × List XmlNode) :=
  [("LastScanDate".toList, date), ("HealthStatus".toList, health)]

lemma fileSection_dom (v : FileValues) : (fileSection v).dom = some (fileDom v) := by
  unfold fileSection Section.dom
  simp only [List.mapM_cons, List.mapM_nil, valueLeaf_dom]
  rfl

lemma surfaceSection_dom (v : SurfaceValues) : (surfaceSection v).dom = some (surfaceDom v) := by
  unfold surfaceSection Section.dom
  simp only [List.mapM_cons, List.mapM_nil, valueLeaf_dom]
  rfl

def CheckMark.Legible (m : CheckMark) : Prop := (charsNode (savedText 2 m.health)).isSome = true

lemma CheckMark.leaves_dom {m : CheckMark} (h : m.Legible) :
    ∃ nodes, m.leaves.mapM Leaf.dom = some (markDom [.text m.date.1] nodes) := by
  obtain ⟨nodes, hn⟩ := Option.isSome_iff_exists.mp h
  have hl :
      (⟨"HealthStatus".toList, savedText 2 m.health, by decide, noAngle_savedText _⟩ : Leaf).dom =
      some ("HealthStatus".toList, nodes) := by
    change (charsNode (savedText 2 m.health)).map _ = _
    rw [hn]
    rfl
  refine ⟨nodes, ?_⟩
  unfold CheckMark.leaves
  simp only [List.mapM_cons, List.mapM_nil, valueLeaf_dom, hl]
  rfl

lemma smartSection_dom {mark : Option CheckMark} (h : ∀ m ∈ mark, m.Legible) :
    ∃ marks, (smartSection mark).dom = some (smartDom marks) ∧
      (marks = [] ∨ ∃ d n, marks = markDom d n) := by
  unfold smartSection Section.dom
  cases mark with
  | none =>
    refine ⟨[], ?_, Or.inl rfl⟩
    simp only [Option.map_none, Option.getD_none, List.mapM_cons, List.mapM_nil, valueLeaf_dom]
    rfl
  | some m =>
    obtain ⟨nodes, hn⟩ := CheckMark.leaves_dom (h m rfl)
    refine ⟨markDom [.text m.date.1] nodes, ?_, Or.inr ⟨_, _, rfl⟩⟩
    simp only [Option.map_some, Option.getD_some, List.mapM_cons, valueLeaf_dom, hn]
    rfl

end Dom

section Edit

def checkValues (now : LocalTime) (filesChecked : ℕ) (corList : List Text) : FileValues where
  date := ⟨now.text, isValue_time now⟩
  checked := ⟨decimal filesChecked, isValue_decimal _⟩
  corrupt := ⟨decimal corList.length, isValue_decimal _⟩
  grade := ⟨integrityGrade corList, by unfold integrityGrade; split_ifs <;> decide⟩

lemma setLeaves_file (v : FileValues) (now : LocalTime) (filesChecked : ℕ) (corList : List Text) :
    setLeaves (checkFields now filesChecked corList) (fileDom v) =
      fileDom (checkValues now filesChecked corList) := by
  rfl

lemma setLeaf_smart {marks : List (Text × List XmlNode)}
    (h : marks = [] ∨ ∃ d n, marks = markDom d n) (date health : Text) :
    setLeaf "HealthStatus".toList health (setLeaf "LastScanDate".toList date (smartDom marks)) =
      smartDom (markDom [.text date] [.text health]) := by
  rcases h with rfl | ⟨d, n, rfl⟩
  · rfl
  · rfl

lemma fileSection_saved (v : FileValues) : SavedSection (fileDom v) (fileSection v) :=
  ⟨rfl, .cons (valueLeaf_saved _ _ _) (.cons (valueLeaf_saved _ _ _) (.cons (valueLeaf_saved _ _ _)
    (.cons (valueLeaf_saved _ _ _) .nil)))⟩

lemma surfaceSection_saved (v : SurfaceValues) : SavedSection (surfaceDom v) (surfaceSection v) :=
  ⟨rfl, .cons (valueLeaf_saved _ _ _) (.cons (valueLeaf_saved _ _ _) (.cons (valueLeaf_saved _ _ _)
    (.cons (valueLeaf_saved _ _ _) (.cons (valueLeaf_saved _ _ _) (.cons (valueLeaf_saved _ _ _)
      (.cons (valueLeaf_saved _ _ _) .nil))))))⟩

lemma smartSection_saved (m : CheckMark) :
    SavedSection (smartDom (markDom [.text m.date.1] [.text m.health])) (smartSection (some m)) :=
  ⟨rfl, .cons (valueLeaf_saved _ _ _)
    (.cons (valueLeaf_saved _ _ _) (.cons ⟨Or.inr ⟨_, rfl⟩, rfl, rfl⟩ .nil))⟩

end Edit

section Check

def probedDom (r : Record) : List DomSection := (r.hardware.mapM Section.dom).getD []

def Record.checked (r : Record) (now : LocalTime) (filesChecked : ℕ) (corList : List Text) :
    Record where
  hardware := r.hardware.map Section.saved
  mark := some ⟨⟨now.text, isValue_time now⟩, probedHealth (probedDom r)⟩
  file := checkValues now filesChecked corList
  surface := r.surface
  layout := by
    rw [← r.layout, List.map_map]
    refine List.map_congr_left (fun s _ => ?_)
    simp only [Function.comp_apply, Section.schema, Section.saved, List.map_map]
    rfl

def Record.Legible (r : Record) : Prop := ∀ m ∈ r.mark, m.Legible

lemma mapM_dom_tags {ss : List Section} {ds : List DomSection} (h : ss.mapM Section.dom = some ds) :
    ds.map Prod.fst = ss.map Section.tag := by
  induction ss generalizing ds with
  | nil =>
    rw [List.mapM_nil] at h
    cases h
    rfl
  | cons s ss ih =>
    rw [List.mapM_cons] at h
    obtain ⟨d, hd, h⟩ := Option.bind_eq_some_iff.mp h
    obtain ⟨ds', hds, h⟩ := Option.bind_eq_some_iff.mp h
    cases h
    obtain ⟨leaves, _, rfl⟩ := Option.map_eq_some_iff.mp hd
    rw [List.map_cons, List.map_cons, ih hds]

lemma Record.mapM_dom {r : Record} (h : r.Legible) :
    ∃ marks, r.sections.mapM Section.dom = (r.hardware.mapM Section.dom).map
        (fun ds => ds ++ [smartDom marks, fileDom r.file, surfaceDom r.surface]) ∧
      (marks = [] ∨ ∃ d n, marks = markDom d n) := by
  obtain ⟨marks, hm, hc⟩ := smartSection_dom h
  refine ⟨marks, ?_, hc⟩
  rw [Record.sections, List.mapM_append]
  simp only [List.mapM_cons, List.mapM_nil, hm, fileSection_dom, surfaceSection_dom]
  cases r.hardware.mapM Section.dom <;> rfl

lemma quickFileCheck_eq {r : Record} (h : r.Legible) {tail : Text} (hs : tail.all isXmlSpace = true)
    (hn : NoAngle tail) (now : LocalTime) (filesChecked : ℕ) (corList : List Text) :
    quickFileCheck now filesChecked corList (renderStatus r.sections tail) =
      (r.hardware.mapM Section.dom).map
        (fun _ => renderStatus (r.checked now filesChecked corList).sections []) := by
  obtain ⟨marks, hm, hc⟩ := Record.mapM_dom h
  rw [quickFileCheck, parseXml_renderStatus _ hs hn, hm]
  cases hd : r.hardware.mapM Section.dom with
  | none => rfl
  | some ds =>
    have ht : ds.map Prod.fst = hardwareTags := (mapM_dom_tags hd).trans r.hardware_tags
    have hu : updateStatus now filesChecked corList
        (rootNode (ds ++ [smartDom marks, fileDom r.file, surfaceDom r.surface])) = _ :=
      updateStatus_eq ht rfl rfl rfl now filesChecked corList
    rw [setLeaf_smart hc, setLeaves_file] at hu
    have hp : probedDom r = ds := by rw [probedDom, hd, Option.getD_some]
    have hsaved : List.Forall₂ SavedSection
        (ds ++ [smartDom (markDom [.text now.text] [.text (probedHealth ds)]),
          fileDom (checkValues now filesChecked corList), surfaceDom r.surface])
        (r.checked now filesChecked corList).sections := by
      refine List.rel_append (mapM_saved hd (fun _ _ => Section.dom_saved)) ?_
      rw [← hp]
      exact .cons (smartSection_saved _)
        (.cons (fileSection_saved _) (.cons (surfaceSection_saved _) .nil))
    exact congrArg some ((congrArg saveXml hu).trans (saveXml_sections hsaved))

end Check

end DriveIntegrity.Status
