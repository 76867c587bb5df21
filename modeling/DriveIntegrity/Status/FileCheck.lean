import DriveIntegrity.Integrity.Compare
import DriveIntegrity.Library.Dom
import DriveIntegrity.Status.Document
import DriveIntegrity.Status.Record

/-! The status update of `quick_file_check`. -/

namespace DriveIntegrity.Status

open Integrity (Text integrityGrade)
open XmlNode (selectSingleNode editChild innerText)

def setXmlValue (elementName value : Text) (parentNode : XmlNode) : XmlNode :=
  if (selectSingleNode parentNode elementName).isNone then
    parentNode.withChildren (parentNode.children ++ [.element elementName [.text value]])
  else parentNode.withChildren
    (editChild elementName (fun node => node.withChildren [.text value]) parentNode.children)

def ensureSection (root : XmlNode) (name : Text) : XmlNode :=
  if (selectSingleNode root name).isNone then
    root.withChildren (root.children ++ [.emptyElement name]) else root

def updateSection (root : XmlNode) (name : Text) (f : XmlNode → XmlNode) : XmlNode :=
  root.withChildren (editChild name f root.children)

/-- `$root.HardwareVitals.HealthRating`, or `PASSED` without vitals. -/
def healthStatus (root : XmlNode) : Text :=
  match selectSingleNode root "HardwareVitals".toList with
  | some vitals => ((selectSingleNode vitals "HealthRating".toList).map innerText).getD []
  | none => "PASSED".toList

def updateStatus (now : LocalTime) (filesChecked : ℕ) (corList : List Text) (root : XmlNode) :
    XmlNode :=
  let root :=
    ["SmartHealthStatus".toList, "FileIntegrityScan".toList, "SurfaceScanInfo".toList].foldl
    ensureSection root
  let root :=
    updateSection root "SmartHealthStatus".toList (setXmlValue "LastScanDate".toList now.text)
  let root := updateSection root "SmartHealthStatus".toList
    (setXmlValue "HealthStatus".toList (healthStatus root))
  let root :=
    updateSection root "FileIntegrityScan".toList (setXmlValue "LastScanDate".toList now.text)
  let root := updateSection root "FileIntegrityScan".toList
    (setXmlValue "FilesChecked".toList (decimal filesChecked))
  let root := updateSection root "FileIntegrityScan".toList
    (setXmlValue "CorruptFiles".toList (decimal corList.length))
  updateSection root "FileIntegrityScan".toList
    (setXmlValue "IntegrityGrade".toList (integrityGrade corList))

/-- The file after a check, `none` when it is not well-formed. -/
def quickFileCheck (now : LocalTime) (filesChecked : ℕ) (corList : List Text) (content : Text) :
    Option Text :=
  (parseXml content).map (fun root => saveXml (updateStatus now filesChecked corList root))

section Sections

def rootNode (ds : List DomSection) : XmlNode := .element rootName (ds.map sectionNode)

def replaceLeaf (tag value : Text) : List (Text × List XmlNode) → List (Text × List XmlNode)
  | [] => []
  | e :: es => if e.1 = tag then (e.1, [.text value]) :: es else e :: replaceLeaf tag value es

/-- `Set-XmlValue` on a section of leaves. -/
def setLeaf (tag value : Text) (d : DomSection) : DomSection :=
  (d.1, if tag ∈ d.2.map Prod.fst then replaceLeaf tag value d.2 else d.2 ++ [(tag, [.text value])])

lemma setLeaf_fst (tag value : Text) (d : DomSection) : (setLeaf tag value d).1 = d.1 := rfl

lemma named_leafNode (tag : Text) (e : Text × List XmlNode) :
    (leafNode e).named tag = decide (e.1 = tag) := rfl

lemma editChild_leaves (tag value : Text) (es : List (Text × List XmlNode)) :
    editChild tag (fun node => node.withChildren [.text value]) (es.map leafNode) =
      (replaceLeaf tag value es).map leafNode := by
  induction es with
  | nil => rfl
  | cons e es ih =>
    rw [List.map_cons, editChild, replaceLeaf, ih, named_leafNode]
    by_cases h : e.1 = tag
    · rw [if_pos h, if_pos (decide_eq_true h)]
      rfl
    · rw [if_neg h, if_neg (by rwa [decide_eq_true_eq])]
      rfl

lemma selectLeaf_isNone (tag : Text) (d : DomSection) :
    (selectSingleNode (sectionNode d) tag).isNone = true ↔ tag ∉ d.2.map Prod.fst := by
  rw [Option.isNone_iff_eq_none, selectSingleNode, List.find?_eq_none]
  change (∀ c ∈ d.2.map leafNode, ¬c.named tag = true) ↔ _
  rw [List.forall_mem_map]
  simp only [named_leafNode, decide_eq_true_eq, List.mem_map, not_exists, not_and]

lemma setXmlValue_section (tag value : Text) (d : DomSection) :
    setXmlValue tag value (sectionNode d) = sectionNode (setLeaf tag value d) := by
  by_cases h : tag ∈ d.2.map Prod.fst
  · rw [setXmlValue, if_neg (by rw [selectLeaf_isNone]; exact not_not.mpr h), setLeaf, if_pos h]
    exact congrArg (XmlNode.element d.1) (editChild_leaves tag value d.2)
  · rw [setXmlValue, if_pos ((selectLeaf_isNone tag d).mpr h), setLeaf, if_neg h]
    have hm : d.2.map leafNode ++ [XmlNode.element tag [.text value]] =
        (d.2 ++ [(tag, [XmlNode.text value])]).map leafNode := by
      rw [List.map_append]
      rfl
    exact congrArg (XmlNode.element d.1) hm

variable {name : Text} {pre post : List DomSection} {d : DomSection}

lemma not_named_section (h : name ∉ pre.map Prod.fst) :
    ∀ c ∈ pre.map sectionNode, c.named name = false := by
  intro c hc
  obtain ⟨e, he, rfl⟩ := List.mem_map.mp hc
  refine decide_eq_false ?_
  rintro rfl
  exact h (List.mem_map_of_mem he)

lemma selectSection (h : name ∉ pre.map Prod.fst) (hd : d.1 = name) :
    selectSingleNode (rootNode (pre ++ d :: post)) name = some (sectionNode d) := by
  rw [rootNode, List.map_append, List.map_cons]
  exact XmlNode.selectSingleNode_append (not_named_section h) (decide_eq_true hd)

lemma ensureSection_present (h : name ∉ pre.map Prod.fst) (hd : d.1 = name) :
    ensureSection (rootNode (pre ++ d :: post)) name = rootNode (pre ++ d :: post) := by
  rw [ensureSection, selectSection h hd, if_neg (by simp)]

lemma updateSection_setXmlValue (h : name ∉ pre.map Prod.fst) (hd : d.1 = name) (tag value : Text) :
    updateSection (rootNode (pre ++ d :: post)) name (setXmlValue tag value) =
      rootNode (pre ++ setLeaf tag value d :: post) := by
  have he : editChild name (setXmlValue tag value)
      (pre.map sectionNode ++ sectionNode d :: post.map sectionNode) =
      pre.map sectionNode ++ setXmlValue tag value (sectionNode d) :: post.map sectionNode :=
    XmlNode.editChild_append (not_named_section h) (decide_eq_true hd)
  rw [updateSection, rootNode, XmlNode.children, XmlNode.withChildren, List.map_append,
    List.map_cons, he, setXmlValue_section, rootNode, List.map_append, List.map_cons]

def setLeaves (fields : List (Text × Text)) (d : DomSection) : DomSection :=
  fields.foldl (fun d field => setLeaf field.1 field.2 d) d

lemma updateSection_setXmlValues (fields : List (Text × Text)) (h : name ∉ pre.map Prod.fst)
    (hd : d.1 = name) :
    fields.foldl (fun root field => updateSection root name (setXmlValue field.1 field.2))
        (rootNode (pre ++ d :: post)) =
      rootNode (pre ++ setLeaves fields d :: post) := by
  induction fields generalizing d with
  | nil => rfl
  | cons field fields ih =>
    rw [List.foldl_cons, updateSection_setXmlValue h hd]
    exact ih hd

/-- The rating of the probe as the file check reads it. -/
def probedHealth (hardware : List DomSection) : Text := healthStatus (rootNode hardware)

lemma healthStatus_append (h : "HardwareVitals".toList ∈ pre.map Prod.fst) :
    healthStatus (rootNode (pre ++ post)) = probedHealth pre := by
  obtain ⟨e, he, hn⟩ := List.mem_map.mp h
  have hs : ((pre.map sectionNode).find? (XmlNode.named "HardwareVitals".toList)).isSome = true :=
    List.find?_isSome.mpr ⟨sectionNode e, List.mem_map_of_mem he, decide_eq_true hn⟩
  have hf : selectSingleNode (rootNode (pre ++ post)) "HardwareVitals".toList =
      selectSingleNode (rootNode pre) "HardwareVitals".toList := by
    simp only [selectSingleNode, rootNode, XmlNode.children, List.map_append, List.find?_append]
    exact Option.or_of_isSome hs
  rw [probedHealth, healthStatus, hf, healthStatus]

def checkFields (now : LocalTime) (filesChecked : ℕ) (corList : List Text) : List (Text × Text) :=
  [("LastScanDate".toList, now.text), ("FilesChecked".toList, decimal filesChecked),
    ("CorruptFiles".toList, decimal corList.length),
    ("IntegrityGrade".toList, integrityGrade corList)]

variable {hardware : List DomSection} {smart file surface : DomSection}

lemma ensureSections_present (ht : hardware.map Prod.fst = hardwareTags)
    (hsmart : smart.1 = "SmartHealthStatus".toList) (hfile : file.1 = "FileIntegrityScan".toList)
    (hsurface : surface.1 = "SurfaceScanInfo".toList) :
    ["SmartHealthStatus".toList, "FileIntegrityScan".toList,
      "SurfaceScanInfo".toList].foldl ensureSection
      (rootNode (hardware ++ [smart, file, surface])) = rootNode
        (hardware ++ [smart, file, surface]) := by
  have hpresent : ∀ (pre : List DomSection) (d : DomSection) (post : List DomSection),
      hardware ++ [smart, file, surface] = pre ++ d :: post → d.1 ∉ pre.map Prod.fst →
      ensureSection (rootNode (hardware ++ [smart, file, surface])) d.1 =
        rootNode (hardware ++ [smart, file, surface]) := by
    intro pre d post h hd
    rw [h]
    exact ensureSection_present hd rfl
  have h1 := hpresent hardware smart [file, surface] rfl (by rw [ht, hsmart]; decide)
  have h2 := hpresent (hardware ++ [smart]) file [surface] (by simp)
    (by rw [List.map_append, ht, List.map_singleton, hsmart, hfile]; decide)
  have h3 := hpresent (hardware ++ [smart, file]) surface [] (by simp)
    (by rw [List.map_append, ht, List.map_cons, List.map_singleton, hsmart,
      hfile, hsurface]; decide)
  rw [hsmart] at h1
  rw [hfile] at h2
  rw [hsurface] at h3
  rw [List.foldl_cons, List.foldl_cons, List.foldl_cons, List.foldl_nil, h1, h2, h3]

lemma updateStatus_eq (ht : hardware.map Prod.fst = hardwareTags)
    (hsmart : smart.1 = "SmartHealthStatus".toList)
    (hfile : file.1 = "FileIntegrityScan".toList) (hsurface : surface.1 = "SurfaceScanInfo".toList)
    (now : LocalTime) (filesChecked : ℕ) (corList : List Text) :
    updateStatus now filesChecked corList (rootNode (hardware ++ [smart, file, surface])) =
      rootNode (hardware ++
        [setLeaf "HealthStatus".toList (probedHealth hardware)
          (setLeaf "LastScanDate".toList now.text smart),
          setLeaves (checkFields now filesChecked corList) file, surface]) := by
  have h1 : "SmartHealthStatus".toList ∉ hardware.map Prod.fst := by
    rw [ht]
    decide
  have hvitals : "HardwareVitals".toList ∈ hardware.map Prod.fst := by
    rw [ht]
    decide
  have hdated : (setLeaf "LastScanDate".toList now.text smart).1 = "SmartHealthStatus".toList := by
    rw [setLeaf_fst, hsmart]
  have hfiles : ∀ marked : DomSection, marked.1 = "SmartHealthStatus".toList →
      (checkFields now filesChecked corList).foldl
          (fun root field =>
            updateSection root "FileIntegrityScan".toList (setXmlValue field.1 field.2))
          (rootNode (hardware ++ [marked, file, surface])) =
        rootNode
          (hardware ++ [marked, setLeaves (checkFields now filesChecked corList) file,
            surface]) := by
    intro marked hm
    have h2 : "FileIntegrityScan".toList ∉ (hardware ++ [marked]).map Prod.fst := by
      rw [List.map_append, ht, List.map_singleton, hm]
      decide
    have hu : (checkFields now filesChecked corList).foldl
          (fun root field =>
            updateSection root "FileIntegrityScan".toList (setXmlValue field.1 field.2))
          (rootNode (hardware ++ [marked] ++ file :: [surface])) =
        rootNode
          (hardware ++ [marked] ++ setLeaves (checkFields now filesChecked corList)
            file :: [surface]) :=
      updateSection_setXmlValues _ h2 hfile
    rwa [List.append_assoc, List.append_assoc] at hu
  unfold updateStatus
  simp only [ensureSections_present ht hsmart hfile hsurface]
  rw [updateSection_setXmlValue h1 hsmart, healthStatus_append hvitals,
    updateSection_setXmlValue h1 hdated]
  exact hfiles _ (by rw [setLeaf_fst, hdated])

end Sections

end DriveIntegrity.Status
