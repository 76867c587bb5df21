import DriveIntegrity.Library.XmlReread
import DriveIntegrity.Status.Report

/-! The figures of a check in the status document, whatever else the document holds. -/

namespace DriveIntegrity.Status

open Integrity (Text integrityGrade)
open XmlNode
  (selectSingleNode innerText editChild children_withChildren named_withChildren isText_withChildren
  not_text_of_named find?_editChild find?_editChild_other)

section Recorded

def documentValue (content name leaf : Text) : Option Text := rootValue (parseXml content) name leaf

def Recorded (status : Option Text) (filesChecked corruptFiles : ℕ) : Prop :=
  ∃ content ∈ status,
    documentValue content "FileIntegrityScan".toList "FilesChecked".toList =
      some (decimal filesChecked) ∧
    documentValue content "FileIntegrityScan".toList "CorruptFiles".toList =
      some (decimal corruptFiles) ∧
    (documentValue content "FileIntegrityScan".toList "IntegrityGrade".toList = some "Low".toList ↔
      0 < corruptFiles)

end Recorded

section Selected

variable {name other : Text} {root parent : XmlNode} {f : XmlNode → XmlNode}

lemma named_setXmlValue (leaf value : Text) (parent : XmlNode) (name : Text) :
    (setXmlValue leaf value parent).named name = parent.named name := by
  unfold setXmlValue
  split_ifs
  · exact named_withChildren _ _ _
  · exact named_withChildren _ _ _

lemma select_setXmlValue (h : parent.isText = false) (leaf value : Text) :
    (selectSingleNode (setXmlValue leaf value parent) leaf).map innerText = some value := by
  rw [setXmlValue]
  split_ifs with hn
  · rw [Option.isNone_iff_eq_none, selectSingleNode] at hn
    rw [selectSingleNode, children_withChildren h, List.find?_append, hn, Option.none_or,
      List.find?_cons_of_pos (by simp [XmlNode.named])]
    rfl
  · obtain ⟨c, hc⟩ :=
      Option.ne_none_iff_exists'.mp (fun he => hn (Option.isNone_iff_eq_none.mpr he))
    rw [selectSingleNode] at hc
    rw [selectSingleNode, children_withChildren h,
      find?_editChild (fun c n => named_withChildren c _ n), hc, Option.map_some, Option.map_some]
    have ht := not_text_of_named (List.find?_some hc)
    cases c with
    | text value => cases ht
    | emptyElement n => rfl
    | element n children => rfl

lemma select_setXmlValue_other (h : parent.isText = false) {leaf other : Text} (hne : other ≠ leaf)
    (value : Text) :
    selectSingleNode (setXmlValue leaf value parent) other = selectSingleNode parent other := by
  rw [setXmlValue]
  split_ifs
  · rw [selectSingleNode, children_withChildren h, List.find?_append, selectSingleNode,
      List.find?_cons_of_neg (by simpa [XmlNode.named] using Ne.symm hne), List.find?_nil,
      Option.or_none]
  · rw [selectSingleNode, children_withChildren h,
      find?_editChild_other (fun c n => named_withChildren c _ n) hne, selectSingleNode]

lemma select_updateSection (h : root.isText = false) (hf : ∀ c n, (f c).named n = c.named n)
    (name : Text) :
    selectSingleNode (updateSection root name f) name = (selectSingleNode root name).map f := by
  rw [updateSection, selectSingleNode, children_withChildren h, find?_editChild hf,
    selectSingleNode]

lemma select_updateSection_other (h : root.isText = false) (hf : ∀ c n, (f c).named n = c.named n)
    (hne : other ≠ name) :
    selectSingleNode (updateSection root name f) other = selectSingleNode root other := by
  rw [updateSection, selectSingleNode, children_withChildren h, find?_editChild_other hf hne,
    selectSingleNode]

lemma rootValue_updateSection (h : root.isText = false)
    (hs : (selectSingleNode root name).isSome = true) (leaf value : Text) :
    rootValue (some (updateSection root name (setXmlValue leaf value))) name leaf = some value := by
  obtain ⟨c, hc⟩ := Option.isSome_iff_exists.mp hs
  rw [rootValue, Option.bind_some, select_updateSection h (named_setXmlValue leaf value), hc,
    Option.map_some, Option.bind_some, select_setXmlValue (not_text_of_named (List.find?_some hc))]

lemma rootValue_updateSection_other (h : root.isText = false) {leaf other : Text}
    (hne : other ≠ leaf) (value : Text) :
    rootValue (some (updateSection root name (setXmlValue leaf value))) name other =
      rootValue (some root) name other := by
  rw [rootValue, Option.bind_some, select_updateSection h (named_setXmlValue leaf value), rootValue,
    Option.bind_some]
  cases hc : selectSingleNode root name with
  | none => rfl
  | some c =>
    rw [Option.map_some, Option.bind_some, Option.bind_some,
      select_setXmlValue_other (not_text_of_named (List.find?_some hc)) hne]

end Selected

section Kept

variable {name value : Text} {root parent : XmlNode}

lemma isText_setXmlValue (leaf value : Text) (parent : XmlNode) :
    (setXmlValue leaf value parent).isText = parent.isText := by
  unfold setXmlValue
  split_ifs
  · exact isText_withChildren _ _
  · exact isText_withChildren _ _

lemma wellFormed_setXmlValue (h : parent.WellFormed) {leaf : Text} (hleaf : isXmlName leaf = true)
    (hv : XmlText value) :
    (setXmlValue leaf value parent).WellFormed := by
  have hnodes := nodes_text hv
  unfold setXmlValue
  split_ifs
  · refine wellFormed_withChildren h
      ((nodes_children h).concat (.element hleaf hnodes.wellFormed hnodes.apart) ?_)
    exact fun _ _ hb => absurd hb.2 Bool.false_ne_true
  · refine wellFormed_withChildren h (nodes_editChild (nodes_children h) ?_ ?_ leaf)
    · exact fun c hc => wellFormed_withChildren hc hnodes
    · exact fun c => isText_withChildren c _

/-- A document that can be updated, with its section for the figures. -/
structure Updatable (root : XmlNode) : Prop where
  wellFormed : root.WellFormed
  element : root.isText = false

lemma Updatable.updateSection (h : Updatable root) {leaf : Text} (hleaf : isXmlName leaf = true)
    (hv : XmlText value)
    (name : Text) : Updatable (updateSection root name (setXmlValue leaf value)) where
  wellFormed := wellFormed_withChildren h.wellFormed (nodes_editChild (nodes_children h.wellFormed)
    (fun _ hc => wellFormed_setXmlValue hc hleaf hv) (isText_setXmlValue leaf value) name)
  element := (isText_withChildren _ _).trans h.element

lemma Updatable.ensureSection (h : Updatable root) (hname : isXmlName name = true) :
    Updatable (ensureSection root name) := by
  unfold Status.ensureSection
  split_ifs
  · refine ⟨wellFormed_withChildren h.wellFormed
      ((nodes_children h.wellFormed).concat (.emptyElement hname) ?_), ?_⟩
    · exact fun _ _ hb => absurd hb.2 Bool.false_ne_true
    · exact (isText_withChildren _ _).trans h.element
  · exact h

lemma Updatable.select_ensureSection (h : Updatable root) (name : Text) :
    (selectSingleNode (Status.ensureSection root name) name).isSome = true := by
  unfold Status.ensureSection
  split_ifs with hn
  · rw [selectSingleNode, children_withChildren h.element, List.find?_append, Option.isSome_or,
      List.find?_cons_of_pos (by simp [XmlNode.named]), Option.isSome_some, Bool.or_true]
  · exact Option.isSome_iff_ne_none.mpr (fun he => hn (Option.isNone_iff_eq_none.mpr he))

lemma Updatable.select_ensureSection_other (h : Updatable root) {other : Text}
    (hs : (selectSingleNode root other).isSome = true)
    (name : Text) : (selectSingleNode (Status.ensureSection root name) other).isSome = true := by
  unfold Status.ensureSection
  split_ifs
  · rw [selectSingleNode] at hs
    rw [selectSingleNode, children_withChildren h.element, List.find?_append, Option.isSome_or,
      hs, Bool.true_or]
  · exact hs

lemma xmlText_healthStatus (h : Updatable root) : XmlText (healthStatus root) := by
  have hselect : ∀ {node c : XmlNode} {name : Text}, node.WellFormed →
      selectSingleNode node name = some c → c.WellFormed :=
    fun hn hc => (nodes_children hn).wellFormed _ (List.mem_of_find?_eq_some hc)
  unfold healthStatus
  cases hv : selectSingleNode root "HardwareVitals".toList with
  | none => exact (by decide : ∀ c ∈ "PASSED".toList, isXmlChar c = true)
  | some vitals =>
    simp only
    cases hr : selectSingleNode vitals "HealthRating".toList with
    | none => exact fun _ hc => absurd hc List.not_mem_nil
    | some rating => exact xmlText_innerText (hselect (hselect h.wellFormed hv) hr)

lemma innerText_reread {node c : XmlNode} (hv : node.innerText = value) (hp : PlainText value)
    (hb : value.all isXmlSpace = false) (hc : node.reread = [c]) : c.innerText = value := by
  have hne : value ≠ [] := by
    rintro rfl
    cases hb
  unfold innerText at hv
  split at hv
  · next name t =>
    subst hv
    have hreread : (XmlNode.element name [.text t]).reread = [.element name [.text t]] := by
      rw [XmlNode.reread, rereadNodes, rereadNodes, XmlNode.reread, hb, normalizeNewlines_plain hp]
      rfl
    rw [hreread] at hc
    rw [← (List.cons.inj hc).1]
    rfl
  · exact absurd hv.symm hne

lemma rootValue_saved (h : Updatable root) {name leaf : Text}
    (hv : rootValue (some root) name leaf = some value) (hp : IsValue value) :
    documentValue (saveXml root) name leaf = some value := by
  have hreread : ∀ {node c : XmlNode} {name : Text}, selectSingleNode node name = some c → ∀ d,
      node.reread = [d] →
      ∃ e, c.reread = [e] ∧ selectSingleNode d name = some e := by
    intro node c name hc d hd
    obtain ⟨e, he, _⟩ := named_reread (List.find?_some hc)
    refine ⟨e, he, ?_⟩
    cases node with
    | text value => cases hc
    | emptyElement n => cases hc
    | element n children =>
      obtain rfl := (List.cons.inj hd).1
      have hfind : (rereadNodes children).find? (XmlNode.named name) = some e := by
        rw [find?_rereadNodes, show children.find? (XmlNode.named name) = some c from hc,
          Option.bind_some, he]
        rfl
      exact hfind
  rw [rootValue, Option.bind_some] at hv
  obtain ⟨l, hl, rfl⟩ := Option.map_eq_some_iff.mp hv
  obtain ⟨s, hs, hl⟩ := Option.bind_eq_some_iff.mp hl
  obtain ⟨d, hd⟩ : ∃ d, root.reread = [d] ∧ d.isText = false := by
    have ht := h.element
    cases root with
    | text value => cases ht
    | emptyElement n => exact ⟨_, rfl, rfl⟩
    | element n children => exact ⟨_, rfl, rfl⟩
  obtain ⟨s', hs', hsel⟩ := hreread hs d hd.1
  obtain ⟨l', hl', hsel'⟩ := hreread hl s' hs'
  have hparse : parseXml (saveXml root) = some d := by
    rw [parseXml_saveXml h.wellFormed h.element, hd.1]
    cases d with
    | text value => cases hd.2
    | emptyElement n => rfl
    | element n children => rfl
  have hinner : l'.innerText = l.innerText := innerText_reread rfl hp.plain hp.not_blank hl'
  rw [documentValue, hparse, rootValue, Option.bind_some, hsel, Option.bind_some, hsel',
    Option.map_some, hinner]

end Kept

section Saved

def fileTag : Text := "FileIntegrityScan".toList

/-- The document has the section for the figures. -/
structure HasFigures (root : XmlNode) : Prop extends Updatable root where
  section_present : (selectSingleNode root fileTag).isSome = true

variable {root : XmlNode} {value : Text}

lemma HasFigures.updateSection (h : HasFigures root) (name : Text) {leaf : Text}
    (hleaf : isXmlName leaf = true) (hv : XmlText value) :
    HasFigures (updateSection root name (setXmlValue leaf value)) where
  toUpdatable := h.toUpdatable.updateSection hleaf hv name
  section_present := by
    by_cases hn : fileTag = name
    · subst hn
      rw [select_updateSection h.element (named_setXmlValue leaf value), Option.isSome_map]
      exact h.section_present
    · rw [select_updateSection_other h.element (named_setXmlValue leaf value) hn]
      exact h.section_present

lemma Updatable.hasFigures (h : Updatable root) :
    HasFigures
      (["SmartHealthStatus".toList, fileTag, "SurfaceScanInfo".toList].foldl
        Status.ensureSection root) := by
  have h1 : Updatable (Status.ensureSection root "SmartHealthStatus".toList) :=
    h.ensureSection (by decide)
  have h2 :
      Updatable
        (Status.ensureSection (Status.ensureSection root "SmartHealthStatus".toList) fileTag) :=
    h1.ensureSection (by decide)
  exact ⟨h2.ensureSection (by decide),
    h2.select_ensureSection_other (h1.select_ensureSection fileTag) _⟩

lemma filesChecked_name : isXmlName "FilesChecked".toList = true := by decide

lemma corruptFiles_name : isXmlName "CorruptFiles".toList = true := by decide

lemma integrityGrade_name : isXmlName "IntegrityGrade".toList = true := by decide

lemma xmlText_value (h : IsValue value) : XmlText value := fun c hc => (h.plain c hc).1

lemma isValue_integrityGrade (corList : List Text) : IsValue (integrityGrade corList) := by
  unfold integrityGrade
  split_ifs <;> decide

lemma recorded_saved (h : Updatable root) (now : LocalTime) (filesChecked : ℕ)
    (corList : List Text) :
    Recorded (some (saveXml (updateStatus now filesChecked corList root))) filesChecked
      corList.length := by
  have hfound := h.hasFigures
  unfold updateStatus
  simp only
  change HasFigures
    (["SmartHealthStatus".toList, "FileIntegrityScan".toList, "SurfaceScanInfo".toList].foldl
    ensureSection root) at hfound
  generalize ["SmartHealthStatus".toList, "FileIntegrityScan".toList,
    "SurfaceScanInfo".toList].foldl
    ensureSection root = found at hfound ⊢
  have hdated := hfound.updateSection "SmartHealthStatus".toList lastScanDate_name
    (xmlText_value (isValue_time now))
  generalize updateSection found _ _ = dated at hdated ⊢
  have hrated := hdated.updateSection "SmartHealthStatus".toList healthStatus_name
    (xmlText_healthStatus hdated.toUpdatable)
  generalize updateSection dated _ (setXmlValue _ (healthStatus dated)) = rated at hrated ⊢
  have h1 := hrated.updateSection fileTag lastScanDate_name (xmlText_value (isValue_time now))
  have h2 :=
    h1.updateSection fileTag filesChecked_name (xmlText_value (isValue_decimal filesChecked))
  have h3 :=
    h2.updateSection fileTag corruptFiles_name (xmlText_value (isValue_decimal corList.length))
  have h4 :=
    h3.updateSection fileTag integrityGrade_name (xmlText_value (isValue_integrityGrade corList))
  -- each leaf is set once, and kept by the updates after it
  have hvalue : ∀ leaf value, IsValue value → rootValue (some _) fileTag leaf = some value →
      documentValue (saveXml _) fileTag leaf = some value := fun _ _ hp hv =>
        rootValue_saved h4.toUpdatable hv hp
  refine ⟨_, rfl, ?_, ?_, ?_⟩
  · refine hvalue _ _ (isValue_decimal filesChecked) ?_
    rw [rootValue_updateSection_other h3.element (by decide),
      rootValue_updateSection_other h2.element (by decide),
      rootValue_updateSection h1.element h1.section_present]
  · refine hvalue _ _ (isValue_decimal corList.length) ?_
    rw [rootValue_updateSection_other h3.element (by decide),
      rootValue_updateSection h2.element h2.section_present]
  · have hg := hvalue _ _ (isValue_integrityGrade corList)
      (rootValue_updateSection h3.element h3.section_present "IntegrityGrade".toList
        (integrityGrade corList))
    have hgrade : ∀ t : Text,
        documentValue t fileTag "IntegrityGrade".toList = some (integrityGrade corList) →
        (documentValue t "FileIntegrityScan".toList "IntegrityGrade".toList = some "Low".toList ↔
          0 < corList.length) := by
      intro t ht
      change documentValue t fileTag _ = _ ↔ _
      rw [ht, Option.some.injEq, Integrity.integrityGrade_low_iff]
    exact hgrade _ hg

end Saved

end DriveIntegrity.Status
