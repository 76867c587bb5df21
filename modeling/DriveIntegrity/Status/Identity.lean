import DriveIntegrity.Status.Escape

/-! Reading back the model and the serial number that `deviceinfo` writes. -/

namespace DriveIntegrity.Status

open Integrity (Text)
open XmlNode (selectSingleNode innerText named)

section Lines

variable {stack : List (Text × List XmlNode)} {children : List XmlNode} {tag : Text}

lemma notMem_xmlEscape {c : Char} {t : Text} (hc : c ∉ "&amp;".toList) (h : c ∉ t) :
    c ∉ xmlEscape t := by
  intro hm
  obtain ⟨d, hd, hcd⟩ := List.mem_flatMap.mp hm
  split_ifs at hcd
  · exact hc hcd
  · exact h (List.mem_singleton.mp hcd ▸ hd)

lemma parseFrom_leafLine_markup (hn : isXmlName tag = true) {v t : Text} (hp : PrintableText v)
    (hv : '<' ∈ v)
    {nodes : List XmlNode}
    (h : parseFrom stack children [] (leafLine tag (xmlEscape v) ++ t) = some nodes) :
    ∃ kids, '<' ∉ innerText (.element tag kids) ∧
      Completes stack (children ++ [.element tag kids]) nodes := by
  -- Comments, CDATA sections and attributes do not parse here; the first `<` would be lost to one
  -- of them as well.
  obtain ⟨p, q, rfl, hfirst⟩ := List.eq_append_cons_of_mem hv
  have hsplit : xmlEscape (p ++ '<' :: q) = xmlEscape p ++ '<' :: xmlEscape q := by
    rw [xmlEscape_append, xmlEscape_cons]
    rfl
  have hnone : '<' ∉ ([] : Text) := List.not_mem_nil
  rw [parseFrom_leafLine hn, hsplit, List.append_assoc, List.cons_append,
    parseFrom_chars (notMem_xmlEscape (by decide) hfirst), List.nil_append] at h
  obtain ⟨read, hread, hnodes⟩ := parseFrom_markup h
  rw [charsNode_xmlEscape (fun c hc => hp c (List.mem_append_left _ hc))] at hread
  have hcases : read = [] ∨ read = [.text p] := by
    split_ifs at hread
    · exact Or.inl (Option.some.inj hread).symm
    · exact Or.inr (Option.some.inj hread).symm
  rcases hnodes with ⟨node, hmarkup, more, hmore⟩ | ⟨name, outer, below, hstack, hbelow⟩
  · refine ⟨[] ++ read ++ [node] ++ more, ?_, hmore⟩
    have hempty : innerText (.element tag ([] ++ read ++ [node] ++ more)) = [] := by
      rcases hcases with rfl | rfl
      · cases node with
        | text value => exact hmarkup.elim
        | element name kids => rfl
        | emptyElement name => rfl
      · rfl
    rw [hempty]
    exact hnone
  · obtain ⟨he, rfl⟩ := List.cons_eq_cons.mp hstack
    obtain ⟨rfl, rfl⟩ := Prod.mk.injEq _ _ _ _ ▸ he
    refine ⟨read, ?_, hbelow⟩
    rcases hcases with rfl | rfl
    · exact hnone
    · exact hfirst

end Lines

section Document

def identityName : Text := "HardwareIdentity".toList

lemma identityName_valid : isXmlName identityName = true := by decide

lemma metadata_name : isXmlName "Metadata".toList = true := by decide

lemma lastHardwareProbe_name : isXmlName "LastHardwareProbe".toList = true := by decide

def metadata (now : LocalTime) : Section where
  tag := "Metadata".toList
  leaves :=
    [valueLeaf "LastHardwareProbe".toList lastHardwareProbe_name ⟨now.text, isValue_time now⟩]
  name := metadata_name

def metadataDom (now : LocalTime) : DomSection :=
  ("Metadata".toList, [("LastHardwareProbe".toList, [.text now.text])])

lemma metadata_dom (now : LocalTime) : (metadata now).dom = some (metadataDom now) := by
  have hvalue : charsNode now.text = some [.text now.text] :=
    charsNode_value ⟨now.text, isValue_time now⟩
  change (List.mapM Leaf.dom [valueLeaf _ _ _]).map _ = _
  rw [List.mapM_cons, Leaf.dom, valueLeaf]
  simp only [hvalue]
  rfl

def identityStart (now : LocalTime) : Text :=
  rootOpen ++ (metadata now).render ++ openLine identityName

lemma identityStart_eq (now : LocalTime) :
    identityStart now =
      rootOpen ++ openLine "Metadata".toList ++ leafLine "LastHardwareProbe".toList now.text ++
      closeLine "Metadata".toList ++ openLine "HardwareIdentity".toList := by
  have hleaf :
      (metadata now).leaves.flatMap Leaf.render = leafLine "LastHardwareProbe".toList now.text :=
    List.append_nil _
  rw [identityStart, Section.render_lines, hleaf]
  simp only [List.append_assoc]
  rfl

def identityEnd (stats : DriveStats) (existingContent : Text) : Text :=
  leafLine "Interface".toList stats.interface ++
    leafLine "Technology".toList stats.tech ++
    leafLine "FileSystem".toList stats.fsType ++
    closeLine "HardwareIdentity".toList ++
    openLine "StorageCapacity".toList ++
    leafLine "TotalGB".toList stats.totalGB ++
    leafLine "UsedGB".toList stats.usedGB ++
    leafLine "FreeGB".toList stats.freeGB ++
    closeLine "StorageCapacity".toList ++
    openLine "HardwareVitals".toList ++
    leafLine "PowerOnHours".toList stats.hours ++
    leafLine "Temperature".toList stats.temp ++
    leafLine "ReallocatedSectors".toList stats.reallocated ++
    leafLine "HealthRating".toList stats.health ++
    closeLine "HardwareVitals".toList ++
    openLine "Policy".toList ++
    leafLine "StressTestAllowed".toList
      (if stats.isSystemDrive then "False".toList else "True".toList) ++
    leafLine "Notes".toList
      (if stats.isSystemDrive then "System Drive Protection Active".toList else
        "Standard Drive".toList) ++
    closeLine "Policy".toList ++
    (if stats.health = "N/A".toList then
      openLine "SmartHealthStatus".toList ++ leafLine "SmartStatus".toList "N/A".toList ++
        closeLine "SmartHealthStatus".toList
    else copyBlock existingContent "SmartHealthStatus".toList) ++
    copyBlock existingContent "FileIntegrityScan".toList ++
    copyBlock existingContent "SurfaceScanInfo".toList ++
    rootClose

lemma deviceinfo_identity (now : LocalTime) (stats : DriveStats) (content : Text) :
    deviceinfo now stats content =
      identityStart now ++ (leafLine "Model".toList (xmlEscape stats.model) ++
        (leafLine "Serial".toList (xmlEscape stats.serial) ++ identityEnd stats content)) := by
  unfold deviceinfo identityEnd
  rw [identityStart_eq]
  simp only [List.append_assoc]

lemma startsTag_identityEnd (stats : DriveStats) (content : Text) :
    StartsTag (identityEnd stats content) := by
  unfold identityEnd
  simp only [List.append_assoc]
  exact startsTag_leafLine _ _ _

/-- The elements that are open when the identity's first leaf begins. -/
def identityStack (now : LocalTime) : List (Text × List XmlNode) :=
  [(identityName, [sectionNode (metadataDom now)]), (rootName, [])]

lemma parseFrom_identityStart (now : LocalTime) {t : Text} (ht : StartsTag t) :
    parseFrom [] [] [] (identityStart now ++ t) = parseFrom (identityStack now) [] [] t := by
  have hroot : rootOpen = marker rootName ++ ['\n'] := by decide
  have hstart :
      identityStart now ++ t = '<' :: rootName ++ '>' :: (['\n'] ++ ((metadata now).render ++
      ("  ".toList ++ ('<' :: identityName ++ '>' :: (['\n'] ++ t))))) := by
    rw [identityStart, hroot, openLine]
    simp [marker]
  have hopen : StartsTag ('<' :: identityName ++ '>' :: (['\n'] ++ t)) :=
    ⟨[], _, rfl, by decide, rfl⟩
  have hblank : StartsTag ("  ".toList ++ ('<' :: identityName ++ '>' :: (['\n'] ++ t))) :=
    startsTag_append hopen (by decide) (by decide)
  rw [hstart, parseFrom_open rootName_valid, charsNode_space (by rfl), Option.bind_some,
    parseFrom_blank (startsTag_section _ _) (by decide) (by decide), parseFrom_section _ hblank,
    metadata_dom, Option.bind_some, parseFrom_blank hopen (by decide) (by decide),
    parseFrom_open identityName_valid, charsNode_space (by rfl), Option.bind_some,
    parseFrom_blank ht (by decide) (by decide)]
  rfl

lemma parseXml_deviceinfo (now : LocalTime) (stats : DriveStats) (content : Text) :
    parseXml (deviceinfo now stats content) =
      (parseFrom (identityStack now) [] [] (leafLine "Model".toList (xmlEscape stats.model) ++
        (leafLine "Serial".toList (xmlEscape stats.serial) ++ identityEnd stats content))).bind
          rootOf := by
  rw [deviceinfo_identity, ← parseFrom_identityStart now (startsTag_leafLine _ _ _)]
  rfl

end Document

section ReadBack

def identityText (root : XmlNode) (tag : Text) : Option Text :=
  ((selectSingleNode root identityName).bind (fun identity => selectSingleNode identity tag)).map
    innerText

/-- The text of a leaf of the hardware identity, none if the document is not well-formed. -/
def readBack (document tag : Text) : Option Text :=
  (parseXml document).bind (fun root => identityText root tag)

variable {now : LocalTime} {children nodes : List XmlNode} {root : XmlNode}

lemma nodes_of_completes (h : Completes (identityStack now) children nodes) :
    ∃ more rest top, nodes = .element rootName
      (sectionNode (metadataDom now) :: .element identityName (children ++ more) :: rest) ::
        top := by
  obtain ⟨more, rest, top, h⟩ := h
  exact ⟨more, rest, top, h⟩

lemma rootOf_cons {name : Text} {kids top : List XmlNode}
    (h : rootOf (.element name kids :: top) = some root) :
    root = .element name kids := by
  cases top with
  | nil => exact (Option.some.inj h).symm
  | cons node top => cases h

lemma identityText_of_completes {before : List XmlNode} {tag : Text} {kids : List XmlNode}
    (h : Completes (identityStack now) (before ++ [.element tag kids]) nodes)
    (hroot : rootOf nodes = some root)
    (hbefore : ∀ c ∈ before, c.named tag = false) :
    identityText root tag = some (innerText (.element tag kids)) := by
  obtain ⟨more, rest, top, rfl⟩ := nodes_of_completes h
  have hmetadata : ∀ c ∈ [sectionNode (metadataDom now)], named identityName c = false :=
    List.forall_mem_singleton.mpr rfl
  have hidentity : selectSingleNode (.element rootName ([sectionNode (metadataDom now)] ++
      .element identityName (before ++ [.element tag kids] ++ more) :: rest)) identityName =
      some (.element identityName (before ++ [.element tag kids] ++ more)) :=
    XmlNode.selectSingleNode_append hmetadata rfl
  rw [List.singleton_append] at hidentity
  have hleaf : named tag (.element tag kids) = true := decide_eq_true rfl
  rw [rootOf_cons hroot, identityText, hidentity, Option.bind_some, List.append_assoc,
    List.singleton_append, XmlNode.selectSingleNode_append hbefore hleaf]
  rfl

variable {before : List XmlNode} {tag v t : Text}

lemma survives_of_read (hn : isXmlName tag = true) (hp : PrintableText v) (ht : StartsTag t)
    (hbefore : ∀ c ∈ before, c.named tag = false)
    (h : parseFrom (identityStack now) before [] (leafLine tag (xmlEscape v) ++ t) = some nodes)
    (hroot : rootOf nodes = some root) (hread : identityText root tag = some v) : Survives v := by
  by_cases hv : '<' ∈ v
  · obtain ⟨kids, hlost, hkids⟩ := parseFrom_leafLine_markup hn hp hv h
    have htext := identityText_of_completes hkids hroot hbefore
    rw [Option.some.inj (htext.symm.trans hread)] at hlost
    exact absurd hv hlost
  · rw [parseFrom_leafLine_chars hn (notMem_xmlEscape (by decide) hv) ht] at h
    obtain ⟨kids, hkids, hrest⟩ := Option.bind_eq_some_iff.mp h
    have htext := identityText_of_completes (parseFrom_completes hrest) hroot hbefore
    exact hp.survives hv hkids (Option.some.inj (htext.symm.trans hread))

lemma parseFrom_survives (hn : isXmlName tag = true) (hs : Survives v) (hp : PrintableText v)
    (ht : StartsTag t) :
    parseFrom (identityStack now) before [] (leafLine tag (xmlEscape v) ++ t) =
      parseFrom (identityStack now) (before ++ [.element tag (textNodes v)]) [] t := by
  rw [parseFrom_leafLine_chars hn (notMem_xmlEscape (by decide) hs.1) ht, hs.read hp,
    Option.bind_some]

lemma closes_iff : ((parseFrom (identityStack now) children [] t).bind rootOf).isSome = true ↔
    (parseFrom (identityStack now) children [] t).map List.length = some 1 := by
  cases h : parseFrom (identityStack now) children [] t with
  | none => exact iff_of_false Bool.false_ne_true (Option.some_ne_none _ ∘ Eq.symm)
  | some nodes =>
    obtain ⟨more, rest, top, rfl⟩ := nodes_of_completes (parseFrom_completes h)
    cases top with
    | nil => exact iff_of_true rfl rfl
    | cons node top =>
      apply iff_of_false Bool.false_ne_true
      rw [Option.map_some, List.length_cons, List.length_cons, Option.some.injEq]
      omega

def identityLeaves (model serial : Text) : List XmlNode :=
  [.element "Model".toList (textNodes model), .element "Serial".toList (textNodes serial)]

variable {stats : DriveStats} {content : Text}

lemma parseXml_survives (hm : PrintableText stats.model) (hs : PrintableText stats.serial)
    (hms : Survives stats.model) (hss : Survives stats.serial) :
    parseXml (deviceinfo now stats content) =
      (parseFrom (identityStack now) (identityLeaves stats.model stats.serial) []
        (identityEnd stats content)).bind
        rootOf := by
  rw [parseXml_deviceinfo, parseFrom_survives (by decide) hms hm (startsTag_leafLine _ _ _),
    parseFrom_survives (by decide) hss hs (startsTag_identityEnd _ _)]
  rfl

def DriveStats.anonymous (s : DriveStats) : DriveStats := { s with model := [], serial := [] }

lemma identityEnd_anonymous (stats : DriveStats) (content : Text) :
    identityEnd stats.anonymous content = identityEnd stats content := by
  unfold identityEnd DriveStats.anonymous
  rfl

lemma readBack_iff (hm : PrintableText stats.model) (hs : PrintableText stats.serial) :
    readBack (deviceinfo now stats content) "Model".toList = some stats.model ∧
        readBack (deviceinfo now stats content) "Serial".toList = some stats.serial ↔
      Survives stats.model ∧ Survives stats.serial ∧
        (parseXml (deviceinfo now stats.anonymous content)).isSome = true := by
  have hempty : PrintableText [] ∧ Survives [] := by decide
  have hanonymous : parseXml (deviceinfo now stats.anonymous content) =
      (parseFrom (identityStack now)
        (identityLeaves stats.anonymous.model stats.anonymous.serial) []
        (identityEnd stats.anonymous content)).bind rootOf :=
    parseXml_survives hempty.1 hempty.1 hempty.2 hempty.2
  have hrest : (parseXml (deviceinfo now stats.anonymous content)).isSome = true ↔
      ((parseFrom (identityStack now) (identityLeaves stats.model stats.serial) []
        (identityEnd stats content)).bind rootOf).isSome = true := by
    rw [hanonymous, identityEnd_anonymous, closes_iff, closes_iff]
    have hlength : (identityLeaves stats.anonymous.model stats.anonymous.serial).length =
        (identityLeaves stats.model stats.serial).length := rfl
    rw [parseFrom_length (Eq.refl _) hlength]
  rw [hrest]
  constructor
  · rintro ⟨hmodel, hserial⟩
    obtain ⟨root, hroot, hmodel⟩ := Option.bind_eq_some_iff.mp hmodel
    rw [readBack, hroot, Option.bind_some] at hserial
    rw [parseXml_deviceinfo] at hroot
    obtain ⟨nodes, hnodes, hroot⟩ := Option.bind_eq_some_iff.mp hroot
    have hms : Survives stats.model :=
      survives_of_read (by decide) hm (startsTag_leafLine _ _ _)
        (fun c hc => absurd hc List.not_mem_nil) hnodes hroot
        hmodel
    rw [parseFrom_survives (by decide) hms hm (startsTag_leafLine _ _ _)] at hnodes
    have hss : Survives stats.serial :=
      survives_of_read (by decide) hs (startsTag_identityEnd _ _)
        (List.forall_mem_singleton.mpr rfl) hnodes hroot
        hserial
    rw [parseFrom_survives (by decide) hss hs (startsTag_identityEnd _ _)] at hnodes
    refine ⟨hms, hss, ?_⟩
    have hleaves : parseFrom (identityStack now) (identityLeaves stats.model stats.serial) []
        (identityEnd stats content) = some nodes := hnodes
    rw [hleaves, Option.bind_some, hroot]
    rfl
  · rintro ⟨hms, hss, hclosed⟩
    obtain ⟨root, hroot⟩ := Option.isSome_iff_exists.mp hclosed
    have hparsed : parseXml (deviceinfo now stats content) =
        (parseFrom (identityStack now) (identityLeaves stats.model stats.serial) []
          (identityEnd stats content)).bind rootOf := parseXml_survives hm hs hms hss
    rw [readBack, readBack, hparsed, hroot, Option.bind_some, Option.bind_some]
    obtain ⟨nodes, hnodes, hroot⟩ := Option.bind_eq_some_iff.mp hroot
    have hserial : Completes (identityStack now)
        ([.element "Model".toList (textNodes stats.model)] ++
          [.element "Serial".toList (textNodes stats.serial)])
        nodes := parseFrom_completes hnodes
    have hmodel : Completes (identityStack now)
        ([] ++ [.element "Model".toList (textNodes stats.model)]) nodes :=
      hserial.mono
    rw [identityText_of_completes hmodel hroot (fun c hc => absurd hc List.not_mem_nil),
      identityText_of_completes hserial hroot (List.forall_mem_singleton.mpr rfl),
      innerText_textNodes, innerText_textNodes]
    exact ⟨rfl, rfl⟩

end ReadBack

section Rest

/-- The block of the name that is kept from the old file can be read, or there is none. -/
def Intact (content tag : Text) : Prop :=
  ∃ kept : List Section, copyBlock content tag = kept.flatMap Section.render ∧ ∀ s ∈ kept,
  s.dom.isSome = true

def keptTags : List Text :=
  ["SmartHealthStatus".toList, "FileIntegrityScan".toList, "SurfaceScanInfo".toList]

variable {stats : DriveStats} {content : Text}

lemma anonymous_isSome_iff (now : LocalTime) (hclean : stats.anonymous.Clean)
    (hkept : ∀ tag ∈ keptTags, Intact content tag) :
    (parseXml (deviceinfo now stats.anonymous content)).isSome = true ↔
      stats.anonymous.Readable := by
  simp only [keptTags, List.forall_mem_cons] at hkept
  obtain ⟨⟨smart, hsmart, hsmartDom⟩, ⟨file, hfile, hfileDom⟩,
      ⟨surface, hsurface, hsurfaceDom⟩, -⟩ := hkept
  have hfirst : ∃ first : List Section, (if stats.anonymous.health = "N/A".toList then
        openLine "SmartHealthStatus".toList ++ leafLine "SmartStatus".toList "N/A".toList ++
          closeLine "SmartHealthStatus".toList
        else copyBlock content "SmartHealthStatus".toList) = first.flatMap Section.render ∧
      ∀ s ∈ first, s.dom.isSome = true := by
    split_ifs
    · refine ⟨[smartSection none], ?_, List.forall_mem_singleton.mpr rfl⟩
      rw [← smartSection_none, List.flatMap_cons, List.flatMap_nil, List.append_nil]
    · exact ⟨smart, hsmart, hsmartDom⟩
  obtain ⟨first, hfirst, hfirstDom⟩ := hfirst
  have hdocument : deviceinfo now stats.anonymous content =
      renderStatus
        (probeSections now stats.anonymous hclean ++ (first ++ file ++ surface)) ['\n'] := by
    apply deviceinfo_sections
    rw [hfirst, hfile, hsurface, List.flatMap_append, List.flatMap_append]
  rw [hdocument, parseXml_renderStatus _ (by decide) (by decide), Option.isSome_map, mapM_isSome,
    ← probeSections_isSome now stats.anonymous hclean, mapM_isSome, List.forall_mem_append]
  apply and_iff_left
  simp only [List.forall_mem_append]
  exact ⟨⟨hfirstDom, hfileDom⟩, hsurfaceDom⟩

end Rest

end DriveIntegrity.Status
