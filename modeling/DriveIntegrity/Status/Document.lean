import DriveIntegrity.Status.Layout

/-! Reading the status file as XML, and writing it back. -/

namespace DriveIntegrity.Status

open Integrity (Text)

section Parse

/-- Blank text up to the next tag. -/
def StartsTag (t : Text) : Prop := ∃ w r, w.all isXmlSpace = true ∧ NoAngle w ∧ t = w ++ '<' :: r

lemma startsTag_append {t : Text} (h : StartsTag t) {w : Text} (hw : w.all isXmlSpace = true)
    (hn : NoAngle w) :
    StartsTag (w ++ t) := by
  obtain ⟨v, r, hv, hvn, rfl⟩ := h
  refine ⟨w ++ v, r, by simp [List.all_append, hw, hv], noAngle_append.mpr ⟨hn, hvn⟩, ?_⟩
  rw [List.append_assoc]

variable {stack : List (Text × List XmlNode)} {children : List XmlNode}

lemma parseFrom_angle {current : Text} (h : current.all isXmlSpace = true) (r : Text) :
    parseFrom stack children current ('<' :: r) = parseFrom stack children [] ('<' :: r) := by
  simp only [parseFrom, scan, Bool.false_eq_true, if_false, if_true]
  cases scan true [] r with
  | none => rfl
  | some ts =>
    rw [Option.map_some, Option.map_some, Option.bind_some, Option.bind_some,
      build_chars, build_chars, charsNode_space h, charsNode_space (by rfl)]

lemma parseFrom_blank {w t : Text} (h : StartsTag t) (hw : w.all isXmlSpace = true)
    (hn : NoAngle w) :
    parseFrom stack children [] (w ++ t) = parseFrom stack children [] t := by
  obtain ⟨v, r, hv, hvn, rfl⟩ := h
  rw [← List.append_assoc, parseFrom_text (noAngle_append.mpr ⟨hn, hvn⟩), parseFrom_text hvn,
    List.nil_append,
    List.nil_append, parseFrom_angle (by simp [List.all_append, hw, hv]), parseFrom_angle hv]

variable {tag : Text}

lemma startsTag_leafLine (tag raw t : Text) : StartsTag (leafLine tag raw ++ t) :=
  ⟨"    ".toList, tag ++ ['>'] ++ raw ++ marker ('/' :: tag) ++ ['\n'] ++ t, by decide, by decide,
    by
      unfold leafLine
      simp [marker]⟩

lemma parseFrom_leafLine (hn : isXmlName tag = true) (raw t : Text) :
    parseFrom stack children [] (leafLine tag raw ++ t) =
      parseFrom ((tag, children) :: stack) [] []
        (raw ++ ('<' :: '/' :: tag ++ '>' :: ('\n' :: t))) := by
  have hline : leafLine tag raw ++ t = "    ".toList ++
      ('<' :: tag ++ '>' :: (raw ++ ('<' :: '/' :: tag ++ '>' :: ('\n' :: t)))) := by
    unfold leafLine
    simp [marker]
  have hopen :
      StartsTag ('<' :: tag ++ '>' :: (raw ++ ('<' :: '/' :: tag ++ '>' :: ('\n' :: t)))) :=
    ⟨[], _, rfl, by decide, rfl⟩
  rw [hline, parseFrom_blank hopen (by decide) (by decide), parseFrom_open hn,
    charsNode_space (by rfl), Option.bind_some, List.append_nil]

lemma parseFrom_leafLine_chars (hn : isXmlName tag = true) {raw t : Text} (hraw : '<' ∉ raw)
    (ht : StartsTag t) :
    parseFrom stack children [] (leafLine tag raw ++ t) =
      (charsNode raw).bind
        (fun nodes => parseFrom stack (children ++ [.element tag nodes]) [] t) := by
  rw [parseFrom_leafLine hn, parseFrom_chars hraw, List.nil_append, parseFrom_close hn]
  cases charsNode raw with
  | none => rfl
  | some nodes =>
    have hblank : parseFrom stack (children ++ [.element tag ([] ++ nodes)]) [] (['\n'] ++ t) =
        parseFrom stack (children ++ [.element tag ([] ++ nodes)]) [] t :=
      parseFrom_blank ht (by decide) (by decide)
    exact hblank

/-- The tag and content of the element a leaf is read as. -/
def Leaf.dom (l : Leaf) : Option (Text × List XmlNode) :=
  (charsNode l.raw).map (fun nodes => (l.tag, nodes))

abbrev DomSection := Text × List (Text × List XmlNode)

def Section.dom (s : Section) : Option DomSection :=
  (s.leaves.mapM Leaf.dom).map (fun leaves => (s.tag, leaves))

def leafNode (e : Text × List XmlNode) : XmlNode := .element e.1 e.2

def sectionNode (d : DomSection) : XmlNode := .element d.1 (d.2.map leafNode)

lemma startsTag_leaf (l : Leaf) (t : Text) : StartsTag (l.render ++ t) :=
  startsTag_leafLine l.tag l.raw t

lemma startsTag_leaves (leaves : List Leaf) {t : Text} (h : StartsTag t) :
    StartsTag (leaves.flatMap Leaf.render ++ t) := by
  cases leaves with
  | nil => exact h
  | cons l leaves =>
    rw [List.flatMap_cons, List.append_assoc]
    exact startsTag_leaf l _

lemma startsTag_section (s : Section) (t : Text) : StartsTag (s.render ++ t) :=
  ⟨"  ".toList, s.tag ++ ['>'] ++ s.body ++ marker ('/' :: s.tag) ++ ['\n'] ++ t,
    by decide, by decide,
    by simp [Section.render, Section.block, marker]⟩

lemma startsTag_sections (sections : List Section) {t : Text} (h : StartsTag t) :
    StartsTag (sections.flatMap Section.render ++ t) := by
  cases sections with
  | nil => exact h
  | cons s sections =>
    rw [List.flatMap_cons, List.append_assoc]
    exact startsTag_section s _

lemma parseFrom_leaf (l : Leaf) {t : Text} (h : StartsTag t) :
    parseFrom stack children [] (l.render ++ t) =
      l.dom.bind (fun e => parseFrom stack (children ++ [leafNode e]) [] t) := by
  rw [Leaf.render, parseFrom_leafLine_chars l.name l.clean.notMem h, Leaf.dom]
  cases charsNode l.raw <;> rfl

lemma parseFrom_leaves (leaves : List Leaf) {t : Text} (h : StartsTag t) :
    parseFrom stack children [] (leaves.flatMap Leaf.render ++ t) =
      (leaves.mapM Leaf.dom).bind
        (fun es => parseFrom stack (children ++ es.map leafNode) [] t) := by
  induction leaves generalizing children with
  | nil => simp
  | cons l leaves ih =>
    rw [List.flatMap_cons, List.append_assoc, parseFrom_leaf l (startsTag_leaves leaves h),
      List.mapM_cons]
    cases l.dom with
    | none => rfl
    | some e =>
      rw [Option.bind_some, ih]
      cases leaves.mapM Leaf.dom with
      | none => rfl
      | some es =>
        change parseFrom _ _ _ _ = parseFrom _ _ _ _
        rw [List.append_assoc]
        rfl

lemma parseFrom_section (s : Section) {t : Text} (h : StartsTag t) :
    parseFrom stack children [] (s.render ++ t) =
      s.dom.bind (fun d => parseFrom stack (children ++ [sectionNode d]) [] t) := by
  have hr : s.render ++ t =
      "  ".toList ++ ('<' :: s.tag ++ '>' :: (['\n'] ++ (s.leaves.flatMap Leaf.render ++
      ("  ".toList ++ ('<' :: '/' :: s.tag ++ '>' :: (['\n'] ++ t)))))) := by
    simp [Section.render, Section.block, Section.body, marker]
  have hclose : StartsTag ('<' :: '/' :: s.tag ++ '>' :: (['\n'] ++ t)) :=
    ⟨[], _, rfl, by decide, rfl⟩
  have hend : StartsTag ("  ".toList ++ ('<' :: '/' :: s.tag ++ '>' :: (['\n'] ++ t))) :=
    startsTag_append hclose (by decide) (by decide)
  have hopen : StartsTag ('<' :: s.tag ++ '>' :: (['\n'] ++ (s.leaves.flatMap Leaf.render ++
      ("  ".toList ++ ('<' :: '/' :: s.tag ++ '>' :: (['\n'] ++ t)))))) :=
      ⟨[], _, rfl, by decide, rfl⟩
  rw [hr, parseFrom_blank hopen (by decide) (by decide), parseFrom_open s.name,
    charsNode_space (by rfl), Option.bind_some, List.append_nil,
    parseFrom_blank (startsTag_leaves s.leaves hend) (by decide) (by decide),
    parseFrom_leaves s.leaves hend, Section.dom]
  cases s.leaves.mapM Leaf.dom with
  | none => rfl
  | some es =>
    rw [Option.bind_some, parseFrom_blank hclose (by decide) (by decide), parseFrom_close s.name,
      charsNode_space (by rfl), Option.bind_some, parseFrom_blank h (by decide) (by decide),
      List.append_nil, List.nil_append]
    rfl

lemma parseFrom_sections (sections : List Section) {t : Text} (h : StartsTag t) :
    parseFrom stack children [] (sections.flatMap Section.render ++ t) =
      (sections.mapM Section.dom).bind
        (fun ds => parseFrom stack (children ++ ds.map sectionNode) [] t) := by
  induction sections generalizing children with
  | nil => simp
  | cons s sections ih =>
    rw [List.flatMap_cons, List.append_assoc, parseFrom_section s (startsTag_sections sections h),
      List.mapM_cons]
    cases s.dom with
    | none => rfl
    | some d =>
      rw [Option.bind_some, ih]
      cases sections.mapM Section.dom with
      | none => rfl
      | some ds =>
        change parseFrom _ _ _ _ = parseFrom _ _ _ _
        rw [List.append_assoc]
        rfl

lemma parseFrom_tail {tail : Text} (hs : tail.all isXmlSpace = true) (hn : NoAngle tail) :
    parseFrom [] children [] tail = some children := by
  have ht : parseFrom [] children [] (tail ++ []) = parseFrom [] children ([] ++ tail) [] :=
    parseFrom_text hn [] []
  rw [List.append_nil, List.nil_append] at ht
  rw [ht, parseFrom, scan, if_neg (by simp), Option.bind_some, ← List.append_nil (charsToken tail),
    build_chars, charsNode_space hs, Option.bind_some, build, List.append_nil]
  rfl

lemma parseXml_renderStatus (sections : List Section) {tail : Text}
    (hs : tail.all isXmlSpace = true) (hn : NoAngle tail) :
    parseXml (renderStatus sections tail) =
      (sections.mapM Section.dom).map (fun ds => .element rootName (ds.map sectionNode)) := by
  have hr : renderStatus sections tail =
      '<' :: rootName ++ '>' :: (['\n'] ++ (sections.flatMap Section.render ++
      ('<' :: '/' :: rootName ++ '>' :: tail))) := by
    simp [renderStatus, marker]
  have hclose : StartsTag ('<' :: '/' :: rootName ++ '>' :: tail) := ⟨[], _, rfl, by decide, rfl⟩
  have hp : parseFrom [] [] [] (renderStatus sections tail) =
      (sections.mapM Section.dom).map (fun ds => [.element rootName (ds.map sectionNode)]) := by
    rw [hr, parseFrom_open rootName_valid, charsNode_space (by rfl), Option.bind_some,
      List.append_nil, parseFrom_blank (startsTag_sections sections hclose) (by decide) (by decide),
      parseFrom_sections sections hclose]
    cases sections.mapM Section.dom with
    | none => rfl
    | some ds =>
      rw [Option.bind_some, parseFrom_close rootName_valid, charsNode_space (by rfl),
        Option.bind_some, parseFrom_tail hs hn, List.append_nil]
      rfl
  rw [parseXml, ← parseFrom, hp]
  cases sections.mapM Section.dom <;> rfl

end Parse

section Save

def leafValue : List XmlNode → Text
  | [.text value] => value
  | _ => []

/-- The element is written as the leaf. -/
def SavedLeaf (e : Text × List XmlNode) (l : Leaf) : Prop :=
  (e.2 = [] ∨ ∃ value, e.2 = [.text value]) ∧ l.tag = e.1 ∧ l.raw = savedText 2 (leafValue e.2)

def SavedSection (d : DomSection) (s : Section) : Prop :=
  s.tag = d.1 ∧ List.Forall₂ SavedLeaf d.2 s.leaves

lemma printNode_savedLeaf {e : Text × List XmlNode} {l : Leaf} (h : SavedLeaf e l) :
    lineBreak false 2 ++ printNode false 2 (leafNode e) ++ ['\n'] = '\n' :: l.render := by
  obtain ⟨tag, nodes⟩ := e
  obtain ⟨hn, ht, hr⟩ := h
  have hp : printNode false 2 (leafNode (tag, nodes)) =
      '<' :: tag ++ '>' :: savedText 2 (leafValue nodes) ++ '<' :: '/' :: tag ++ ['>'] := by
    rcases hn with rfl | ⟨value, rfl⟩
    · exact printNode_empty tag 2
    · exact printNode_leaf tag value 2
  rw [hp]
  unfold Leaf.render leafLine
  rw [hr, ht]
  simp [lineBreak, marker]

lemma printNode_savedLeaves {es : List (Text × List XmlNode)} {ls : List Leaf}
    (h : List.Forall₂ SavedLeaf es ls) :
    es.flatMap (fun e => lineBreak false 2 ++ printNode false 2 (leafNode e)) ++ ['\n'] =
      '\n' :: ls.flatMap Leaf.render := by
  induction h with
  | nil => rfl
  | @cons e l es ls he _ ih =>
    rw [List.flatMap_cons, List.flatMap_cons, List.append_assoc, ih, ← List.cons_append,
      ← printNode_savedLeaf he]
    simp

lemma printNode_savedSection {d : DomSection} {s : Section} (h : SavedSection d s) :
    lineBreak false 1 ++ printNode false 1 (sectionNode d) ++ ['\n'] = '\n' :: s.render := by
  obtain ⟨tag, leaves⟩ := d
  obtain ⟨ht, hl⟩ := h
  have hp := printNode_elements tag 1 leaves
  change printNode false 1 (sectionNode (tag, leaves)) = _ at hp
  have hb :
      s.body = leaves.flatMap (fun e => lineBreak false 2 ++ printNode false 2 (leafNode e)) ++
      lineBreak false 1 := by
    rw [Section.body, ← printNode_savedLeaves hl, List.append_assoc]
    rfl
  rw [hp, Section.render, Section.block, hb, ht]
  simp [lineBreak, marker, leafNode]

lemma saveXml_sections {ds : List DomSection} {ss : List Section}
    (h : List.Forall₂ SavedSection ds ss) :
    saveXml (.element rootName (ds.map sectionNode)) = renderStatus ss [] := by
  have hs : ds.flatMap (fun d => lineBreak false 1 ++ printNode false 1 (sectionNode d)) ++ ['\n'] =
      '\n' :: ss.flatMap Section.render := by
    induction h with
    | nil => rfl
    | @cons d s ds ss hd _ ih =>
      rw [List.flatMap_cons, List.flatMap_cons, List.append_assoc, ih, ← List.cons_append,
        ← printNode_savedSection hd]
      simp
  have hp := printNode_elements rootName 0 (ds.map (fun d => (d.1, d.2.map leafNode)))
  rw [List.map_map, List.flatMap_map] at hp
  change saveXml (.element rootName (ds.map sectionNode)) = _ at hp
  rw [hp, renderStatus, ← hs]
  simp [lineBreak, marker, sectionNode]

/-- What a leaf is written as when it has not been touched. -/
def Leaf.saved (l : Leaf) : Leaf where
  tag := l.tag
  raw := savedText 2 (leafValue ((charsNode l.raw).getD []))
  name := l.name
  clean := noAngle_savedText _

def Section.saved (s : Section) : Section where
  tag := s.tag
  leaves := s.leaves.map Leaf.saved
  name := s.name

lemma charsNode_cases {raw : Text} {nodes : List XmlNode} (h : charsNode raw = some nodes) :
    nodes = [] ∨ ∃ value, nodes = [.text value] := by
  unfold charsNode at h
  split_ifs at h
  · exact Or.inl (Option.some.inj h).symm
  · obtain ⟨value, _, hv⟩ := Option.map_eq_some_iff.mp h
    exact Or.inr ⟨value, hv.symm⟩

lemma Leaf.dom_saved {l : Leaf} {e : Text × List XmlNode} (h : l.dom = some e) :
    SavedLeaf e l.saved := by
  obtain ⟨nodes, hn, rfl⟩ := Option.map_eq_some_iff.mp h
  refine ⟨charsNode_cases hn, rfl, ?_⟩
  change savedText 2 (leafValue ((charsNode l.raw).getD [])) = _
  rw [hn, Option.getD_some]

lemma mapM_saved {α β γ : Type} {f : α → Option β} {g : α → γ} {R : β → γ → Prop}
    {as : List α} {bs : List β}
    (h : as.mapM f = some bs) (hR : ∀ a b, f a = some b → R b (g a)) :
    List.Forall₂ R bs (as.map g) := by
  induction as generalizing bs with
  | nil =>
    rw [List.mapM_nil] at h
    cases h
    exact List.Forall₂.nil
  | cons a as ih =>
    rw [List.mapM_cons] at h
    obtain ⟨b, hb, h⟩ := Option.bind_eq_some_iff.mp h
    obtain ⟨bs', hbs, h⟩ := Option.bind_eq_some_iff.mp h
    cases h
    exact List.Forall₂.cons (hR a b hb) (ih hbs)

lemma Section.dom_saved {s : Section} {d : DomSection} (h : s.dom = some d) :
    SavedSection d s.saved := by
  obtain ⟨leaves, hl, rfl⟩ := Option.map_eq_some_iff.mp h
  exact ⟨rfl, mapM_saved hl (fun _ _ => Leaf.dom_saved)⟩

end Save

end DriveIntegrity.Status

