import DriveIntegrity.Library.Xml

/-! XML text that holds markup: what is read of it ends up in the elements that are open. -/

namespace DriveIntegrity

section Content

variable {stack : List (List Char × List XmlNode)} {children : List XmlNode}

/-- The nodes come from a document in which the open elements were closed with at least these
children. -/
def Completes : List (List Char × List XmlNode) → List XmlNode → List XmlNode → Prop
  | [], children, nodes => ∃ more, nodes = children ++ more
  | (name, outer) :: stack, children, nodes =>
    ∃ more, Completes stack (outer ++ [.element name (children ++ more)]) nodes

lemma Completes.mono {extra nodes : List XmlNode} (h : Completes stack (children ++ extra) nodes) :
    Completes stack children nodes := by
  cases stack with
  | nil =>
    obtain ⟨more, hmore⟩ := h
    exact ⟨extra ++ more, hmore.trans (List.append_assoc _ _ _)⟩
  | cons element stack =>
    obtain ⟨more, hmore⟩ := h
    refine ⟨extra ++ more, ?_⟩
    rwa [List.append_assoc] at hmore

lemma build_completes {ts : List XmlToken} {nodes : List XmlNode}
    (h : build stack children ts = some nodes) :
    Completes stack children nodes := by
  induction ts generalizing stack children with
  | nil =>
    rw [build] at h
    split_ifs at h with hs
    rw [List.isEmpty_iff.mp hs]
    exact ⟨[], by rw [List.append_nil, Option.some.inj h]⟩
  | cons t ts ih =>
    cases t with
    | openTag name =>
      obtain ⟨more, hmore⟩ := ih h
      exact hmore.mono
    | closeTag name =>
      cases stack with
      | nil => cases h
      | cons element stack =>
        rw [build] at h
        split_ifs at h with hname
        refine ⟨[], ?_⟩
        rw [List.append_nil, hname]
        exact ih h
    | emptyTag name => exact (ih h).mono
    | chars raw =>
      rw [build] at h
      split_ifs at h
      · exact ih h
      · obtain ⟨value, _, hbuild⟩ := Option.bind_eq_some_iff.mp h
        exact (ih hbuild).mono

/-- Names of open elements and numbers of nodes alone decide whether the tokens nest. -/
lemma build_length {stack' : List (List Char × List XmlNode)} {children' : List XmlNode}
    {ts : List XmlToken}
    (hs : stack.map (fun e => (e.1, e.2.length)) = stack'.map (fun e => (e.1, e.2.length)))
    (hc : children.length = children'.length) :
    (build stack children ts).map List.length = (build stack' children' ts).map List.length := by
  induction ts generalizing stack stack' children children' with
  | nil =>
    have hempty : stack.isEmpty = stack'.isEmpty := by
      rw [← List.isEmpty_map, hs, List.isEmpty_map]
    rw [build, build, hempty]
    split_ifs
    · exact congrArg some hc
    · rfl
  | cons t ts ih =>
    cases t with
    | openTag name =>
      apply ih
      · rw [List.map_cons, List.map_cons, hs, hc]
      · rfl
    | closeTag name =>
      cases stack with
      | nil =>
        rw [List.map_nil, eq_comm, List.map_eq_nil_iff] at hs
        rw [hs]
        rfl
      | cons e stack =>
        cases stack' with
        | nil => cases hs
        | cons e' stack' =>
          obtain ⟨hname, hs⟩ := List.cons_eq_cons.mp hs
          rw [Prod.mk.injEq] at hname
          rw [build, build, hname.1]
          split_ifs
          · apply ih hs
            rw [List.length_append, List.length_append, hname.2]
            rfl
          · rfl
    | emptyTag name =>
      apply ih hs
      rw [List.length_append, List.length_append, hc]
    | chars raw =>
      rw [build, build]
      split_ifs
      · exact ih hs hc
      · cases decodeChars raw with
        | none => rfl
        | some value =>
          apply ih hs
          rw [List.length_append, List.length_append, hc]

lemma parseFrom_length {stack' : List (List Char × List XmlNode)} {children' : List XmlNode}
    (hs : stack.map (fun e => (e.1, e.2.length)) = stack'.map (fun e => (e.1, e.2.length)))
    (hc : children.length = children'.length) (current content : List Char) :
    (parseFrom stack children current content).map List.length =
      (parseFrom stack' children' current content).map List.length := by
  rw [parseFrom, parseFrom]
  cases scan false current content with
  | none => rfl
  | some ts => exact build_length hs hc

lemma parseFrom_completes {current content : List Char} {nodes : List XmlNode}
    (h : parseFrom stack children current content = some nodes) :
    Completes stack children nodes := by
  obtain ⟨ts, _, hbuild⟩ := Option.bind_eq_some_iff.mp h
  exact build_completes hbuild

lemma scan_tag_token {current rest : List Char} {ts : List XmlToken}
    (h : scan true current rest = some ts) :
    ∃ body t us, classifyTag body = some t ∧ ts = t :: us := by
  induction rest generalizing current with
  | nil => cases h
  | cons c rest ih =>
    rw [scan, if_pos rfl] at h
    split_ifs at h
    · obtain ⟨t, ht, hts⟩ := Option.bind_eq_some_iff.mp h
      obtain ⟨us, _, rfl⟩ := Option.map_eq_some_iff.mp hts
      exact ⟨current, t, us, ht, rfl⟩
    · exact ih h

lemma classifyTag_markup {body : List Char} {t : XmlToken} (h : classifyTag body = some t) :
    ∀ raw, t ≠ .chars raw := by
  rintro raw rfl
  unfold classifyTag at h
  split_ifs at h <;> cases h

def XmlNode.IsMarkup : XmlNode → Prop
  | .text _ => False
  | _ => True

lemma parseFrom_markup {current rest : List Char} {nodes : List XmlNode}
    (h : parseFrom stack children current ('<' :: rest) = some nodes) :
    ∃ read, charsNode current = some read ∧
      ((∃ node, node.IsMarkup ∧ Completes stack (children ++ read ++ [node]) nodes) ∨
        ∃ name outer below, stack = (name, outer) :: below ∧
          Completes below (outer ++ [.element name (children ++ read)]) nodes) := by
  rw [parseFrom, scan, if_neg Bool.false_ne_true, if_pos rfl] at h
  obtain ⟨ts, hts, hbuild⟩ := Option.bind_eq_some_iff.mp h
  obtain ⟨us, hus, rfl⟩ := Option.map_eq_some_iff.mp hts
  obtain ⟨body, t, us, ht, rfl⟩ := scan_tag_token hus
  rw [build_chars] at hbuild
  obtain ⟨read, hread, hbuild⟩ := Option.bind_eq_some_iff.mp hbuild
  refine ⟨read, hread, ?_⟩
  cases t with
  | openTag name =>
    have hopened : build ((name, children ++ read) :: stack) [] us = some nodes := hbuild
    obtain ⟨more, hmore⟩ := build_completes hopened
    exact Or.inl ⟨.element name ([] ++ more), trivial, hmore⟩
  | closeTag name =>
    cases stack with
    | nil => cases hbuild
    | cons element stack =>
      rw [build] at hbuild
      split_ifs at hbuild with hname
      refine Or.inr ⟨element.1, element.2, stack, rfl, ?_⟩
      rw [hname]
      exact build_completes hbuild
  | emptyTag name => exact Or.inl ⟨.emptyElement name, trivial, build_completes hbuild⟩
  | chars raw => exact absurd rfl (classifyTag_markup ht raw)

end Content

end DriveIntegrity
