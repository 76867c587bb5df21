import DriveIntegrity.Library.Xml

/-! Reading and changing the children of an XML node. -/

namespace DriveIntegrity.XmlNode

def children : XmlNode → List XmlNode
  | .element _ children => children
  | _ => []

def isText : XmlNode → Bool
  | .text _ => true
  | _ => false

def named (name : List Char) : XmlNode → Bool
  | .element n _ => decide (n = name)
  | .emptyElement n => decide (n = name)
  | .text _ => false

def withChildren : XmlNode → List XmlNode → XmlNode
  | .element name _, children => .element name children
  | .emptyElement name, children => .element name children
  | .text value, _ => .text value

def selectSingleNode (parent : XmlNode) (name : List Char) : Option XmlNode :=
  parent.children.find? (named name)

def editChild (name : List Char) (f : XmlNode → XmlNode) : List XmlNode → List XmlNode
  | [] => []
  | c :: cs => if c.named name then f c :: cs else c :: editChild name f cs

/-- The text of an element that has no other children. -/
def innerText : XmlNode → List Char
  | .element _ [.text value] => value
  | _ => []

variable {name : List Char} {f : XmlNode → XmlNode} {pre post : List XmlNode} {c : XmlNode}

lemma editChild_append (h : ∀ c ∈ pre, named name c = false) (hc : c.named name = true) :
    editChild name f (pre ++ c :: post) = pre ++ f c :: post := by
  induction pre with
  | nil => rw [List.nil_append, editChild, if_pos hc, List.nil_append]
  | cons d pre ih =>
    rw [List.cons_append, editChild, if_neg (by simp [h d List.mem_cons_self]),
      ih (fun e he => h e (List.mem_cons_of_mem d he)), List.cons_append]

lemma selectSingleNode_append {tag : List Char} (h : ∀ c ∈ pre, named name c = false)
    (hc : c.named name = true) :
    selectSingleNode (.element tag (pre ++ c :: post)) name = some c := by
  have hp : pre.find? (named name) = none := List.find?_eq_none.mpr (fun d hd => by simp [h d hd])
  rw [selectSingleNode, children, List.find?_append, hp, Option.none_or, List.find?_cons_of_pos hc]

section Edited

variable {other : List Char} {node : XmlNode}

lemma children_withChildren (h : node.isText = false) (cs : List XmlNode) :
    (node.withChildren cs).children = cs := by
  cases node with
  | text value => cases h
  | emptyElement n => rfl
  | element n children => rfl

lemma named_withChildren (node : XmlNode) (cs : List XmlNode) (name : List Char) :
    (node.withChildren cs).named name = node.named name := by
  cases node <;> rfl

lemma isText_withChildren (node : XmlNode) (cs : List XmlNode) :
    (node.withChildren cs).isText = node.isText := by
  cases node <;> rfl

lemma not_text_of_named (h : node.named name = true) : node.isText = false := by
  cases node with
  | text value => cases h
  | emptyElement n => rfl
  | element n children => rfl

lemma not_named_other (hne : other ≠ name) (h : node.named name = true) :
    node.named other = false := by
  cases node with
  | text value => cases h
  | emptyElement n => exact decide_eq_false (fun he => hne (he.symm.trans (of_decide_eq_true h)))
  | element n children =>
      exact decide_eq_false (fun he => hne (he.symm.trans (of_decide_eq_true h)))

lemma find?_editChild (hf : ∀ c n, (f c).named n = c.named n) (cs : List XmlNode) :
    (editChild name f cs).find? (named name) = (cs.find? (named name)).map f := by
  induction cs with
  | nil => rfl
  | cons c cs ih =>
    rw [editChild]
    by_cases h : c.named name = true
    · rw [if_pos h, List.find?_cons_of_pos (by rw [hf, h]), List.find?_cons_of_pos h,
        Option.map_some]
    · rw [if_neg h, List.find?_cons_of_neg h, List.find?_cons_of_neg h, ih]

lemma find?_editChild_other (hf : ∀ c n, (f c).named n = c.named n) (hne : other ≠ name)
    (cs : List XmlNode) :
    (editChild name f cs).find? (named other) = cs.find? (named other) := by
  induction cs with
  | nil => rfl
  | cons c cs ih =>
    rw [editChild]
    by_cases h : c.named name = true
    · have ho := not_named_other hne h
      rw [if_pos h, List.find?_cons_of_neg (by simp [hf, ho]),
        List.find?_cons_of_neg (by simp [ho])]
    · rw [if_neg h, List.find?_cons, List.find?_cons, ih]

end Edited

end DriveIntegrity.XmlNode
