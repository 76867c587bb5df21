import DriveIntegrity.Library.Decimal

/-! A fragment of XML: elements without attributes, and character data with entities. -/

namespace DriveIntegrity

inductive XmlNode
  | element (name : List Char) (children : List XmlNode)
  | emptyElement (name : List Char)
  | text (value : List Char)

section Characters

def isXmlSpace (c : Char) : Bool := decide (c = ' ' ∨ c = '\t' ∨ c = '\n' ∨ c = '\r')

def isXmlChar (c : Char) : Bool :=
  decide (c = '\t' ∨ c = '\n' ∨ c = '\r' ∨ 32 ≤ c.toNat ∧ c.toNat ≠ 0xfffe ∧ c.toNat ≠ 0xffff)

def isNameStart (c : Char) : Bool := c.isAlpha || decide (c = '_' ∨ c = ':' ∨ 128 ≤ c.toNat)

def isNameChar (c : Char) : Bool := isNameStart c || c.isDigit || decide (c = '-' ∨ c = '.')

def isXmlName : List Char → Bool
  | [] => false
  | c :: cs => isNameStart c && cs.all isNameChar

def trimEnd (t : List Char) : List Char := (t.reverse.dropWhile isXmlSpace).reverse

def charOfCode (n : ℕ) : Option Char :=
  if (Char.ofNat n).toNat = n ∧ isXmlChar (Char.ofNat n) then some (Char.ofNat n) else none

def parseHex (t : List Char) : Option ℕ :=
  if t = [] then none else t.foldlM (fun n c => (hexDigit c).map (fun d => 16 * n + d)) 0

/-- The character an entity or character reference stands for. -/
def entityChar (name : List Char) : Option Char :=
  if name = "amp".toList then some '&'
  else if name = "lt".toList then some '<'
  else if name = "gt".toList then some '>'
  else if name = "quot".toList then some '"'
  else if name = "apos".toList then some '\''
  else if name.take 2 = "#x".toList then (parseHex (name.drop 2)).bind charOfCode
  else if name.take 1 = "#".toList then (parseDecimal (name.drop 1)).bind charOfCode
  else none

/-- Replaces references; `reference` collects the name of the one being read. -/
def unescape (reference : Option (List Char)) : List Char → Option (List Char)
  | [] => if reference.isNone then some [] else none
  | c :: rest =>
    match reference with
    | none =>
      if c = '&' then unescape (some []) rest
      else if isXmlChar c then (unescape none rest).map (c :: ·) else none
    | some name =>
      if c = ';' then (entityChar name).bind (fun d => (unescape none rest).map (d :: ·))
      else unescape (some (name ++ [c])) rest

def normalizeNewlines (afterReturn : Bool) : List Char → List Char
  | [] => []
  | c :: rest =>
    if c = '\r' then '\n' :: normalizeNewlines true rest
    else if c = '\n' ∧ afterReturn then normalizeNewlines false rest
    else c :: normalizeNewlines false rest

def decodeChars (raw : List Char) : Option (List Char) :=
  if "]]>".toList <:+: raw then none else unescape none (normalizeNewlines false raw)

def escapeChar (c : Char) : List Char :=
  if c = '&' then "&amp;".toList else if c = '<' then "&lt;".toList else if c = '>' then
    "&gt;".toList else [c]

def escape (t : List Char) : List Char := t.flatMap escapeChar

end Characters

section Parser

inductive XmlToken
  | openTag (name : List Char)
  | closeTag (name : List Char)
  | emptyTag (name : List Char)
  | chars (raw : List Char)

/-- The token of what stands between `<` and `>`. -/
def classifyTag (body : List Char) : Option XmlToken :=
  if body.head? = some '/' then
    if isXmlName (trimEnd body.tail) then some (.closeTag (trimEnd body.tail)) else none
  else if body.getLast? = some '/' then
    if isXmlName (trimEnd body.dropLast) then some (.emptyTag (trimEnd body.dropLast)) else none
  else if isXmlName (trimEnd body) then some (.openTag (trimEnd body)) else none

def charsToken (raw : List Char) : List XmlToken := if raw = [] then [] else [.chars raw]

/-- Cuts a document at its tags; `current` is the piece being read. -/
def scan (inTag : Bool) (current : List Char) : List Char → Option (List XmlToken)
  | [] => if inTag then none else some (charsToken current)
  | c :: rest =>
    if inTag then
      if c = '>' then (classifyTag current).bind (fun t => (scan false [] rest).map (t :: ·))
      else if c = '<' then none
      else scan true (current ++ [c]) rest
    else if c = '<' then (scan true [] rest).map (charsToken current ++ ·)
    else scan false (current ++ [c]) rest

/-- Nests the tokens; white space between tags is dropped. -/
def build (stack : List (List Char × List XmlNode)) (children : List XmlNode) :
    List XmlToken → Option (List XmlNode)
  | [] => if stack.isEmpty then some children else none
  | .openTag name :: ts => build ((name, children) :: stack) [] ts
  | .closeTag name :: ts =>
    match stack with
    | [] => none
    | (opened, outer) :: stack =>
      if opened = name then build stack (outer ++ [.element name children]) ts else none
  | .emptyTag name :: ts => build stack (children ++ [.emptyElement name]) ts
  | .chars raw :: ts =>
    if raw.all isXmlSpace then build stack children ts
    else (decodeChars raw).bind (fun value => build stack (children ++ [.text value]) ts)

def rootOf : List XmlNode → Option XmlNode
  | [.text _] => none
  | [node] => some node
  | _ => none

def parseXml (content : List Char) : Option XmlNode :=
  ((scan false [] content).bind (build [] [])).bind rootOf

/-- Parsing from inside a document: `current` is the text since the last tag. -/
def parseFrom (stack : List (List Char × List XmlNode)) (children : List XmlNode)
    (current content : List Char) :
    Option (List XmlNode) :=
  (scan false current content).bind (build stack children)

end Parser

section ParserLemmas

def NoAngle (t : List Char) : Prop := ∀ c ∈ t, c ≠ '<' ∧ c ≠ '>'

instance (t : List Char) : Decidable (NoAngle t) := inferInstanceAs (Decidable (∀ c ∈ t, _))

lemma noAngle_append {s t : List Char} : NoAngle (s ++ t) ↔ NoAngle s ∧ NoAngle t := by
  simp only [NoAngle, List.forall_mem_append]

lemma isNameChar_ne {c d : Char} (h : isNameChar c = true) (hd : isNameChar d = false) : c ≠ d := by
  rintro rfl
  rw [h] at hd
  cases hd

lemma isNameStart_isNameChar {c : Char} (h : isNameStart c = true) : isNameChar c = true := by
  simp [isNameChar, h]

lemma nameChar_of_mem {name : List Char} (h : isXmlName name = true) {c : Char} (hc : c ∈ name) :
    isNameChar c = true := by
  cases name with
  | nil => simp at hc
  | cons d name =>
    rw [isXmlName, Bool.and_eq_true, List.all_eq_true] at h
    rcases List.mem_cons.mp hc with rfl | hc
    · exact isNameStart_isNameChar h.1
    · exact h.2 c hc

lemma noAngle_of_isXmlName {name : List Char} (h : isXmlName name = true) : NoAngle name :=
  fun _ hc => ⟨isNameChar_ne (nameChar_of_mem h hc) (by decide),
    isNameChar_ne (nameChar_of_mem h hc) (by decide)⟩

lemma trimEnd_name {name : List Char} (h : isXmlName name = true) : trimEnd name = name := by
  have hr : name.reverse.dropWhile isXmlSpace = name.reverse := by
    cases he : name.reverse with
    | nil => rfl
    | cons c cs =>
      have hc := nameChar_of_mem h (List.mem_reverse.mp (he ▸ List.mem_cons_self) : c ∈ name)
      rw [List.dropWhile_cons_of_neg]
      simp only [isXmlSpace, decide_eq_true_eq, not_or]
      exact ⟨isNameChar_ne hc (by decide), isNameChar_ne hc (by decide),
        isNameChar_ne hc (by decide),
        isNameChar_ne hc (by decide)⟩
  rw [trimEnd, hr, List.reverse_reverse]

lemma classifyTag_open {name : List Char} (h : isXmlName name = true) :
    classifyTag name = some (.openTag name) := by
  have hne : ∀ c ∈ name, c ≠ '/' := fun c hc => isNameChar_ne (nameChar_of_mem h hc) (by decide)
  rw [classifyTag, if_neg, if_neg, trimEnd_name h, if_pos h]
  · exact fun hl => hne '/' (List.mem_of_getLast? hl) rfl
  · exact fun hl => hne '/' (List.mem_of_head? hl) rfl

lemma classifyTag_close {name : List Char} (h : isXmlName name = true) :
    classifyTag ('/' :: name) = some (.closeTag name) := by
  rw [classifyTag, if_pos List.head?_cons, List.tail_cons, trimEnd_name h, if_pos h]

lemma classifyTag_empty {name : List Char} (h : isXmlName name = true) :
    classifyTag (name ++ [' ', '/']) = some (.emptyTag name) := by
  have hhead : (name ++ [' ', '/']).head? ≠ some '/' := by
    cases name with
    | nil => cases h
    | cons c name =>
      intro he
      exact isNameChar_ne (nameChar_of_mem h List.mem_cons_self) (by decide) (Option.some.inj he)
  have hlast : (name ++ [' ', '/']).getLast? = some '/' := by simp
  have hdrop : (name ++ [' ', '/']).dropLast = name ++ [' '] := by simp
  have htrim : trimEnd (name ++ [' ']) = name := by
    rw [trimEnd, List.reverse_append, List.reverse_singleton, List.singleton_append,
      List.dropWhile_cons_of_pos (by decide), ← trimEnd, trimEnd_name h]
  rw [classifyTag, if_neg hhead, if_pos hlast, hdrop, htrim, if_pos h]

lemma scan_chars {t : List Char} (h : '<' ∉ t) (current rest : List Char) :
    scan false current (t ++ rest) = scan false (current ++ t) rest := by
  induction t generalizing current with
  | nil => rw [List.nil_append, List.append_nil]
  | cons c t ih =>
    rw [List.mem_cons, not_or] at h
    rw [List.cons_append, scan, if_neg Bool.false_ne_true, if_neg (Ne.symm h.1), ih h.2,
      List.append_assoc, List.singleton_append]

lemma scan_body {body : List Char} (h : NoAngle body) (current rest : List Char) :
    scan true current (body ++ '>' :: rest) =
      (classifyTag (current ++ body)).bind (fun t => (scan false [] rest).map (t :: ·)) := by
  induction body generalizing current with
  | nil => rw [List.nil_append, scan, if_pos rfl, if_pos rfl, List.append_nil]
  | cons c body ih =>
    have hc := h c List.mem_cons_self
    rw [List.cons_append, scan, if_pos rfl, if_neg hc.2, if_neg hc.1,
      ih (fun d hd => h d (List.mem_cons_of_mem c hd)), List.append_assoc, List.singleton_append]

lemma scan_tag {body : List Char} (h : NoAngle body) (current rest : List Char) :
    scan false current ('<' :: body ++ '>' :: rest) =
      (classifyTag body).bind
        (fun t => (scan false [] rest).map (fun ts => charsToken current ++ t :: ts)) := by
  rw [List.cons_append, scan, if_neg (by simp), if_pos rfl, scan_body h, List.nil_append]
  cases classifyTag body with
  | none => rfl
  | some t => cases scan false [] rest <;> rfl

/-- The node of character data between two tags, if any. -/
def charsNode (raw : List Char) : Option (List XmlNode) :=
  if raw.all isXmlSpace then some [] else (decodeChars raw).map (fun value => [.text value])

lemma build_chars (stack : List (List Char × List XmlNode)) (children : List XmlNode)
    (raw : List Char) (ts : List XmlToken) :
    build stack children (charsToken raw ++ ts) =
      (charsNode raw).bind (fun nodes => build stack (children ++ nodes) ts) := by
  by_cases h : raw = []
  · simp [h, charsToken, charsNode]
  · rw [charsToken, if_neg h, List.singleton_append, build, charsNode]
    split_ifs
    · simp
    · cases decodeChars raw <;> rfl

variable {stack : List (List Char × List XmlNode)} {children : List XmlNode} {name : List Char}

lemma parseFrom_chars {t : List Char} (h : '<' ∉ t) (current rest : List Char) :
    parseFrom stack children current (t ++ rest) =
      parseFrom stack children (current ++ t) rest := by
  rw [parseFrom, scan_chars h, parseFrom]

lemma NoAngle.notMem {t : List Char} (h : NoAngle t) : '<' ∉ t := fun hm => (h _ hm).1 rfl

lemma parseFrom_text {t : List Char} (h : NoAngle t) (current rest : List Char) :
    parseFrom stack children current (t ++ rest) = parseFrom stack children (current ++ t) rest :=
  parseFrom_chars h.notMem current rest

lemma parseFrom_open (h : isXmlName name = true) (current rest : List Char) :
    parseFrom stack children current ('<' :: name ++ '>' :: rest) =
      (charsNode current).bind
        (fun nodes => parseFrom ((name, children ++ nodes) :: stack) [] [] rest) := by
  rw [parseFrom, scan_tag (noAngle_of_isXmlName h), classifyTag_open h, Option.bind_some]
  simp only [parseFrom]
  cases scan false [] rest with
  | none => cases charsNode current <;> rfl
  | some ts =>
    rw [Option.map_some, Option.bind_some, build_chars]
    rfl

lemma parseFrom_close (h : isXmlName name = true) (outer : List XmlNode)
    (current rest : List Char) :
    parseFrom ((name, outer) :: stack) children current ('<' :: '/' :: name ++ '>' :: rest) =
      (charsNode current).bind
        (fun nodes => parseFrom stack (outer ++ [.element name (children ++ nodes)]) [] rest) := by
  have hb : NoAngle ('/' :: name) := by
    intro c hc
    rcases List.mem_cons.mp hc with rfl | hc
    · decide
    · exact noAngle_of_isXmlName h c hc
  have ht := scan_tag hb current rest
  rw [List.cons_append, List.cons_append] at ht
  rw [parseFrom, List.cons_append, List.cons_append, ht, classifyTag_close h, Option.bind_some]
  simp only [parseFrom]
  cases scan false [] rest with
  | none => cases charsNode current <;> rfl
  | some ts =>
    rw [Option.map_some, Option.bind_some, build_chars]
    simp only [build, if_true, Option.bind_some]

lemma parseFrom_empty (h : isXmlName name = true) (current rest : List Char) :
    parseFrom stack children current ('<' :: (name ++ [' ', '/']) ++ '>' :: rest) =
      (charsNode current).bind
        (fun nodes => parseFrom stack (children ++ nodes ++ [.emptyElement name]) [] rest) := by
  have hb : NoAngle (name ++ [' ', '/']) := noAngle_append.mpr ⟨noAngle_of_isXmlName h, by decide⟩
  rw [parseFrom, scan_tag hb, classifyTag_empty h, Option.bind_some]
  simp only [parseFrom]
  cases scan false [] rest with
  | none => cases charsNode current <;> rfl
  | some ts =>
    rw [Option.map_some, Option.bind_some, build_chars]
    rfl

lemma charsNode_space {raw : List Char} (h : raw.all isXmlSpace = true) : charsNode raw = some [] :=
  if_pos h

end ParserLemmas

section Printer

def lineBreak (mixed : Bool) (depth : ℕ) : List Char :=
  if mixed then [] else '\n' :: List.replicate (2 * depth) ' '

def XmlNode.isContent : XmlNode → Bool
  | .text value => decide (value ≠ [])
  | _ => false

mutual

/-- Indented output: an element's children stand on lines of their own unless there is text among
them. -/
def printNode (mixed : Bool) (depth : ℕ) : XmlNode → List Char
  | .text value => escape value
  | .emptyElement name => '<' :: name ++ " />".toList
  | .element name children =>
    '<' :: name ++ '>' :: printChildren mixed (depth + 1) children ++
      lineBreak (mixed || children.any XmlNode.isContent) depth ++ '<' :: '/' :: name ++ ['>']

def printChildren (mixed : Bool) (depth : ℕ) : List XmlNode → List Char
  | [] => []
  | .text value :: rest => escape value ++ printChildren (mixed || decide (value ≠ [])) depth rest
  | .emptyElement name :: rest =>
    lineBreak mixed depth ++ ('<' :: name ++ " />".toList) ++ printChildren mixed depth rest
  | .element name children :: rest =>
    lineBreak mixed depth ++ printNode mixed depth (.element name children) ++ printChildren
      mixed depth rest

end

def saveXml (root : XmlNode) : List Char := printNode false 0 root

/-- How the content of a leaf at some depth is printed. -/
def savedText (depth : ℕ) (value : List Char) : List Char :=
  if value = [] then lineBreak false depth else escape value

lemma printNode_leaf (tag value : List Char) (depth : ℕ) :
    printNode false depth (.element tag [.text value]) =
      '<' :: tag ++ '>' :: savedText depth value ++ '<' :: '/' :: tag ++ ['>'] := by
  by_cases h : value = []
  · subst h
    simp [printNode, printChildren, XmlNode.isContent, savedText, escape]
  · simp [printNode, printChildren, XmlNode.isContent, savedText, h, lineBreak]

lemma printNode_empty (tag : List Char) (depth : ℕ) :
    printNode false depth (.element tag []) =
      '<' :: tag ++ '>' :: savedText depth [] ++ '<' :: '/' :: tag ++ ['>'] := by
  simp [printNode, printChildren, savedText]

lemma printChildren_elements (depth : ℕ) (elements : List (List Char × List XmlNode)) :
    printChildren false depth (elements.map (fun e => .element e.1 e.2)) =
      elements.flatMap
        (fun e => lineBreak false depth ++ printNode false depth (.element e.1 e.2)) := by
  induction elements with
  | nil => rfl
  | cons e elements ih =>
    rw [List.map_cons, printChildren, ih, List.flatMap_cons]

lemma printNode_elements (name : List Char) (depth : ℕ)
    (elements : List (List Char × List XmlNode)) :
    printNode false depth (.element name (elements.map (fun e => .element e.1 e.2))) =
      '<' :: name ++ '>' :: elements.flatMap
        (fun e => lineBreak false (depth + 1) ++ printNode false (depth + 1) (.element e.1 e.2)) ++
        lineBreak false depth ++ '<' :: '/' :: name ++ ['>'] := by
  have hc : (elements.map (fun e => XmlNode.element e.1 e.2)).any XmlNode.isContent = false := by
    simp [XmlNode.isContent]
  rw [printNode, printChildren_elements, hc, Bool.or_false]

end Printer

section PlainText

/-- Text that stands for itself in XML. -/
def PlainText (t : List Char) : Prop :=
  ∀ c ∈ t, isXmlChar c = true ∧ c ≠ '&' ∧ c ≠ '<' ∧ c ≠ '>' ∧ c ≠ '\r'

instance (t : List Char) : Decidable (PlainText t) := inferInstanceAs (Decidable (∀ c ∈ t, _))

lemma unescape_plain {t : List Char} (h : PlainText t) : unescape none t = some t := by
  induction t with
  | nil => rfl
  | cons c t ih =>
    have hc := h c List.mem_cons_self
    rw [unescape, if_neg hc.2.1, if_pos hc.1, ih (fun d hd => h d (List.mem_cons_of_mem c hd)),
      Option.map_some]

lemma normalizeNewlines_plain {t : List Char} (h : PlainText t) :
    normalizeNewlines false t = t := by
  induction t with
  | nil => rfl
  | cons c t ih =>
    have hc := h c List.mem_cons_self
    rw [normalizeNewlines, if_neg hc.2.2.2.2, if_neg (by simp),
      ih (fun d hd => h d (List.mem_cons_of_mem c hd))]

lemma decodeChars_plain {t : List Char} (h : PlainText t) : decodeChars t = some t := by
  rw [decodeChars, if_neg, normalizeNewlines_plain h, unescape_plain h]
  intro hi
  exact (h '>' (hi.subset (by decide))).2.2.2.1 rfl

lemma escape_plain {t : List Char} (h : PlainText t) : escape t = t := by
  induction t with
  | nil => rfl
  | cons c t ih =>
    have hc := h c List.mem_cons_self
    rw [escape, List.flatMap_cons, escapeChar, if_neg hc.2.1, if_neg hc.2.2.1, if_neg hc.2.2.2.1,
      List.singleton_append, ← escape, ih (fun d hd => h d (List.mem_cons_of_mem c hd))]

lemma PlainText.noAngle {t : List Char} (h : PlainText t) : NoAngle t :=
  fun c hc => ⟨(h c hc).2.2.1, (h c hc).2.2.2.1⟩

lemma noAngle_escape (t : List Char) : NoAngle (escape t) := by
  intro c hc
  obtain ⟨d, _, hd⟩ := List.mem_flatMap.mp hc
  simp only [escapeChar] at hd
  split_ifs at hd with h1 h2 h3
  · exact (by decide : NoAngle "&amp;".toList) c hd
  · exact (by decide : NoAngle "&lt;".toList) c hd
  · exact (by decide : NoAngle "&gt;".toList) c hd
  · rw [List.mem_singleton.mp hd]
    exact ⟨h2, h3⟩

end PlainText

end DriveIntegrity
