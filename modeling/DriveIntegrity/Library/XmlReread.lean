import DriveIntegrity.Library.Dom
import DriveIntegrity.Library.XmlRoundTrip

/-! A document that has been read can be written and read again, whatever it holds. -/

namespace DriveIntegrity

open XmlNode (editChild isText_withChildren)

section Nodes

def NoAdjacentTexts (nodes : List XmlNode) : Prop :=
  (nodes.map XmlNode.isText).IsChain (fun a b => ¬(a = true ∧ b = true))

inductive XmlNode.WellFormed : XmlNode → Prop
  | text {value : List Char} (chars : XmlText value) : WellFormed (.text value)
  | emptyElement {name : List Char} (valid : isXmlName name = true) :
      WellFormed (.emptyElement name)
  | element {name : List Char} {children : List XmlNode} (valid : isXmlName name = true)
      (nodes : ∀ c ∈ children, WellFormed c) (apart : NoAdjacentTexts children) :
      WellFormed (.element name children)

mutual

/-- What a written node is read as: blank text is dropped, and a carriage return becomes a
newline. -/
def XmlNode.reread : XmlNode → List XmlNode
  | .text value => if value.all isXmlSpace then [] else [.text (normalizeNewlines false value)]
  | .emptyElement name => [.emptyElement name]
  | .element name children => [.element name (rereadNodes children)]

def rereadNodes : List XmlNode → List XmlNode
  | [] => []
  | node :: nodes => node.reread ++ rereadNodes nodes

end

end Nodes

section Printed

lemma escapeChar_space (c : Char) : (escapeChar c).all isXmlSpace = isXmlSpace c := by
  unfold escapeChar
  split_ifs with h1 h2 h3
  · subst h1
    decide
  · subst h2
    decide
  · subst h3
    decide
  · simp

lemma escape_space (t : List Char) : (escape t).all isXmlSpace = t.all isXmlSpace := by
  induction t with
  | nil => rfl
  | cons c t ih =>
      rw [escape, List.flatMap_cons, List.all_append, ← escape, ih, escapeChar_space, List.all_cons]

lemma charsNode_escape {t : List Char} (h : XmlText t) :
    charsNode (escape t) = some (XmlNode.text t).reread := by
  rw [charsNode, escape_space, XmlNode.reread, decodeChars_escape h]
  split_ifs <;> rfl

lemma charsNode_nil : charsNode [] = some [] := charsNode_space rfl

lemma lineBreak_blank (mixed : Bool) (depth : ℕ) :
    (lineBreak mixed depth).all isXmlSpace = true := by
  cases mixed <;> simp [lineBreak, isXmlSpace]

lemma lineBreak_noAngle (mixed : Bool) (depth : ℕ) : NoAngle (lineBreak mixed depth) := by
  cases mixed <;> simp [lineBreak, NoAngle]

/-- The node is read back from its printed form, wherever it stands. -/
def Rereads (node : XmlNode) : Prop :=
  ∀ (mixed : Bool) (depth : ℕ) (stack : List (List Char × List XmlNode)) (children : List XmlNode)
    (current rest : List Char),
    parseFrom stack children current (printNode mixed depth node ++ rest) =
      (charsNode current).bind
        (fun read => parseFrom stack (children ++ read ++ node.reread) [] rest)

/-- Text since the last tag: blank, or the line breaks are left out. -/
def Pending (current : List Char) (mixed : Bool) : Prop :=
  current.all isXmlSpace = true ∨ mixed = true

variable {stack : List (List Char × List XmlNode)} {children : List XmlNode} {current : List Char}
  {mixed : Bool}

lemma charsNode_pending (h : Pending current mixed) (depth : ℕ) :
    charsNode (current ++ lineBreak mixed depth) = charsNode current := by
  rcases h with h | rfl
  · rw [charsNode_space h, charsNode_space]
    rw [List.all_append, h, lineBreak_blank]
    rfl
  · rw [lineBreak, if_pos rfl, List.append_nil]

lemma parseFrom_lineBreak (mixed : Bool) (depth : ℕ) (rest : List Char) :
    parseFrom stack children current (lineBreak mixed depth ++ rest) =
      parseFrom stack children (current ++ lineBreak mixed depth) rest :=
  parseFrom_text (lineBreak_noAngle mixed depth) current rest

lemma printChildren_markup {node : XmlNode} (h : node.isText = false) (mixed : Bool) (depth : ℕ)
    (nodes : List XmlNode) :
    printChildren mixed depth (node :: nodes) =
      lineBreak mixed depth ++ printNode mixed depth node ++ printChildren mixed depth nodes := by
  cases node with
  | text value => cases h
  | emptyElement name => rw [printChildren, printNode]
  | element name children => rw [printChildren]

lemma isContent_markup {node : XmlNode} (h : node.isText = false) : node.isContent = false := by
  cases node with
  | text value => cases h
  | emptyElement name => rfl
  | element name children => rfl

lemma parseFrom_printChildren {nodes : List XmlNode}
    (hreads : ∀ c ∈ nodes, c.isText = false → Rereads c)
    (htexts : ∀ c ∈ nodes, c.WellFormed) (hapart : NoAdjacentTexts nodes) {name : List Char}
    (hname : isXmlName name = true) (hpending : Pending current mixed)
    (hstart : ∀ c ∈ nodes.head?, c.isText = true → current = []) (outer : List XmlNode) (depth : ℕ)
    (rest : List Char) :
    parseFrom ((name, outer) :: stack) children current
        (printChildren mixed
          (depth + 1) nodes ++ (lineBreak (mixed || nodes.any XmlNode.isContent) depth ++
          ('<' :: '/' :: name ++ '>' :: rest))) =
      (charsNode current).bind (fun read =>
        parseFrom stack (outer ++ [.element name (children ++ read ++ rereadNodes nodes)])
          [] rest) := by
  induction nodes generalizing children current mixed with
  | nil =>
    rw [printChildren, List.nil_append, List.any_nil, Bool.or_false, parseFrom_lineBreak,
      parseFrom_close hname, charsNode_pending hpending]
    simp only [rereadNodes, List.append_nil]
  | cons node nodes ih =>
    have hreads' : ∀ c ∈ nodes, c.isText = false → Rereads c := fun c hc =>
      hreads c (List.mem_cons_of_mem node hc)
    have htexts' : ∀ c ∈ nodes, c.WellFormed := fun c hc => htexts c (List.mem_cons_of_mem node hc)
    have hapart' : NoAdjacentTexts nodes := List.IsChain.tail hapart
    by_cases ht : node.isText = true
    · cases node with
      | element _ _ => cases ht
      | emptyElement _ => cases ht
      | text value =>
        obtain rfl := hstart _ (by rfl) rfl
        have hvalue : XmlText value := by
          cases htexts (.text value) List.mem_cons_self with
          | text h => exact h
        have hor : (mixed || (XmlNode.text value :: nodes).any XmlNode.isContent) =
            ((mixed || decide (value ≠ [])) || nodes.any XmlNode.isContent) := by
          rw [List.any_cons, XmlNode.isContent, Bool.or_assoc]
        have hnext : ∀ c ∈ nodes.head?, c.isText = true → escape value = [] := by
          intro c hc hct
          cases nodes with
          | nil => cases hc
          | cons d nodes =>
            obtain rfl : d = c := Option.some.inj hc
            have := (List.isChain_cons_cons.mp hapart).1
            exact absurd ⟨rfl, hct⟩ this
        have hp : Pending (escape value) (mixed || decide (value ≠ [])) := by
          by_cases hv : value = []
          · subst hv
            exact .inl rfl
          · refine .inr ?_
            simp [hv]
        rw [printChildren, List.append_assoc, parseFrom_text (noAngle_escape value),
          List.nil_append, hor, ih hreads' htexts' hapart' hp hnext, charsNode_escape hvalue]
        simp only [Option.bind_some, charsNode_nil, List.nil_append, rereadNodes, List.append_assoc]
    · have ht : node.isText = false := Bool.eq_false_iff.mpr ht
      have hor : (node :: nodes).any XmlNode.isContent = nodes.any XmlNode.isContent := by
        rw [List.any_cons, isContent_markup ht, Bool.false_or]
      rw [printChildren_markup ht, List.append_assoc, List.append_assoc, parseFrom_lineBreak,
        hreads node List.mem_cons_self ht, charsNode_pending hpending, hor]
      congr 1
      funext read
      rw [ih hreads' htexts' hapart' (.inl rfl) (fun _ _ _ => rfl), charsNode_nil]
      simp only [Option.bind_some, List.nil_append, rereadNodes, List.append_assoc]

lemma XmlNode.WellFormed.rereads {node : XmlNode} (h : node.WellFormed) (ht : node.isText = false) :
    Rereads node := by
  induction h with
  | text _ => cases ht
  | @emptyElement name valid =>
    intro mixed depth stack children current rest
    have hp : printNode mixed depth (.emptyElement name) ++ rest =
        '<' :: (name ++ [' ', '/']) ++ '>' :: rest := by
      simp [printNode]
    rw [hp, parseFrom_empty valid]
    rfl
  | @element name nodes valid hnodes apart ih =>
    intro mixed depth stack children current rest
    have hp : printNode mixed depth (.element name nodes) ++ rest =
        '<' :: name ++ '>' :: (printChildren mixed (depth + 1) nodes ++
          (lineBreak (mixed || nodes.any XmlNode.isContent)
            depth ++ ('<' :: '/' :: name ++ '>' :: rest))) := by
      simp [printNode]
    rw [hp, parseFrom_open valid]
    congr 1
    funext read
    rw [parseFrom_printChildren ih hnodes apart valid (.inl rfl) (fun _ _ _ => rfl), charsNode_nil,
      Option.bind_some, List.nil_append, List.nil_append]
    rfl

lemma parseXml_saveXml {root : XmlNode} (h : root.WellFormed) (ht : root.isText = false) :
    parseXml (saveXml root) = rootOf root.reread := by
  have hr := h.rereads ht false 0 [] [] [] []
  rw [charsNode_nil, List.append_nil, Option.bind_some, List.nil_append, List.nil_append] at hr
  rw [parseXml, ← parseFrom, saveXml, hr, parseFrom, scan, if_neg Bool.false_ne_true,
    Option.bind_some]
  rfl

end Printed

section Parsed

def XmlToken.isChars : XmlToken → Bool
  | .chars _ => true
  | _ => false

def XmlToken.Valid : XmlToken → Prop
  | .openTag name => isXmlName name = true
  | .emptyTag name => isXmlName name = true
  | _ => True

lemma classifyTag_valid {body : List Char} {t : XmlToken} (h : classifyTag body = some t) :
    t.Valid ∧ t.isChars = false := by
  unfold classifyTag at h
  split_ifs at h with h1 h2 h3 h4 h5
  · obtain rfl := Option.some.inj h
    exact ⟨trivial, rfl⟩
  · obtain rfl := Option.some.inj h
    exact ⟨h4, rfl⟩
  · obtain rfl := Option.some.inj h
    exact ⟨h5, rfl⟩

/-- Tokens with valid names, no two pieces of text in a row. -/
structure Tokens (ts : List XmlToken) : Prop where
  valid : ∀ t ∈ ts, t.Valid
  apart : (ts.map XmlToken.isChars).IsChain (fun a b => ¬(a = true ∧ b = true))

lemma Tokens.cons {t : XmlToken} {ts : List XmlToken} (h : Tokens ts) (ht : t.Valid)
    (hc : t.isChars = false) :
    Tokens (t :: ts) where
  valid := List.forall_mem_cons.mpr ⟨ht, h.valid⟩
  apart := by
    rw [List.map_cons, List.isChain_cons]
    exact ⟨fun _ _ hb => absurd hb.1 (by rw [hc]; decide), h.apart⟩

lemma Tokens.chars {current : List Char} {ts : List XmlToken} (h : Tokens ts)
    (hhead : ∀ t ∈ ts.head?, t.isChars = false) : Tokens (charsToken current ++ ts) := by
  unfold charsToken
  split_ifs
  · exact h
  · refine ⟨List.forall_mem_cons.mpr ⟨trivial, h.valid⟩, ?_⟩
    rw [List.singleton_append, List.map_cons, List.isChain_cons]
    refine ⟨fun b hb he => ?_, h.apart⟩
    rw [List.head?_map, Option.mem_map] at hb
    obtain ⟨t, ht, rfl⟩ := hb
    rw [hhead t ht] at he
    exact absurd he.2 Bool.false_ne_true

lemma scan_tokens {inTag : Bool} {current content : List Char} {ts : List XmlToken}
    (h : scan inTag current content = some ts) :
    Tokens ts ∧ (inTag = true → ∀ t ∈ ts.head?, t.isChars = false) := by
  have hnil : Tokens [] := ⟨fun _ ht => absurd ht List.not_mem_nil, List.IsChain.nil⟩
  induction content generalizing inTag current ts with
  | nil =>
    cases inTag with
    | true => cases h
    | false =>
      obtain rfl := Option.some.inj h
      refine ⟨?_, fun hb => absurd hb Bool.false_ne_true⟩
      have hc : Tokens (charsToken current ++ []) := hnil.chars (fun _ ht => absurd ht (by simp))
      rwa [List.append_nil] at hc
  | cons c content ih =>
    cases inTag with
    | true =>
      rw [scan, if_pos rfl] at h
      split_ifs at h
      · obtain ⟨t, ht, h⟩ := Option.bind_eq_some_iff.mp h
        obtain ⟨us, hus, rfl⟩ := Option.map_eq_some_iff.mp h
        obtain ⟨hv, hc⟩ := classifyTag_valid ht
        refine ⟨(ih hus).1.cons hv hc, fun _ u hu => ?_⟩
        obtain rfl := Option.some.inj hu
        exact hc
      · exact ⟨(ih h).1, fun _ => (ih h).2 rfl⟩
    | false =>
      rw [scan, if_neg Bool.false_ne_true] at h
      refine ⟨?_, fun hb => absurd hb Bool.false_ne_true⟩
      split_ifs at h
      · obtain ⟨us, hus, rfl⟩ := Option.map_eq_some_iff.mp h
        exact (ih hus).1.chars ((ih hus).2 rfl)
      · exact (ih h).1

/-- Children read so far. -/
structure Nodes (nodes : List XmlNode) : Prop where
  wellFormed : ∀ c ∈ nodes, c.WellFormed
  apart : NoAdjacentTexts nodes

lemma Nodes.nil : Nodes [] := ⟨fun _ hc => absurd hc List.not_mem_nil, List.IsChain.nil⟩

lemma Nodes.concat {nodes : List XmlNode} {node : XmlNode} (h : Nodes nodes) (hn : node.WellFormed)
    (ha : ∀ c ∈ nodes.getLast?, ¬(c.isText = true ∧ node.isText = true)) :
    Nodes (nodes ++ [node]) where
  wellFormed c hc := by
    rcases List.mem_append.mp hc with hc | hc
    · exact h.wellFormed c hc
    · exact List.mem_singleton.mp hc ▸ hn
  apart := by
    rw [NoAdjacentTexts, List.map_append, List.isChain_append]
    refine ⟨h.apart, List.IsChain.singleton _, ?_⟩
    intro a hl b hb
    rw [List.getLast?_map, Option.mem_map] at hl
    obtain ⟨c, hc, rfl⟩ := hl
    obtain rfl := Option.some.inj hb
    exact ha c hc

lemma build_nodes {stack : List (List Char × List XmlNode)} {children nodes : List XmlNode}
    {ts : List XmlToken}
    (h : build stack children ts = some nodes) (hts : Tokens ts)
    (hs : ∀ e ∈ stack, isXmlName e.1 = true ∧ Nodes e.2)
    (hc : Nodes children)
    (ha : ∀ c ∈ children.getLast?, ∀ t ∈ ts.head?, ¬(c.isText = true ∧ t.isChars = true)) :
    Nodes nodes := by
  induction ts generalizing stack children with
  | nil =>
    rw [build] at h
    split_ifs at h
    exact Option.some.inj h ▸ hc
  | cons t ts ih =>
    have hrest : Tokens ts :=
      ⟨fun u hu => hts.valid u (List.mem_cons_of_mem t hu), List.IsChain.tail hts.apart⟩
    have hvalid := hts.valid t List.mem_cons_self
    cases t with
    | openTag name =>
      refine ih h hrest ?_ Nodes.nil (fun c hc => absurd hc (by simp))
      exact List.forall_mem_cons.mpr ⟨⟨hvalid, hc⟩, hs⟩
    | closeTag name =>
      cases stack with
      | nil => cases h
      | cons e stack =>
        rw [List.forall_mem_cons] at hs
        rw [build] at h
        split_ifs at h with hname
        have hnode : (XmlNode.element name children).WellFormed :=
          .element (hname ▸ hs.1.1) hc.wellFormed hc.apart
        refine ih h hrest hs.2
          (hs.1.2.concat hnode (fun _ _ hb => absurd hb.2 Bool.false_ne_true)) ?_
        intro c hl u _ hb
        rw [List.getLast?_concat] at hl
        obtain rfl := Option.some.inj hl
        exact absurd hb.1 Bool.false_ne_true
    | emptyTag name =>
      refine ih h hrest hs
        (hc.concat (.emptyElement hvalid) (fun _ _ hb => absurd hb.2 Bool.false_ne_true)) ?_
      intro c hl u _ hb
      rw [List.getLast?_concat] at hl
      obtain rfl := Option.some.inj hl
      exact absurd hb.1 Bool.false_ne_true
    | chars raw =>
      -- the next token is a tag
      have hnext : ∀ u ∈ ts.head?, u.isChars = false := by
        intro u hu
        have happart := hts.apart
        rw [List.map_cons, List.isChain_cons] at happart
        by_contra hb
        refine happart.1 u.isChars ?_ ⟨rfl, Bool.eq_true_of_not_eq_false hb⟩
        rw [List.head?_map]
        exact Option.mem_map.mpr ⟨u, hu, rfl⟩
      have hfree : ∀ c ∈ children.getLast?, c.isText = false :=
        fun c hl => Bool.eq_false_iff.mpr (fun hb => ha c hl _ rfl ⟨hb, rfl⟩)
      rw [build] at h
      split_ifs at h
      · exact ih h hrest hs hc (fun c hl u _ hb => absurd hb.1 (by rw [hfree c hl]; decide))
      · obtain ⟨value, hvalue, h⟩ := Option.bind_eq_some_iff.mp h
        refine ih h hrest hs (hc.concat (.text (xmlText_decodeChars hvalue)) ?_) ?_
        · exact fun c hl hb => absurd hb.1 (by rw [hfree c hl]; decide)
        · exact fun c _ u hu hb => absurd hb.2 (by rw [hnext u hu]; decide)

lemma wellFormed_of_parseXml {content : List Char} {root : XmlNode}
    (h : parseXml content = some root) :
    root.WellFormed ∧ root.isText = false := by
  obtain ⟨nodes, hnodes, hroot⟩ := Option.bind_eq_some_iff.mp h
  obtain ⟨ts, hts, hbuild⟩ := Option.bind_eq_some_iff.mp hnodes
  have hn :=
    build_nodes hbuild (scan_tokens hts).1 (fun _ he => absurd he List.not_mem_nil) Nodes.nil
    (fun c hc => absurd hc (by simp))
  unfold rootOf at hroot
  split at hroot
  · cases hroot
  · next node htext =>
    obtain rfl := Option.some.inj hroot
    refine ⟨hn.wellFormed _ List.mem_cons_self, ?_⟩
    cases node with
    | text value => exact absurd rfl (htext value)
    | emptyElement name => rfl
    | element name children => rfl
  · cases hroot

end Parsed

section Edited

variable {node : XmlNode} {f : XmlNode → XmlNode} {value : List Char}

lemma nodes_children (h : node.WellFormed) : Nodes node.children := by
  cases h with
  | text _ => exact Nodes.nil
  | emptyElement _ => exact Nodes.nil
  | element _ nodes apart => exact ⟨nodes, apart⟩

lemma wellFormed_withChildren (h : node.WellFormed) {cs : List XmlNode} (hcs : Nodes cs) :
    (node.withChildren cs).WellFormed := by
  cases h with
  | text chars => exact .text chars
  | emptyElement valid => exact .element valid hcs.wellFormed hcs.apart
  | element valid _ _ => exact .element valid hcs.wellFormed hcs.apart

lemma nodes_editChild {cs : List XmlNode} (h : Nodes cs) (hf : ∀ c, c.WellFormed → (f c).WellFormed)
    (ht : ∀ c, (f c).isText = c.isText) (name : List Char) : Nodes (editChild name f cs) := by
  have htexts : (editChild name f cs).map XmlNode.isText = cs.map XmlNode.isText := by
    induction cs with
    | nil => rfl
    | cons c cs ih =>
      rw [editChild]
      split_ifs
      · rw [List.map_cons, List.map_cons, ht]
      · rw [List.map_cons, List.map_cons,
          ih ⟨fun d hd => h.wellFormed d (List.mem_cons_of_mem c hd), h.apart.tail⟩]
  have hall : ∀ c ∈ editChild name f cs, c.WellFormed := by
    have hwell := h.wellFormed
    clear htexts h
    induction cs with
    | nil => exact hwell
    | cons c cs ih =>
      rw [List.forall_mem_cons] at hwell
      rw [editChild]
      split_ifs
      · exact List.forall_mem_cons.mpr ⟨hf c hwell.1, hwell.2⟩
      · exact List.forall_mem_cons.mpr ⟨hwell.1, ih hwell.2⟩
  exact ⟨hall, by rw [NoAdjacentTexts, htexts]; exact h.apart⟩

lemma nodes_text (h : XmlText value) : Nodes [.text value] :=
  ⟨List.forall_mem_singleton.mpr (.text h), List.IsChain.singleton _⟩

lemma xmlText_innerText (h : node.WellFormed) : XmlText node.innerText := by
  have hnil : XmlText [] := fun _ hc => absurd hc List.not_mem_nil
  cases h with
  | text _ => exact hnil
  | emptyElement _ => exact hnil
  | @element name children _ nodes _ =>
    match children with
    | [] => exact hnil
    | [.text value] =>
      cases nodes _ List.mem_cons_self with
      | text chars => exact chars
    | [.element _ _] => exact hnil
    | [.emptyElement _] => exact hnil
    | first :: _ :: _ =>
      cases first with
      | text _ => exact hnil
      | emptyElement _ => exact hnil
      | element _ _ => exact hnil

end Edited

section Selected

lemma named_reread {name : List Char} {node : XmlNode} (h : node.named name = true) :
    ∃ c, node.reread = [c] ∧ c.named name = true := by
  cases node with
  | text value => cases h
  | emptyElement n => exact ⟨_, rfl, h⟩
  | element n children => exact ⟨_, rfl, h⟩

lemma not_named_reread {name : List Char} {node : XmlNode} (h : node.named name = false) :
    ∀ c ∈ node.reread, c.named name = false := by
  cases node with
  | text value =>
    rw [XmlNode.reread]
    split_ifs <;> simp [XmlNode.named]
  | emptyElement n => exact fun c hc => List.mem_singleton.mp hc ▸ h
  | element n children => exact fun c hc => List.mem_singleton.mp hc ▸ h

lemma find?_rereadNodes (name : List Char) (nodes : List XmlNode) :
    (rereadNodes nodes).find? (XmlNode.named name) =
      (nodes.find? (XmlNode.named name)).bind (fun c => c.reread.head?) := by
  induction nodes with
  | nil => rfl
  | cons node nodes ih =>
    rw [rereadNodes, List.find?_append, ih]
    by_cases h : node.named name = true
    · obtain ⟨c, hc, hn⟩ := named_reread h
      rw [hc, List.find?_cons_of_pos hn, List.find?_cons_of_pos h, Option.bind_some, hc]
      rfl
    · have hf := not_named_reread (Bool.eq_false_iff.mpr h)
      rw [List.find?_eq_none.mpr (fun c hc => by simp [hf c hc]), List.find?_cons_of_neg h,
        Option.none_or]

end Selected

end DriveIntegrity
