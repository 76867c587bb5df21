import DriveIntegrity.Library.Search
import DriveIntegrity.Library.XmlMarkup
import DriveIntegrity.Status.Readable

/-! What becomes of a text that `deviceinfo` escapes and writes into an element. -/

namespace DriveIntegrity.Status

open Integrity (Text)
open XmlNode (selectSingleNode innerText named)

section Loop

lemma findText_lt {c : Char} {t : Text} {n : ℕ} (h : findText [c] t = some n) : n < t.length :=
  (findText_eq_some_iff.mp h).le

/-- The loop of `XmlEscape`, which replaces in place. -/
def xmlEscapeFrom (data : Text) (pos : ℕ) : Text :=
  match h : findText ['&'] (data.drop pos) with
  | none => data
  | some n =>
      xmlEscapeFrom (data.take (pos + n) ++ "&amp;".toList ++ data.drop (pos + n + 1)) (pos + n + 5)
termination_by data.length - pos
decreasing_by
  have hn := findText_lt h
  have hamp : "&amp;".toList.length = 5 := rfl
  rw [List.length_drop] at hn
  simp only [List.length_append, List.length_take, List.length_drop, hamp]
  omega

lemma xmlEscapeFrom_none {data : Text} {pos : ℕ} (h : findText ['&'] (data.drop pos) = none) :
    xmlEscapeFrom data pos = data := by
  unfold xmlEscapeFrom
  split
  · rfl
  · next hsome => rw [h] at hsome; cases hsome

lemma xmlEscapeFrom_some {data : Text} {pos n : ℕ} (h : findText ['&'] (data.drop pos) = some n) :
    xmlEscapeFrom data pos =
      xmlEscapeFrom (data.take (pos + n) ++ "&amp;".toList ++ data.drop (pos + n + 1))
        (pos + n + 5) := by
  rw [xmlEscapeFrom]
  split
  · next hnone => rw [h] at hnone; cases hnone
  · next m hm => rw [Option.some.inj (hm.symm.trans h)]

lemma xmlEscape_append (s t : Text) : xmlEscape (s ++ t) = xmlEscape s ++ xmlEscape t :=
  List.flatMap_append

lemma xmlEscape_cons (c : Char) (t : Text) :
    xmlEscape (c :: t) = (if c = '&' then "&amp;".toList else [c]) ++ xmlEscape t :=
  List.flatMap_cons

lemma xmlEscape_of_notMem {t : Text} (h : '&' ∉ t) : xmlEscape t = t := by
  induction t with
  | nil => rfl
  | cons c t ih =>
    rw [List.mem_cons, not_or] at h
    rw [xmlEscape_cons, if_neg (Ne.symm h.1), ih h.2, List.singleton_append]

lemma xmlEscapeFrom_append (pre rest : Text) :
    xmlEscapeFrom (pre ++ rest) pre.length = pre ++ xmlEscape rest := by
  induction hlen : rest.length using Nat.strong_induction_on generalizing pre rest with
  | _ len ih =>
    subst hlen
    by_cases h : '&' ∈ rest
    · obtain ⟨a, b, rfl, ha⟩ := List.eq_append_cons_of_mem h
      have hfind : findText ['&'] ((pre ++ (a ++ '&' :: b)).drop pre.length) = some a.length := by
        rw [List.drop_left]
        exact (skips_of_notMem ha).findText_append b
      have hdata : (pre ++ (a ++ '&' :: b)).take (pre.length + a.length) ++ "&amp;".toList ++
          (pre ++ (a ++ '&' :: b)).drop (pre.length + a.length + 1) =
            (pre ++ a ++ "&amp;".toList) ++ b := by
        rw [← List.append_assoc, ← List.length_append, List.take_left, ← List.drop_drop,
          List.drop_left]
        rfl
      have hpos : pre.length + a.length + 5 = (pre ++ a ++ "&amp;".toList).length := by
        rw [List.length_append, List.length_append]
        rfl
      have hshort : b.length < (a ++ '&' :: b).length := by
        rw [List.length_append, List.length_cons]
        omega
      rw [xmlEscapeFrom_some hfind, hdata, hpos, ih b.length hshort _ b rfl, xmlEscape_append,
        xmlEscape_of_notMem ha, xmlEscape_cons, if_pos rfl]
      simp only [List.append_assoc]
    · rw [xmlEscape_of_notMem h]
      apply xmlEscapeFrom_none
      rw [List.drop_left]
      exact findText_none (fun hi => h (hi.subset List.mem_cons_self))

lemma xmlEscapeFrom_eq (t : Text) : xmlEscapeFrom t 0 = xmlEscape t := xmlEscapeFrom_append [] t

end Loop

section Decode

/-- No control characters, and none that XML forbids. -/
def PrintableText (t : Text) : Prop := ∀ c ∈ t, isXmlChar c = true ∧ 32 ≤ c.toNat

instance (t : Text) : Decidable (PrintableText t) := inferInstanceAs (Decidable (∀ c ∈ t, _))

lemma unescape_xmlEscape {t : Text} (h : PrintableText t) (b : Bool) :
    unescape none (normalizeNewlines b (xmlEscape t)) = some t := by
  induction t generalizing b with
  | nil => rfl
  | cons c t ih =>
    have ht : unescape none (normalizeNewlines false (xmlEscape t)) = some t :=
      ih (fun d hd => h d (List.mem_cons_of_mem c hd)) false
    obtain ⟨hxml, hprint⟩ := h c List.mem_cons_self
    rw [xmlEscape_cons]
    split_ifs with hamp
    · subst hamp
      have hentity : entityChar "amp".toList = some '&' := by decide
      have hcons :
          unescape none (normalizeNewlines b ('&' :: "amp".toList ++ [';'] ++ xmlEscape t)) =
          (unescape none (normalizeNewlines false (xmlEscape t))).map ('&' :: ·) :=
        unescape_escape_cons (by decide) (by decide) hentity b (xmlEscape t)
      rw [ht] at hcons
      exact hcons
    · have hreturn : c ≠ '\r' := by
        rintro rfl
        exact absurd hprint (by decide)
      have hline : c ≠ '\n' := by
        rintro rfl
        exact absurd hprint (by decide)
      rw [List.singleton_append, normalizeNewlines, if_neg hreturn, if_neg (fun hn => hline hn.1),
        unescape, if_neg hamp, if_pos hxml, ht, Option.map_some]

lemma prefix_xmlEscape {needle t : Text} (h : '&' ∉ needle) :
    needle <+: xmlEscape t ↔ needle <+: t := by
  induction needle generalizing t with
  | nil => exact iff_of_true List.nil_prefix List.nil_prefix
  | cons d needle ih =>
    rw [List.mem_cons, not_or] at h
    cases t with
    | nil => exact Iff.rfl
    | cons c t =>
      rw [xmlEscape_cons]
      split_ifs with hamp
      · subst hamp
        exact iff_of_false (fun hp => h.1 (List.cons_prefix_cons.mp hp).1.symm)
          (fun hp => h.1 (List.cons_prefix_cons.mp hp).1.symm)
      · rw [List.singleton_append, List.cons_prefix_cons, List.cons_prefix_cons, ih h.2]

lemma infix_append_right {c : Char} {needle s t : Text} (h : c ∉ s) :
    c :: needle <:+: s ++ t ↔ c :: needle <:+: t := by
  induction s with
  | nil => exact Iff.rfl
  | cons d s ih =>
    rw [List.mem_cons, not_or] at h
    rw [List.cons_append, List.infix_cons_iff, List.cons_prefix_cons, ih h.2]
    exact or_iff_right (fun hp => h.1 hp.1)

lemma infix_xmlEscape {c : Char} {needle t : Text} (h : '&' ∉ c :: needle)
    (hc : c ∉ "&amp;".toList) :
    c :: needle <:+: xmlEscape t ↔ c :: needle <:+: t := by
  induction t with
  | nil => exact Iff.rfl
  | cons d t ih =>
    rw [xmlEscape_cons]
    split_ifs with hamp
    · have hne : ¬(c = d ∧ needle <+: t) := by
        rintro ⟨rfl, _⟩
        exact h (hamp ▸ List.mem_cons_self)
      rw [infix_append_right hc, ih, List.infix_cons_iff, List.cons_prefix_cons, or_iff_right hne]
    · have hfirst := prefix_xmlEscape (t := d :: t) h
      rw [xmlEscape_cons, if_neg hamp] at hfirst
      rw [List.infix_cons_iff, ← hfirst, ← ih, List.singleton_append, List.infix_cons_iff]

lemma all_xmlEscape (t : Text) : (xmlEscape t).all isXmlSpace = t.all isXmlSpace := by
  induction t with
  | nil => rfl
  | cons c t ih =>
    rw [xmlEscape_cons, List.all_append, ih, List.all_cons]
    split_ifs with hamp
    · subst hamp
      rfl
    · rw [List.all_cons, List.all_nil, Bool.and_true]

lemma charsNode_xmlEscape {t : Text} (h : PrintableText t) :
    charsNode (xmlEscape t) =
      if t.all isXmlSpace then some [] else if "]]>".toList <:+: t then
        none else some [.text t] := by
  have hend : "]]>".toList <:+: xmlEscape t ↔ "]]>".toList <:+: t :=
    infix_xmlEscape (by decide) (by decide)
  rw [charsNode, all_xmlEscape, decodeChars, unescape_xmlEscape h]
  simp only [hend]
  split_ifs <;> rfl

/-- Text that an element gives back as it was. -/
def Survives (t : Text) : Prop :=
  '<' ∉ t ∧ ¬"]]>".toList <:+: t ∧ (t = [] ∨ t.all isXmlSpace = false)

instance (t : Text) : Decidable (Survives t) := inferInstanceAs (Decidable (_ ∧ _ ∧ _))

def textNodes (t : Text) : List XmlNode := if t = [] then [] else [.text t]

lemma innerText_textNodes (tag t : Text) : innerText (.element tag (textNodes t)) = t := by
  unfold textNodes
  split_ifs with h
  · rw [h]
    rfl
  · rfl

lemma Survives.read {t : Text} (h : Survives t) (hp : PrintableText t) :
    charsNode (xmlEscape t) = some (textNodes t) := by
  obtain ⟨-, hend, hblank⟩ := h
  rw [charsNode_xmlEscape hp, textNodes]
  rcases hblank with rfl | hblank
  · rfl
  · have hne : t ≠ [] := by
      rintro rfl
      cases hblank
    rw [hblank, if_neg Bool.false_ne_true, if_neg hend, if_neg hne]

lemma PrintableText.survives {t tag : Text} (hp : PrintableText t) (ht : '<' ∉ t)
    {nodes : List XmlNode}
    (h : charsNode (xmlEscape t) = some nodes) (hread : innerText (.element tag nodes) = t) :
    Survives t := by
  rw [charsNode_xmlEscape hp] at h
  split_ifs at h with hblank hend
  · rw [← Option.some.inj h] at hread
    obtain rfl : [] = t := hread
    exact ⟨ht, by decide, Or.inl rfl⟩
  · exact ⟨ht, hend, Or.inr (Bool.eq_false_iff.mpr hblank)⟩

end Decode

end DriveIntegrity.Status
