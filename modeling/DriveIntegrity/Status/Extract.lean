import DriveIntegrity.Surface.Grade
import DriveIntegrity.Status.Layout
import DriveIntegrity.Status.Values

/-! The status files that `deviceinfo` and `surface_scan` write. -/

namespace DriveIntegrity.Status

open Integrity (Text)

section Extract

/-- `a - b` in `size_t`. -/
def sizeSub (a b : ℕ) : ℕ := if b ≤ a then a - b else a + 2 ^ 64 - b

def substr (content : Text) (start count : ℕ) : Text := (content.drop start).take count

def extractBlock (content tag : Text) : Text :=
  match findText (marker tag) content, findText (marker ('/' :: tag)) content with
  | some start,
      some stop => substr content start (sizeSub (stop + (marker ('/' :: tag)).length) start)
  | _, _ => []

def copyBlock (content tag : Text) : Text :=
  if extractBlock content tag = [] then [] else "  ".toList ++ extractBlock content tag ++ ['\n']

lemma findText_block {tag before body : Text} (hb : Clear tag before) (ht : isXmlName tag = true)
    (hbody : Clear tag body) (after : Text) :
    findText (marker tag) (before ++ (marker tag ++ body ++ marker ('/' :: tag)) ++ after) =
      some before.length ∧
      findText (marker ('/' :: tag))
        (before ++ (marker tag ++ body ++ marker ('/' :: tag)) ++ after) =
        some (before ++ (marker tag ++ body)).length := by
  have hm : Avoids ('/' :: tag) (marker tag) :=
    avoids_marker (noAngle_slash (noAngle_of_isXmlName ht)) (noAngle_of_isXmlName ht)
      (isXmlName_ne_slash ht).symm
  constructor
  · rw [List.append_assoc, List.append_assoc, List.append_assoc]
    exact hb.1.findText_append _
  · rw [← ((hb.2.append (hm.append hbody.2)).findText_append after)]
    simp only [List.append_assoc]

lemma extractBlock_eq {tag before body : Text} (hb : Clear tag before) (ht : isXmlName tag = true)
    (hbody : Clear tag body) (after : Text) :
    extractBlock (before ++ (marker tag ++ body ++ marker ('/' :: tag)) ++ after) tag =
      marker tag ++ body ++ marker ('/' :: tag) := by
  obtain ⟨hopen, hclose⟩ := findText_block hb ht hbody after
  have hsize : sizeSub ((before ++ (marker tag ++ body)).length + (marker ('/' :: tag)).length)
      before.length =
      (marker tag ++ body ++ marker ('/' :: tag)).length := by
    rw [sizeSub, if_pos] <;> simp only [List.length_append] <;> omega
  rw [extractBlock, hopen, hclose]
  simp only [hsize, substr]
  rw [List.append_assoc before, List.drop_left, List.take_left]

lemma Section.block_ne_nil (s : Section) : s.block ≠ [] := by simp [Section.block, marker]

def NamesApart (schema : List (Text × List Text)) : Prop :=
  (schema.map Prod.fst).Nodup ∧ ∀ a ∈ schema, a.1 ≠ rootName ∧ ∀ b ∈ schema, a.1 ∉ b.2

instance (schema : List (Text × List Text)) : Decidable (NamesApart schema) :=
  inferInstanceAs (Decidable (_ ∧ _))

def Section.schema (s : Section) : Text × List Text := (s.tag, s.leaves.map Leaf.tag)

variable {sections : List Section} {tail : Text}

lemma leaf_tags_apart (h : NamesApart (sections.map Section.schema)) {s p : Section}
    (hs : s ∈ sections) (hp : p ∈ sections) : s.tag ∉ p.leaves.map Leaf.tag :=
  (h.2 _ (List.mem_map_of_mem hs)).2 _ (List.mem_map_of_mem hp)

lemma exists_block (h : NamesApart (sections.map Section.schema)) {s : Section}
    (hs : s ∈ sections) :
    ∃ before after, Clear s.tag before ∧
      renderStatus sections tail =
        before ++ (marker s.tag ++ s.body ++ marker ('/' :: s.tag)) ++ after := by
  have hroot : s.tag ≠ rootName := (h.2 _ (List.mem_map_of_mem hs)).1
  have hleaves : ∀ p ∈ sections, s.tag ∉ p.leaves.map Leaf.tag := fun p hp =>
    leaf_tags_apart h hs hp
  obtain ⟨pre, post, rfl⟩ := List.append_of_mem hs
  have hn := h.1
  rw [List.map_map, List.map_append, List.map_cons, List.nodup_append] at hn
  have hpre : ∀ p ∈ pre, s.tag ∉ p.names := by
    intro p hp
    rw [Section.names, List.mem_cons, not_or]
    refine ⟨fun he => hn.2.2 p.tag ?_ s.tag List.mem_cons_self he.symm,
      hleaves p (List.mem_append_left _ hp)⟩
    exact List.mem_map_of_mem hp
  refine ⟨marker rootName ++ (['\n'] ++ (pre.flatMap Section.render ++ "  ".toList)),
    '\n' :: post.flatMap Section.render ++ marker ('/' :: rootName) ++ tail, ?_, ?_⟩
  · exact (clear_marker s.name rootName_valid hroot).append ((clear_noAngle (by decide)).append
      ((clear_flatMap (fun p hp => p.clear s.name (hpre p hp))).append (clear_noAngle (by decide))))
  · simp [renderStatus, Section.render, Section.block]

lemma extractBlock_mem (h : NamesApart (sections.map Section.schema)) {s : Section}
    (hs : s ∈ sections) :
    extractBlock (renderStatus sections tail) s.tag = s.block := by
  obtain ⟨before, after, hbefore, hr⟩ := @exists_block sections tail h s hs
  rw [hr, extractBlock_eq hbefore s.name (s.body_clear s.name (leaf_tags_apart h hs hs)),
    Section.block]

lemma copyBlock_section (h : NamesApart (sections.map Section.schema)) {s : Section}
    (hs : s ∈ sections) :
    copyBlock (renderStatus sections tail) s.tag = s.render := by
  rw [copyBlock, extractBlock_mem h hs, if_neg s.block_ne_nil, Section.render]

lemma copyBlocks_sections (h : NamesApart (sections.map Section.schema)) {copied : List Section}
    (hc : ∀ s ∈ copied, s ∈ sections) :
    (copied.map Section.tag).flatMap (copyBlock (renderStatus sections tail)) =
      copied.flatMap Section.render := by
  rw [List.flatMap_map]
  exact List.flatMap_congr (fun s hs => copyBlock_section h (hc s hs))

end Extract

section Lines

def openLine (tag : Text) : Text := "  ".toList ++ marker tag ++ ['\n']

def closeLine (tag : Text) : Text := "  ".toList ++ marker ('/' :: tag) ++ ['\n']

def rootOpen : Text := "<DriveBabySitter>\n".toList

def rootClose : Text := "</DriveBabySitter>\n".toList

lemma Section.render_lines (s : Section) :
    s.render = openLine s.tag ++ s.leaves.flatMap Leaf.render ++ closeLine s.tag := by
  simp [Section.render, Section.block, Section.body, openLine, closeLine]

lemma renderStatus_lines (sections : List Section) :
    renderStatus sections ['\n'] = rootOpen ++ sections.flatMap Section.render ++ rootClose := by
  have ho : rootOpen = marker rootName ++ ['\n'] := by decide
  have hc : rootClose = marker ('/' :: rootName) ++ ['\n'] := by decide
  rw [ho, hc, renderStatus]
  simp

end Lines

end DriveIntegrity.Status
