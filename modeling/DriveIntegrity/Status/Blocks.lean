import DriveIntegrity.Library.Search
import DriveIntegrity.Status.Extract

/-! What `ExtractBlock` cuts out of a status file, in whatever state it is. -/

namespace DriveIntegrity.Status

open Integrity (Text)

section Program

/-- The copy in `surface_scan`. -/
def SurfaceScan.extractBlock (content tag : Text) : Text :=
  let startTag := '<' :: tag ++ ['>']
  let endTag := '<' :: '/' :: tag ++ ['>']
  match findText startTag content, findText endTag content with
  | some start, some stop => substr content start (sizeSub (stop + endTag.length) start)
  | _, _ => []

lemma surfaceScan_extractBlock_eq (content tag : Text) :
    SurfaceScan.extractBlock content tag = extractBlock content tag := rfl

/-- Nothing, or a block from its tag to its end tag. -/
def WholeOrNothing (content tag block : Text) : Prop :=
  (block = [] ∨ marker tag <+: block ∧ marker ('/' :: tag) <:+ block) ∧ block <:+: content

/-- The length of the block stays a `size_t`, sum and difference. -/
def NoWrap (content tag : Text) : Prop :=
  ∀ start stop, findText (marker tag) content = some start →
    findText (marker ('/' :: tag)) content = some stop →
    stop + (marker ('/' :: tag)).length ≤ content.length ∧
    start ≤ stop + (marker ('/' :: tag)).length

/-- Both programs cut out the same, a whole block or nothing, and no length wraps. -/
def ExtractsWhole (content tag : Text) : Prop :=
  WholeOrNothing content tag (extractBlock content tag) ∧ NoWrap content tag ∧
    SurfaceScan.extractBlock content tag = extractBlock content tag

end Program

section Cut

variable {content tag : Text} {start stop : ℕ}

lemma substr_isInfix (content : Text) (start count : ℕ) : substr content start count <:+: content :=
  (List.take_prefix _ _).isInfix.trans (List.drop_suffix _ _).isInfix

lemma extractBlock_isInfix (content tag : Text) : extractBlock content tag <:+: content := by
  unfold extractBlock
  split
  · exact substr_isInfix _ _ _
  · exact List.nil_infix

lemma extractBlock_found (hs : FirstAt (marker tag) content start)
    (he : FirstAt (marker ('/' :: tag)) content stop) :
    extractBlock content tag =
      substr content start (sizeSub (stop + (marker ('/' :: tag)).length) start) := by
  rw [extractBlock, findText_eq_some_iff.mpr hs, findText_eq_some_iff.mpr he]

lemma extractBlock_missing
    (h : ∀ start stop, FirstAt (marker tag) content start →
      ¬FirstAt (marker ('/' :: tag)) content stop) :
    extractBlock content tag = [] := by
  unfold extractBlock
  split
  · next start stop hs he =>
      exact absurd (findText_eq_some_iff.mp he) (h start stop (findText_eq_some_iff.mp hs))
  · rfl

lemma extractBlock_ordered (hs : FirstAt (marker tag) content start)
    (he : FirstAt (marker ('/' :: tag)) content stop) (h : start ≤ stop) :
    marker tag <+: extractBlock content tag ∧ marker ('/' :: tag) <:+ extractBlock content tag := by
  have hlen : (marker tag).length ≤ (marker ('/' :: tag)).length := by simp
  have hcount : sizeSub (stop + (marker ('/' :: tag)).length) start =
      (stop - start) + (marker ('/' :: tag)).length := by
    rw [sizeSub, if_pos (by omega)]
    omega
  rw [extractBlock_found hs he, hcount, substr]
  refine ⟨List.prefix_take_iff.mpr ⟨hs.1, by omega⟩, ?_⟩
  obtain ⟨rest, hrest⟩ := he.1
  have hdrop : stop - start + start = stop := by omega
  rw [List.take_add, List.drop_drop, Nat.add_comm start, hdrop, ← hrest, List.take_left]
  exact List.suffix_append _ _

lemma extractBlock_reversed (hs : FirstAt (marker tag) content start)
    (he : FirstAt (marker ('/' :: tag)) content stop) (hlt : stop < start)
    (hle : start ≤ stop + (marker ('/' :: tag)).length)
    (h : extractBlock content tag = [] ∨ marker ('/' :: tag) <:+ extractBlock content tag) :
    start = stop + (marker ('/' :: tag)).length := by
  rw [extractBlock_found hs he, sizeSub, if_pos hle, substr] at h
  rcases h with h | h
  · have hne : content.drop start ≠ [] := by
      intro hnil
      have hp := hs.1
      rw [hnil, List.prefix_nil] at hp
      exact List.cons_ne_nil _ _ hp
    rcases List.take_eq_nil_iff.mp h with h | h
    · omega
    · exact absurd h hne
  · have hlen := h.length_le
    rw [List.length_take] at hlen
    omega

lemma extractBlock_wrapped (hs : FirstAt (marker tag) content start)
    (he : FirstAt (marker ('/' :: tag)) content stop)
    (h : stop + (marker ('/' :: tag)).length < start)
    (hsize : content.length < 2 ^ 64) : extractBlock content tag = content.drop start := by
  have hbound := hs.le
  rw [extractBlock_found hs he, sizeSub, if_neg (not_le.mpr h), substr]
  apply List.take_of_length_le
  rw [List.length_drop]
  omega

/-- A block or nothing is cut out exactly where the tag does not stand behind the end tag, or stands
right behind it. -/
theorem extractBlock_whole_iff (content tag : Text) :
    ExtractsWhole content tag ↔
      ∀ start stop, FirstAt (marker tag) content start →
        FirstAt (marker ('/' :: tag)) content stop →
        start ≤ stop ∨ start = stop + (marker ('/' :: tag)).length := by
  constructor
  · rintro ⟨hwhole, hwrap, _⟩ start stop hs he
    rcases Nat.lt_or_ge stop start with hlt | hge
    · have hle := (hwrap start stop (findText_eq_some_iff.mpr hs) (findText_eq_some_iff.mpr he)).2
      exact Or.inr (extractBlock_reversed hs he hlt hle (hwhole.1.imp_right And.right))
    · exact Or.inl hge
  · intro h
    refine ⟨⟨?_, extractBlock_isInfix content tag⟩, ?_, surfaceScan_extractBlock_eq content tag⟩
    · by_cases hfound : ∃ start stop, FirstAt (marker tag) content start ∧
        FirstAt (marker ('/' :: tag)) content stop
      · obtain ⟨start, stop, hs, he⟩ := hfound
        rcases h start stop hs he with hle | heq
        · exact Or.inr (extractBlock_ordered hs he hle)
        · left
          rw [extractBlock_found hs he, heq, sizeSub, if_pos le_rfl, Nat.sub_self, substr,
            List.take_zero]
      · left
        push Not at hfound
        exact extractBlock_missing hfound
    · intro start stop hs he
      have hs' := findText_eq_some_iff.mp hs
      have he' := findText_eq_some_iff.mp he
      refine ⟨he'.le, ?_⟩
      rcases h start stop hs' he' with hle | heq <;> omega

/-- Of the files that the tools write every block is cut out whole. -/
theorem extractsWhole_renderStatus {sections : List Section}
    (h : NamesApart (sections.map Section.schema))
    (tail : Text) {s : Section} (hs : s ∈ sections) :
    ExtractsWhole (renderStatus sections tail) s.tag := by
  refine ⟨⟨Or.inr ?_, extractBlock_isInfix _ _⟩, ?_, surfaceScan_extractBlock_eq _ _⟩
  · rw [extractBlock_mem h hs, Section.block, List.append_assoc]
    refine ⟨List.prefix_append _ _, ?_⟩
    rw [← List.append_assoc]
    exact List.suffix_append _ _
  · intro start stop hstart hstop
    obtain ⟨before, after, hbefore, hr⟩ := @exists_block sections tail h s hs
    obtain ⟨hopen, hclose⟩ :=
      findText_block hbefore s.name (s.body_clear s.name (leaf_tags_apart h hs hs)) after
    rw [hr] at hstart hstop ⊢
    obtain rfl := Option.some.inj (hopen.symm.trans hstart)
    obtain rfl := Option.some.inj (hclose.symm.trans hstop)
    simp only [List.length_append]
    omega

end Cut

section Reordered

/-- The end of a block in front of its beginning. -/
def reordered : Text :=
  "<DriveBabySitter>\n  </SurfaceScanInfo>\n  <SurfaceScanInfo>\n</DriveBabySitter>\n".toList

/-- The rest of the file is taken, with the end of the root. -/
theorem extractBlock_reordered :
    extractBlock reordered "SurfaceScanInfo".toList =
      "<SurfaceScanInfo>\n</DriveBabySitter>\n".toList ∧
      ¬ExtractsWhole reordered "SurfaceScanInfo".toList := by
  have hs : findText (marker "SurfaceScanInfo".toList) reordered = some 41 := by decide +kernel
  have he : findText (marker ('/' :: "SurfaceScanInfo".toList)) reordered = some 20 := by
    decide +kernel
  refine ⟨?_, fun h => absurd (h.2.1 41 20 hs he).2 (by decide)⟩
  rw [extractBlock_wrapped (findText_eq_some_iff.mp hs) (findText_eq_some_iff.mp he) (by decide)
    (by decide +kernel)]
  decide +kernel

end Reordered

end DriveIntegrity.Status
