import DriveIntegrity.Probe.SelectDrive

/-! The loop of `deviceinfo` over texts that may hold braces: an object is found by its first
block. -/

namespace DriveIntegrity.Probe

open Integrity (Text)
open Status (DriveStats)

section Blocks

variable {target : Text}

def letterKey : Text := quoted "Letter".toList ++ [':']

lemma letterKey_ne_nil : letterKey ≠ [] := List.cons_ne_nil _ _

lemma nextBlock_lead {lead : Text} (hl : '{' ∉ lead) (rest : Text) :
    nextBlock (lead ++ rest) = nextBlock rest := by
  have hskip : Skips ['{'] lead := skips_of_notMem hl
  unfold nextBlock
  rw [hskip]
  cases findText ['{'] rest with
  | none => rfl
  | some start =>
    simp only [Option.map_some]
    rw [Nat.add_comm start, List.drop_append]
    simp only [List.drop_eq_nil_of_le (Nat.le_add_right _ _), List.nil_append,
      Nat.add_sub_cancel_left]

lemma selectDrive_lead {lead : Text} (hl : '{' ∉ lead) (rest : Text) :
    selectDrive target (lead ++ rest) = selectDrive target rest := by
  cases h : nextBlock rest with
  | none => rw [selectDrive_none h, selectDrive_none ((nextBlock_lead hl rest).trans h)]
  | some b => rw [selectDrive_some h, selectDrive_some ((nextBlock_lead hl rest).trans h)]

/-- A text up to the first closing brace. -/
def firstBlock (t : Text) : Text := t.takeWhile (fun c => c != '}') ++ ['}']

lemma firstBlock_eq {body : Text} (hb : '}' ∉ body) (rest : Text) :
    firstBlock (body ++ '}' :: rest) = body ++ ['}'] := by
  have hall : ∀ c ∈ body, (c != '}') = true := by
    intro c hc
    rw [bne_iff_ne]
    rintro rfl
    exact hb hc
  rw [firstBlock, List.takeWhile_append_of_pos hall, List.takeWhile_cons_of_neg (by simp),
    List.append_nil]

lemma getJsonValue_absent {block : Text} (h : ¬letterKey <:+: block) :
    getJsonValue block "Letter".toList = "N/A".toList := by
  unfold getJsonValue
  have hnone : findText (quoted "Letter".toList ++ [':']) block = none := findText_none h
  rw [hnone]

lemma selectDrive_pass {block rest : Text} (ht : target ≠ "N/A".toList) (hb : '}' ∉ block)
    (h : ¬letterKey <:+: '{' :: block ++ ['}']) :
    selectDrive target ('{' :: block ++ '}' :: rest) = selectDrive target rest := by
  have hletter : toUpper (getJsonValue ('{' :: block ++ ['}']) "Letter".toList) ≠ target := by
    rw [getJsonValue_absent h]
    exact ht.symm
  have hblock : nextBlock ('{' :: block ++ '}' :: rest) = some ('{' :: block ++ ['}'], rest) :=
    nextBlock_eq List.not_mem_nil hb rest
  rw [selectDrive_some hblock, if_neg hletter]

lemma skips_close : Skips letterKey ['}'] := skips_unquoted (by decide)

lemma selectDrive_junk (ht : target ≠ "N/A".toList) {junk : Text} (h : Skips letterKey junk)
    (rest : Text) :
    selectDrive target (junk ++ '}' :: rest) = selectDrive target rest := by
  induction hn : junk.length using Nat.strong_induction_on generalizing junk with
  | _ n ih =>
    by_cases hopen : '{' ∈ junk
    · obtain ⟨lead, inner, rfl, hl⟩ := List.eq_append_cons_of_mem hopen
      have hinner : Skips letterKey ('{' :: inner) := h.of_append
      rw [List.append_assoc, selectDrive_lead hl, List.cons_append]
      by_cases hclose : '}' ∈ inner
      · obtain ⟨block, junk, rfl, hb⟩ := List.eq_append_cons_of_mem hclose
        have hsplit : '{' :: (block ++ '}' :: junk) = ('{' :: block ++ ['}']) ++ junk := by simp
        have hblock : ¬letterKey <:+: '{' :: block ++ ['}'] := by
          intro hin
          apply hinner.not_occurs letterKey_ne_nil
          rw [hsplit]
          exact hin.trans (List.prefix_append _ _).isInfix
        rw [hsplit] at hinner
        rw [List.append_assoc, List.cons_append, ← List.cons_append, selectDrive_pass ht hb hblock]
        refine ih junk.length ?_ hinner.of_append rfl
        rw [← hn]
        simp only [List.length_append, List.length_cons]
        omega
      · have hblock : ¬letterKey <:+: '{' :: inner ++ ['}'] :=
          (hinner.append skips_close).not_occurs letterKey_ne_nil
        rw [← List.cons_append, selectDrive_pass ht hclose hblock]
    · have hlead : '{' ∉ junk ++ ['}'] := by
        rw [List.mem_append, not_or]
        exact ⟨hopen, by decide⟩
      rw [← selectDrive_lead hlead rest, List.append_assoc]
      rfl

variable {head letter tail : Text}

/-- The object up to its letter. -/
def letterText (head letter : Text) : Text := head ++ (letterKey ++ (' ' :: quoted letter ++ [',']))

lemma selectDrive_first (hhead : '"' ∉ head) (hclose : '}' ∉ letterText head letter ++ tail)
    (hletter : '"' ∉ letter) (rest : Text) :
    selectDrive target ('{' :: (letterText head letter ++ tail) ++ '}' :: rest) =
      if toUpper letter = target then
        some (readStats target ('{' :: (letterText head letter ++ tail) ++ ['}']))
      else selectDrive target rest := by
  have hblock : nextBlock ('{' :: (letterText head letter ++ tail) ++ '}' :: rest) =
      some ('{' :: (letterText head letter ++ tail) ++ ['}'], rest) :=
    nextBlock_eq List.not_mem_nil hclose rest
  have hskip : Skips letterKey ('{' :: head) := by
    apply skips_unquoted
    rw [List.mem_cons, not_or]
    exact ⟨by decide, hhead⟩
  have hread :
      getJsonValue ('{' :: (letterText head letter ++ tail) ++ ['}']) "Letter".toList = letter := by
    have h : getJsonValue ('{' :: head ++ (letterKey ++ (' ' :: (JsonValue.quoted letter).text ++
        ',' :: (tail ++ ['}'])))) "Letter".toList = letter :=
      getJsonValue_eq (v := .quoted letter) hskip hletter (Or.inl rfl)
    refine (congrArg (fun t => getJsonValue t "Letter".toList) ?_).trans h
    simp only [letterText, letterKey, JsonValue.text, List.cons_append, List.append_assoc,
      List.nil_append]
  rw [selectDrive_some hblock, hread]

lemma selectDrive_object (ht : target ≠ "N/A".toList) (hhead : '"' ∉ head)
    (hclose : '}' ∉ letterText head letter)
    (hletter : '"' ∉ letter) (htail : Skips letterKey tail) (rest : Text) :
    selectDrive target ('{' :: (letterText head letter ++ tail) ++ '}' :: rest) =
      if toUpper letter = target then
        some (readStats target (firstBlock ('{' :: (letterText head letter ++ tail) ++ ['}'])))
      else selectDrive target rest := by
  have hopen : ∀ t : Text, '}' ∉ t → '}' ∉ '{' :: t := by
    intro t h
    rw [List.mem_cons, not_or]
    exact ⟨by decide, h⟩
  by_cases hbrace : '}' ∈ tail
  · obtain ⟨block, junk, rfl, hb⟩ := List.eq_append_cons_of_mem hbrace
    have hbody : '}' ∉ letterText head letter ++ block := by
      rw [List.mem_append, not_or]
      exact ⟨hclose, hb⟩
    have hsplit : ∀ rest : Text,
        '{' :: (letterText head letter ++ (block ++ '}' :: junk)) ++ '}' :: rest =
        '{' :: (letterText head letter ++ block) ++ '}' :: (junk ++ '}' :: rest) := by
      intro rest
      simp only [List.cons_append, List.append_assoc]
    have hjunk : Skips letterKey junk := by
      rw [← List.singleton_append, ← List.append_assoc] at htail
      exact htail.of_append
    rw [hsplit rest, hsplit [], firstBlock_eq (hopen _ hbody),
      selectDrive_first hhead hbody hletter, selectDrive_junk ht hjunk]
  · have hbody : '}' ∉ letterText head letter ++ tail := by
      rw [List.mem_append, not_or]
      exact ⟨hclose, hbrace⟩
    rw [firstBlock_eq (hopen _ hbody), selectDrive_first hhead hbody hletter]

end Blocks

section Records

variable {target : Text}

/-- The key of the letter does not begin in the printed value or at its end. -/
def JsonValue.Unlettered (v : JsonValue) : Prop :=
  ∀ c ∈ [',', '\n'], Skips letterKey (v.text ++ [c])

/-- The letter can be read, and no other text spells its key. -/
structure DriveRecord.Lettered (r : DriveRecord) : Prop where
  letter : CleanText r.letter
  apart : ∀ f ∈ r.fields.tail, f.2.Unlettered

lemma skips_member_stop {f : Text × JsonValue} (hf : isWord f.1 = true ∧ f.1 ≠ "Letter".toList)
    (hv : f.2.Unlettered)
    {c : Char} (hc : c ∈ [',', '\n']) : Skips letterKey (member f ++ [c]) := by
  rw [member_split]
  apply (skips_unquoted (by decide)).append
  apply (skips_plain (by decide) (by decide) (quote_notMem hf.1) (Or.inl hf.2)).append
  apply (skips_unquoted (by decide)).append
  exact hv c hc

lemma skips_members {fields : List (Text × JsonValue)}
    (h : ∀ f ∈ fields, (isWord f.1 = true ∧ f.1 ≠ "Letter".toList) ∧ f.2.Unlettered) :
    Skips letterKey (members fields) := by
  induction fields with
  | nil => exact skips_nil
  | cons f fields ih =>
    rw [List.forall_mem_cons] at h
    cases fields with
    | nil => exact skips_member_stop h.1.1 h.1.2 (by decide)
    | cons g fields =>
      have hcomma : member f ++ ",\n".toList = (member f ++ [',']) ++ ['\n'] := by
        rw [List.append_assoc]
        rfl
      change Skips letterKey (member f ++ ",\n".toList ++ members (g :: fields))
      rw [hcomma]
      apply Skips.append _ (ih h.2)
      apply (skips_member_stop h.1.1 h.1.2 (by decide)).append
      exact skips_unquoted (by decide)

lemma object_letter (r : DriveRecord) :
    object r.fields = '{' :: (letterText "\n        ".toList r.letter ++
      ('\n' :: members r.fields.tail ++ "    ".toList)) ++ ['}'] := by
  have hfirst : members r.fields =
      member ("Letter".toList, .quoted r.letter) ++ ",\n".toList ++ members r.fields.tail := rfl
  have hlead : "\n        ".toList = '\n' :: "        ".toList := rfl
  have hcolon : ": ".toList = [':', ' '] := rfl
  have hcomma : ",\n".toList = [',', '\n'] := rfl
  rw [object_eq, hfirst]
  unfold member letterText letterKey
  rw [hlead, hcolon, hcomma]
  simp only [JsonValue.text, List.cons_append, List.append_assoc, List.nil_append]

lemma DriveRecord.Lettered.skips {r : DriveRecord} (hr : r.Lettered) :
    Skips letterKey ('\n' :: members r.fields.tail ++ "    ".toList) := by
  have hnames : ∀ f ∈ r.fields.tail, isWord f.1 = true ∧ f.1 ≠ "Letter".toList := by
    intro f hf
    have hname : f.1 ∈ fieldNames.tail := by
      rw [← names_eq r, ← List.map_tail]
      exact List.mem_map_of_mem hf
    exact (by decide : ∀ name ∈ fieldNames.tail, isWord name = true ∧
      name ≠ "Letter".toList) _ hname
  have hline : Skips letterKey ['\n'] := skips_unquoted (by decide)
  apply (hline.append (skips_members (fun f hf => ⟨hnames f hf, hr.apart f hf⟩))).append
  exact skips_unquoted (by decide)

lemma DriveRecord.Lettered.open_letter {r : DriveRecord} (hr : r.Lettered) :
    '}' ∉ letterText "\n        ".toList r.letter := by
  have hfixed : '}' ∉ "\n        ".toList ∧ '}' ∉ letterKey := by decide
  unfold letterText
  simp only [quoted, List.mem_append, List.mem_cons, List.not_mem_nil, or_false, not_or]
  exact ⟨hfixed.1, hfixed.2, ⟨by decide, ⟨by decide, hr.letter.1.2⟩, by decide⟩, by decide⟩

lemma selectDrive_records {records : List DriveRecord} (ht : target ≠ "N/A".toList)
    (hr : ∀ r ∈ records, r.Lettered) {lead : Text} (hl : '{' ∉ lead) (first : Bool) :
    selectDrive target (lead ++ (printDrives first records ++ "\n]\n".toList)) =
      (records.find? (fun r => decide (toUpper r.letter = target))).map
        (fun r => readStats target (firstBlock (object r.fields))) := by
  induction records generalizing lead first with
  | nil =>
    apply selectDrive_none
    apply nextBlock_none
    have hend : '{' ∉ "\n]\n".toList := by decide
    rw [List.mem_append, not_or]
    exact ⟨hl, hend⟩
  | cons r records ih =>
    rw [List.forall_mem_cons] at hr
    obtain ⟨hfirst, hrest⟩ := hr
    have hlead : '{' ∉ lead ++ ((if first then [] else ",\n".toList) ++ "    ".toList) := by
      rw [List.mem_append, not_or]
      refine ⟨hl, ?_⟩
      cases first <;> decide
    have hprint : lead ++ (printDrives first (r :: records) ++ "\n]\n".toList) =
        (lead ++ ((if first then [] else ",\n".toList) ++ "    ".toList)) ++
          ('{' ::
            (letterText "\n        ".toList
              r.letter ++ ('\n' :: members r.fields.tail ++ "    ".toList)) ++
            '}' :: ([] ++ (printDrives false records ++ "\n]\n".toList))) := by
      rw [printDrives_cons, object_letter]
      simp only [List.append_assoc, List.cons_append, List.nil_append]
    rw [hprint, selectDrive_lead hlead,
      selectDrive_object ht (by decide) hfirst.open_letter hfirst.letter.2 hfirst.skips,
      ← object_letter, ih hrest List.not_mem_nil]
    by_cases hletter : toUpper r.letter = target
    · rw [if_pos hletter, List.find?_cons_of_pos (by simpa using hletter), Option.map_some]
    · rw [if_neg hletter, List.find?_cons_of_neg (by simpa using hletter)]

end Records

end DriveIntegrity.Probe
