import DriveIntegrity.Probe.Record
import DriveIntegrity.Status.Writers

/-! `deviceinfo` finds the record of its drive in the output of `full_probe`. -/

namespace DriveIntegrity.Probe

open Integrity (Text)
open Status (fixedText intText padded LocalTime DriveStats)

section Program

def toUpper (s : Text) : Text := s.map Char.toUpper

def isBlank (c : Char) : Bool := c == ' ' || c == '\t' || c == '\n' || c == '\r'

def endsValue (c : Char) : Bool := c == ',' || c == '\n' || c == '\r' || c == '}'

def isSpace (c : Char) : Bool :=
  c == ' ' || c == '\t' || c == '\n' || c == '\x0b' || c == '\x0c' || c == '\r'

def getJsonValue (block key : Text) : Text :=
  match findText (quoted key ++ [':']) block with
  | none => "N/A".toList
  | some pos =>
    match (block.drop (pos + (quoted key ++ [':']).length)).dropWhile isBlank with
    | [] => "N/A".toList
    | c :: rest =>
      if c = '"' then
        match findText ['"'] rest with
        | none => "N/A".toList
        | some stop => rest.take stop
      else ((c :: rest).takeWhile (fun d => !endsValue d)).filter (fun d => !isSpace d)

/-- The next text from a brace to a closing brace, and what follows it. -/
def nextBlock (json : Text) : Option (Text × Text) :=
  match findText ['{'] json with
  | none => none
  | some start =>
    match findText ['}'] (json.drop start) with
    | none => none
    | some stop => some ((json.drop start).take (stop + 1), (json.drop start).drop (stop + 1))

def targetDrive (arg : Text) : Text :=
  if toUpper arg ≠ [] ∧ (toUpper arg).getLast? ≠ some ':' then toUpper arg ++ [':'] else toUpper arg

def readStats (targetDrive block : Text) : DriveStats where
  model := getJsonValue block "Model".toList
  serial := getJsonValue block "Serial".toList
  totalGB := getJsonValue block "TotalGB".toList
  usedGB := getJsonValue block "UsedGB".toList
  freeGB := getJsonValue block "FreeGB".toList
  interface := getJsonValue block "Interface".toList
  tech := getJsonValue block "Technology".toList
  fsType := getJsonValue block "FsType".toList
  hours := getJsonValue block "Hours".toList
  temp := getJsonValue block "Temp".toList
  reallocated := getJsonValue block "Reallocated_Sectors_Ct".toList
  health := getJsonValue block "Health".toList
  isSystemDrive := decide (getJsonValue block "Stress_Profile".toList = "System Drive".toList ∨
    targetDrive = "C:".toList)

lemma nextBlock_lt {json block rest : Text} (h : nextBlock json = some (block, rest)) :
    rest.length < json.length := by
  rw [nextBlock] at h
  split at h
  · cases h
  · rename_i start hs
    split at h
    · cases h
    · obtain ⟨_, rfl⟩ := Prod.mk.inj (Option.some.inj h)
      cases json with
      | nil => cases hs
      | cons c json =>
        rw [List.length_drop, List.length_drop, List.length_cons]
        omega

/-- The loop over the blocks; none if the drive is not found. -/
def selectDrive (targetDrive json : Text) : Option DriveStats :=
  match _h : nextBlock json with
  | none => none
  | some (block, rest) =>
    if toUpper (getJsonValue block "Letter".toList) = targetDrive then
      some (readStats targetDrive block)
    else selectDrive targetDrive rest
termination_by json.length
decreasing_by exact nextBlock_lt _h

end Program

section Read

variable {key t : Text} {c : Char}

/-- What `GetJsonValue` can read: a string without quotes, or a bare token. -/
def JsonValue.Readable : JsonValue → Prop
  | quoted t => '"' ∉ t
  | bare t => t ≠ [] ∧ ∀ c ∈ t, c ≠ '"' ∧ endsValue c = false ∧ isSpace c = false

/-- The key and a colon do not begin in the printed value. -/
def JsonValue.Tame (key : Text) (v : JsonValue) : Prop :=
  Skips (DriveIntegrity.quoted key ++ [':']) (v.text ++ [','])

lemma JsonValue.Readable.tame {v : JsonValue} (hv : v.Readable) (hk : isWord key = true) :
    v.Tame key := by
  cases v with
  | quoted t =>
    apply skips_plain hk (by decide) hv
    right
    intro rest h
    have hc : ':' = ',' := (List.cons_prefix_cons.mp h).1
    exact absurd hc (by decide)
  | bare t =>
    apply skips_unquoted
    rw [JsonValue.text, List.mem_append, not_or]
    exact ⟨fun hm => (hv.2 _ hm).1 rfl, by decide⟩

lemma member_split (f : Text × JsonValue) (rest : Text) :
    member f ++ rest =
      "        ".toList ++ ((quoted f.1 ++ [':']) ++ ([' '] ++ (f.2.text ++ rest))) := by
  have hcolon : ": ".toList = [':'] ++ [' '] := rfl
  unfold member
  simp only [hcolon, List.append_assoc]

lemma skips_member {f : Text × JsonValue} (hk : isWord key = true) (hf : isWord f.1 = true)
    (hne : f.1 ≠ key)
    (hv : f.2.Tame key) : Skips (quoted key ++ [':']) (member f ++ ",\n".toList) := by
  have hcomma : f.2.text ++ ",\n".toList = (f.2.text ++ [',']) ++ ['\n'] := by
    rw [List.append_assoc]
    rfl
  rw [member_split, hcomma]
  apply (skips_unquoted (by decide)).append
  apply (skips_plain hk (by decide) (quote_notMem hf) (Or.inl hne)).append
  apply (skips_unquoted (by decide)).append
  exact Skips.append hv (skips_unquoted (by decide))

lemma members_append (pre : List (Text × JsonValue)) (f : Text × JsonValue)
    (post : List (Text × JsonValue)) :
    ∃ c rest, (c = ',' ∨ c = '\n') ∧
      members (pre ++ f :: post) = pre.flatMap (fun g => member g ++ ",\n".toList) ++
        (member f ++ c :: rest) := by
  induction pre with
  | nil =>
    cases post with
    | nil => exact ⟨'\n', [], Or.inr rfl, rfl⟩
    | cons g post => exact ⟨',', '\n' :: members (g :: post), Or.inl rfl, by simp [members]⟩
  | cons g pre ih =>
    obtain ⟨c, rest, hc, hm⟩ := ih
    refine ⟨c, rest, hc, ?_⟩
    have hstep : members (g :: (pre ++ f :: post)) =
        member g ++ ",\n".toList ++ members (pre ++ f :: post) := by
      cases pre <;> rfl
    rw [List.cons_append, hstep, hm, List.flatMap_cons, List.append_assoc, List.append_assoc,
      List.append_assoc]

lemma JsonValue.Readable.text_head {v : JsonValue} (hv : v.Readable) :
    ∃ d t, v.text = d :: t ∧ isBlank d = false := by
  cases v with
  | quoted t => exact ⟨'"', t ++ ['"'], rfl, rfl⟩
  | bare t =>
    obtain ⟨d, t, rfl⟩ := List.exists_cons_of_ne_nil hv.1
    refine ⟨d, t, rfl, ?_⟩
    have hd := (hv.2 d List.mem_cons_self).2.2
    by_contra hb
    rw [Bool.not_eq_false, isBlank, Bool.or_eq_true, Bool.or_eq_true, Bool.or_eq_true] at hb
    rcases hb with ((hb | hb) | hb) | hb <;>
    · rw [beq_iff_eq.mp hb] at hd
      exact absurd hd (by decide)

lemma getJsonValue_eq {pre rest : Text} (hpre : Skips (quoted key ++ [':']) pre) {v : JsonValue}
    (hv : v.Readable) (hc : c = ',' ∨ c = '\n') :
    getJsonValue (pre ++ ((quoted key ++ [':']) ++ (' ' :: v.text ++ c :: rest))) key =
      v.shown := by
  have hdrop : (pre ++ ((quoted key ++ [':']) ++ (' ' :: v.text ++ c :: rest))).drop
      (pre.length + (quoted key ++ [':']).length) = ' ' :: v.text ++ c :: rest := by
    rw [← List.append_assoc, ← List.length_append, List.drop_left]
  obtain ⟨d, t, ht, hd⟩ := hv.text_head
  have hblank : (' ' :: v.text ++ c :: rest).dropWhile isBlank = v.text ++ c :: rest := by
    have hspace : isBlank ' ' = true := by decide
    rw [List.cons_append, List.dropWhile_cons_of_pos hspace, ht, List.cons_append,
      List.dropWhile_cons_of_neg (by simp [hd])]
  rw [getJsonValue, hpre.findText_append]
  simp only [hdrop, hblank]
  cases v with
  | quoted t =>
    have hstop : findText ['"'] (t ++ (['"'] ++ c :: rest)) = some t.length :=
      Skips.findText_append (skips_of_notMem hv) _
    have htext : (JsonValue.quoted t).text ++ c :: rest = '"' :: (t ++ (['"'] ++ c :: rest)) := by
      simp [JsonValue.text, quoted]
    rw [htext]
    simp only [if_true, hstop, List.take_left, JsonValue.shown]
  | bare t =>
    have hq : d ≠ '"' := (hv.2 d (by rw [show t = _ from ht]; exact List.mem_cons_self)).1
    have hstop : ((JsonValue.bare t).text ++ c :: rest).takeWhile (fun e => !endsValue e) = t := by
      have hall : ∀ e ∈ t, (!endsValue e) = true := fun e he => by
        rw [(hv.2 e he).2.1, Bool.not_false]
      have hend : endsValue c = true := by rcases hc with rfl | rfl <;> decide
      rw [JsonValue.text, List.takeWhile_append_of_pos hall,
        List.takeWhile_cons_of_neg (by simp [hend]), List.append_nil]
    have hspace : t.filter (fun e => !isSpace e) = t := by
      apply List.filter_eq_self.mpr
      exact fun e he => by rw [(hv.2 e he).2.2, Bool.not_false]
    rw [ht, List.cons_append] at hstop ⊢
    simp only [if_neg hq, hstop, hspace, JsonValue.shown]

lemma getJsonValue_object {pre post : List (Text × JsonValue)} {v : JsonValue}
    (hk : isWord key = true)
    (hv : v.Readable) (hpre : ∀ f ∈ pre, isWord f.1 = true ∧ f.1 ≠ key ∧ f.2.Tame key) :
    getJsonValue (object (pre ++ (key, v) :: post)) key = v.shown := by
  obtain ⟨c, rest, hc, hm⟩ := members_append pre (key, v) post
  have hskip : Skips (quoted key ++ [':'])
      ("\x7b\n".toList ++
        (pre.flatMap (fun g => member g ++ ",\n".toList) ++ "        ".toList)) := by
    apply (skips_unquoted (by decide)).append
    apply Skips.append _ (skips_unquoted (by decide))
    apply skips_flatMap
    intro f hf
    obtain ⟨hw, hne, ht⟩ := hpre f hf
    exact skips_member hk hw hne ht
  have hobject : object (pre ++ (key, v) :: post) =
      "\x7b\n".toList ++ (pre.flatMap (fun g => member g ++ ",\n".toList) ++ "        ".toList) ++
        ((quoted key ++ [':']) ++ (' ' :: v.text ++ c :: (rest ++ "    \x7d".toList))) := by
    unfold object
    rw [hm, member_split]
    simp only [List.append_assoc, List.cons_append, List.nil_append]
  rw [hobject]
  exact getJsonValue_eq hskip hv hc

end Read

section Blocks

def NoBrace (t : Text) : Prop := '{' ∉ t ∧ '}' ∉ t

lemma noBrace_append {s t : Text} : NoBrace (s ++ t) ↔ NoBrace s ∧ NoBrace t := by
  simp only [NoBrace, List.mem_append, not_or]
  tauto

lemma nextBlock_eq {lead body : Text} (hl : '{' ∉ lead) (hb : '}' ∉ body) (rest : Text) :
    nextBlock (lead ++ ('{' :: body ++ '}' :: rest)) = some ('{' :: body ++ ['}'], rest) := by
  have hopen : findText ['{'] (lead ++ (['{'] ++ (body ++ '}' :: rest))) = some lead.length :=
    (skips_of_notMem hl).findText_append _
  have hclose : findText ['}'] ('{' :: body ++ (['}'] ++ rest)) = some ('{' :: body).length := by
    apply Skips.findText_append
    apply skips_of_notMem
    rw [List.mem_cons, not_or]
    exact ⟨by decide, hb⟩
  have hblock : '{' :: body ++ '}' :: rest = ('{' :: body ++ ['}']) ++ rest := by simp
  have hlen : ('{' :: body).length + 1 = ('{' :: body ++ ['}']).length := by simp
  unfold nextBlock
  rw [show '{' :: body ++ '}' :: rest = ['{'] ++ (body ++ '}' :: rest) from rfl, hopen]
  simp only [List.drop_left]
  rw [show ['{'] ++ (body ++ '}' :: rest) = '{' :: body ++ (['}'] ++ rest) from rfl, hclose]
  simp only
  rw [hlen, show '{' :: body ++ (['}'] ++ rest) = ('{' :: body ++ ['}']) ++ rest by simp,
    List.take_left, List.drop_left]

lemma nextBlock_none {json : Text} (h : '{' ∉ json) : nextBlock json = none := by
  have hopen : findText ['{'] json = none :=
    (skips_of_notMem h).findText_eq_none (List.cons_ne_nil _ _)
  rw [nextBlock, hopen]

lemma selectDrive_some {target json block rest : Text} (h : nextBlock json = some (block, rest)) :
    selectDrive target json =
      if toUpper (getJsonValue block "Letter".toList) = target then some (readStats target block)
      else selectDrive target rest := by
  rw [selectDrive]
  split
  · rename_i hn
    cases h.symm.trans hn
  · rename_i b r hs
    obtain ⟨rfl, rfl⟩ := Prod.mk.inj (Option.some.inj (h.symm.trans hs))
    rfl

lemma selectDrive_none {target json : Text} (h : nextBlock json = none) :
    selectDrive target json = none := by
  rw [selectDrive]
  split
  · rfl
  · rename_i hs
    cases h.symm.trans hs

end Blocks

end DriveIntegrity.Probe
