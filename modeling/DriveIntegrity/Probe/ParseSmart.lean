import DriveIntegrity.Probe.Report
import DriveIntegrity.Probe.GetJsonValue

/-! `ParseSmart` looks the attributes up in the text of the report. -/

namespace DriveIntegrity.Probe

open Integrity (Text)

section Program

/-- The characters that `CleanStr` takes off at both ends. -/
def isTrimmed (c : Char) : Bool := c == ' ' || c == '\t' || c == '\r' || c == '\n' || c == '"'

def cleanStr (s : Text) : Text := ((s.dropWhile isTrimmed).reverse.dropWhile isTrimmed).reverse

def endsMember (c : Char) : Bool := c == ',' || c == '}' || c == '\n'

def getJsonVal (json key : Text) : Text :=
  match findText (quoted key) json with
  | none => []
  | some pos =>
    let start :=
      match findText [':'] (json.drop pos) with
      | none => 0
      | some k => pos + k + 1
    cleanStr ((json.drop start).takeWhile (fun c => !endsMember c))

/-- `std::stoi`, `std::stol` (32 bits) and `std::stoll` (64 bits); none where they throw. -/
def sto (bits : ℕ) (s : Text) : Option ℤ :=
  let s := s.dropWhile isSpace
  let negative := s.head? = some '-'
  let digits :=
    (if s.head? = some '-' ∨ s.head? = some '+' then s.drop 1 else s).takeWhile Char.isDigit
  let n : ℤ := Nat.ofDigitChars 10 digits 0
  let v := if negative then -n else n
  if digits ≠ [] ∧ -2 ^ (bits - 1) ≤ v ∧ v < 2 ^ (bits - 1) then some v else none

structure SmartData where
  model : Text := []
  serial : Text := []
  family : Text := []
  formFactor : Text := "Unknown".toList
  hours : ℤ := -1
  temp : ℤ := -1
  reallocated : ℤ := -1
  pending : ℤ := -1
  offlineUnc : ℤ := -1
  loadCycles : ℤ := -1
  rpm : ℤ := 0
  percentageUsed : ℤ := -1
  dataUnitsWritten : ℤ := -1

/-- A value that is set if the text is there and is a number. -/
def setNumber (bits : ℕ) (old : ℤ) (s : Text) : ℤ := (sto bits s).getD old

def getRaw (json : Text) (id : ℕ) : ℤ :=
  match findText ("\"id\": ".toList ++ decimal id) json with
  | none => -1
  | some p =>
    match findText (quoted "raw".toList) (json.drop p) with
    | none => -1
    | some r =>
      let v := getJsonVal (json.drop (p + r)) "value".toList
      if v = [] then -1 else (sto 32 v).getD (-1)

def parseSmart (json : Text) (sd : SmartData) : SmartData :=
  if json.length < 50 then sd
  else
    let m := getJsonVal json "model_name".toList
    let s := getJsonVal json "serial_number".toList
    let sd := { sd with
      model := if m = [] then sd.model else m
      serial := if s = [] then sd.serial else s
      family := getJsonVal json "model_family".toList
      rpm := setNumber 32 sd.rpm (getJsonVal json "rotation_rate".toList) }
    let sd :=
      match findText (quoted "form_factor".toList) json with
      | none => sd
      | some ffPos => { sd with formFactor := getJsonVal (json.drop ffPos) "name".toList }
    let h :=
      match findText (quoted "power_on_time".toList) json with
      | none => getJsonVal json "power_on_hours".toList
      | some pot => getJsonVal (json.drop pot) "hours".toList
    let sd := { sd with hours := setNumber 32 sd.hours h }
    let sd :=
      match findText (quoted "temperature".toList) json with
      | none => sd
      | some tPos =>
          { sd with temp := setNumber 32 sd.temp (getJsonVal (json.drop tPos) "current".toList) }
    match findText (quoted nvmeLog) json with
    | some _ =>
      { sd with
        percentageUsed := setNumber 32 sd.percentageUsed (getJsonVal json "percentage_used".toList)
        dataUnitsWritten :=
          setNumber 64 sd.dataUnitsWritten (getJsonVal json "data_units_written".toList)
        reallocated := setNumber 32 sd.reallocated (getJsonVal json "media_errors".toList) }
    | none =>
      { sd with
        reallocated := getRaw json 5
        pending := getRaw json 197
        offlineUnc := getRaw json 198
        loadCycles := getRaw json 193 }

end Program

section Value

lemma sto_decimal (n : ℕ) : sto 32 (decimal n) = if n < 2 ^ 31 then some (n : ℤ) else none := by
  have hall : ∀ c ∈ decimal n, c.isDigit = true := fun _ => isDigit_of_mem_decimal
  obtain ⟨d, ds, hd⟩ := List.exists_cons_of_ne_nil (decimal_ne_nil n)
  have hdigit : d.isDigit = true := hall d (hd ▸ List.mem_cons_self)
  have hspace : (decimal n).dropWhile isSpace = decimal n := by
    rw [hd, List.dropWhile_cons_of_neg]
    intro hs
    simp only [isSpace, Bool.or_eq_true, beq_iff_eq] at hs
    rcases hs with ((((rfl | rfl) | rfl) | rfl) | rfl) | rfl <;> exact absurd hdigit (by decide)
  have hsign : ∀ c, c.isDigit = false → (decimal n).head? ≠ some c := by
    intro c hc h
    rw [hd, List.head?_cons, Option.some.injEq] at h
    rw [h, hc] at hdigit
    cases hdigit
  have hminus := hsign '-' (by decide)
  have hplus := hsign '+' (by decide)
  have htake : (decimal n).takeWhile Char.isDigit = decimal n := List.takeWhile_eq_self_iff.mpr hall
  have hvalue : Nat.ofDigitChars 10 (decimal n) 0 = n := by
    rw [decimal, Nat.ofDigitChars_toDigits (by norm_num) (by norm_num)]
  unfold sto
  simp only [hspace, hminus, hplus, or_self, if_false, htake, hvalue]
  by_cases hn : n < 2 ^ 31
  · rw [if_pos hn, if_pos]
    refine ⟨decimal_ne_nil n, ?_, ?_⟩
    · norm_num
    · norm_num
      omega
  · rw [if_neg hn, if_neg]
    rintro ⟨_, _, h⟩
    norm_num at h
    omega

lemma cleanStr_decimal (n : ℕ) : cleanStr (' ' :: decimal n) = decimal n := by
  have htrim : ∀ c, c.isDigit = true → ¬isTrimmed c = true := by
    intro c hc ht
    simp only [isTrimmed, Bool.or_eq_true, beq_iff_eq] at ht
    rcases ht with (((rfl | rfl) | rfl) | rfl) | rfl <;> exact absurd hc (by decide)
  have hstay : ∀ t : Text, (∀ c ∈ t, c.isDigit = true) → t.dropWhile isTrimmed = t := by
    intro t ht
    cases t with
    | nil => rfl
    | cons c t => exact List.dropWhile_cons_of_neg (htrim c (ht c List.mem_cons_self))
  have hall : ∀ c ∈ decimal n, c.isDigit = true := fun _ => isDigit_of_mem_decimal
  unfold cleanStr
  rw [List.dropWhile_cons_of_pos (by decide), hstay _ hall,
    hstay _ (fun c hc => hall c (List.mem_reverse.mp hc)), List.reverse_reverse]

end Value

section Lookup

variable {id : ℕ} {lines pre mid post : List Line} {l : Line}

def render (lines : List Line) : Text := lines.flatMap Line.text

lemma render_append (lines others : List Line) :
    render (lines ++ others) = render lines ++ render others :=
  List.flatMap_append

lemma render_cons (l : Line) (lines : List Line) :
    render (l :: lines) = List.replicate l.indent ' ' ++ (l.body ++ render lines) := by
  rw [render, List.flatMap_cons, Line.text, List.append_assoc]
  rfl

lemma blank_notMem (n : ℕ) : '"' ∉ List.replicate n ' ' := by
  intro h
  exact absurd (List.eq_of_mem_replicate h) (by decide)

lemma idNeedle_eq (id : ℕ) : "\"id\": ".toList ++ decimal id = idNeedle (decimal id) := by
  unfold idNeedle
  rw [← List.append_assoc]
  rfl

lemma skips_blank_id (n : ℕ) (digits : Text) : Skips (idNeedle digits) (List.replicate n ' ') :=
  skips_unquoted (blank_notMem n)

lemma skips_blank_word (n : ℕ) (word : Text) : Skips (quoted word) (List.replicate n ' ') := by
  rw [← List.append_nil (quoted word)]
  exact skips_unquoted (blank_notMem n)

lemma skips_render_id (h : ∀ l ∈ lines, l.Valid ∧ ¬l.Hit (decimal id)) :
    Skips (idNeedle (decimal id)) (render lines) := by
  apply skips_flatMap
  intro l hl
  exact (skips_blank_id l.indent _).append (skips_body_id (digits_decimal id) (h l hl).1 (h l hl).2)

lemma skips_render_word {word : Text} (hk : isWord word = true)
    (h : ∀ l ∈ lines, l.Valid ∧ l.Silent word) :
    Skips (quoted word) (render lines) := by
  apply skips_flatMap
  intro l hl
  exact (skips_blank_word l.indent word).append (skips_body_word hk (h l hl).1 (h l hl).2)

/-- The line with the raw value and the one that opens it. -/
def rawLines (raw : ℕ) : List Line :=
  [bracket 8 (some "raw") "\x7b" false, ⟨10, some "value".toList, .bare (decimal raw), true⟩]

lemma valid_bare {indent : ℕ} {key : Option Text} {t : Text} {comma : Bool}
    (hk : ∀ k ∈ key, isWord k = true)
    (ht : '"' ∉ t) : Line.Valid ⟨indent, key, .bare t, comma⟩ := ⟨hk, ht⟩

lemma silent_bare {indent : ℕ} {key : Option Text} {t word : Text} {comma : Bool}
    (hk : key ≠ some word) :
    Line.Silent word ⟨indent, key, .bare t, comma⟩ := by
  refine ⟨hk, ?_⟩
  intro t ht
  cases ht

lemma getJsonVal_raw (raw : ℕ) (rest : Text) :
    getJsonVal ((bracket 8 (some "raw") "\x7b" false).body ++ (render (rawLines raw).tail ++ rest))
      "value".toList =
      decimal raw := by
  have hvalue : isWord "value".toList = true := by decide
  have hopen : Skips (quoted "value".toList) (bracket 8 (some "raw") "\x7b" false).body :=
    skips_body_word hvalue (valid_bare (by decide) (by decide)) (silent_bare (by decide))
  have hpre := hopen.append (skips_blank_word 10 _)
  have hrender : render (rawLines raw).tail = List.replicate 10 ' ' ++
      (quoted "value".toList ++ ([':'] ++ (' ' :: decimal raw ++ ",\n".toList))) := by
    unfold rawLines
    rw [List.tail_cons, render_cons, render, List.flatMap_nil, List.append_nil]
    rfl
  have hcolon : ':' ∉ quoted "value".toList := by decide
  have hstop : ((' ' :: decimal raw) ++ (",\n".toList ++ rest)).takeWhile (fun c => !endsMember c) =
      ' ' :: decimal raw := by
    have hall : ∀ c ∈ ' ' :: decimal raw, (!endsMember c) = true := by
      intro c hc
      rcases List.mem_cons.mp hc with rfl | hc
      · decide
      · have hdigit := isDigit_of_mem_decimal hc
        by_contra he
        simp only [Bool.not_eq_true, Bool.not_eq_false', endsMember, Bool.or_eq_true,
          beq_iff_eq] at he
        rcases he with (rfl | rfl) | rfl <;> exact absurd hdigit (by decide)
    have hcomma : ",\n".toList ++ rest = ',' :: '\n' :: rest := rfl
    rw [List.takeWhile_append_of_pos hall, hcomma, List.takeWhile_cons_of_neg (by decide),
      List.append_nil]
  have htext : (bracket 8 (some "raw") "\x7b" false).body ++ (render (rawLines raw).tail ++ rest) =
      ((bracket 8 (some "raw") "\x7b" false).body ++ List.replicate 10 ' ') ++
        (quoted "value".toList ++
        ([':'] ++ ((' ' :: decimal raw) ++ (",\n".toList ++ rest)))) := by
    rw [hrender]
    simp only [List.append_assoc]
  rw [htext]
  unfold getJsonVal
  rw [hpre.findText_append]
  simp only [List.drop_left]
  rw [(skips_of_notMem hcolon).findText_append]
  simp only
  have hlen : ∀ a b c : Text, (a ++ (b ++ ([':'] ++ c))).drop (a.length + b.length + 1) = c := by
    intro a b c
    rw [← List.append_assoc, ← List.append_assoc, ← List.length_append]
    apply List.drop_left'
    simp only [List.length_append, List.length_singleton]
  rw [hlen, hstop, cleanStr_decimal]

lemma Line.Hit.body_eq (h : l.Hit (decimal id)) :
    ∃ rest, l.body = idNeedle (decimal id) ++ rest := by
  obtain ⟨hkey, t, hi, u, rfl⟩ := h
  refine ⟨u ++ l.stop, ?_⟩
  unfold Line.body Line.label idNeedle
  rw [hkey, hi]
  simp only [Item.text, List.append_assoc]

lemma Line.Hit.silent {digits : Text} (h : l.Hit digits) : l.Silent "raw".toList := by
  obtain ⟨hkey, t, hi, _⟩ := h
  refine ⟨?_, ?_⟩
  · rw [hkey]
    decide
  · intro s hs
    rw [hi] at hs
    cases hs

lemma getRaw_at {lead tail : Text} (hlead : '"' ∉ lead)
    (hpre : ∀ l ∈ pre, l.Valid ∧ ¬l.Hit (decimal id)) (hhit : l.Hit (decimal id)) :
    getRaw (lead ++ (render (pre ++ l :: post) ++ tail)) id =
      match findText (quoted "raw".toList) (l.body ++ (render post ++ tail)) with
      | none => -1
      | some r =>
        let v := getJsonVal ((l.body ++ (render post ++ tail)).drop r) "value".toList
        if v = [] then -1 else (sto 32 v).getD (-1) := by
  obtain ⟨rest, hbody⟩ := hhit.body_eq
  have hskip :
      Skips (idNeedle (decimal id)) (lead ++ (render pre ++ List.replicate l.indent ' ')) :=
    Skips.append (skips_unquoted hlead) ((skips_render_id hpre).append (skips_blank_id _ _))
  have htext : lead ++ (render (pre ++ l :: post) ++ tail) =
      (lead ++ (render pre ++ List.replicate l.indent ' ')) ++
        (l.body ++ (render post ++ tail)) := by
    rw [render_append, render_cons]
    simp only [List.append_assoc]
  have hfind :
      findText (idNeedle (decimal id)) ((lead ++ (render pre ++ List.replicate l.indent ' ')) ++
      (l.body ++ (render post ++ tail))) =
        some (lead ++ (render pre ++ List.replicate l.indent ' ')).length := by
    rw [hbody, List.append_assoc (idNeedle (decimal id))]
    exact hskip.findText_append _
  rw [htext]
  unfold getRaw
  rw [idNeedle_eq, hfind]
  simp only [List.drop_left, ← List.drop_drop]

def rawValue : Option ℕ → ℤ
  | none => -1
  | some raw => if raw < 2 ^ 31 then raw else -1

lemma getRaw_missed {lead tail : Text} (hlead : '"' ∉ lead) (htail : '"' ∉ tail)
    (h : ∀ l ∈ lines, l.Valid ∧ ¬l.Hit (decimal id)) :
    getRaw (lead ++ (render lines ++ tail)) id = -1 := by
  have hskip : Skips (idNeedle (decimal id)) (lead ++ (render lines ++ tail)) :=
    Skips.append (skips_unquoted hlead) ((skips_render_id h).append (skips_unquoted htail))
  have hfind : findText (idNeedle (decimal id)) (lead ++ (render lines ++ tail)) = none := by
    apply hskip.findText_eq_none
    simp [idNeedle, quoted]
  unfold getRaw
  rw [idNeedle_eq, hfind]

lemma getRaw_lost {lead tail : Text} (hlead : '"' ∉ lead) (htail : '"' ∉ tail)
    (hpre : ∀ l ∈ pre, l.Valid ∧ ¬l.Hit (decimal id)) (hl : l.Valid) (hhit : l.Hit (decimal id))
    (hpost : ∀ l ∈ post, l.Valid ∧ l.Silent "raw".toList) :
    getRaw (lead ++ (render (pre ++ l :: post) ++ tail)) id = -1 := by
  have hraw : isWord "raw".toList = true := by decide
  have htail' : Skips (quoted "raw".toList) tail := by
    rw [← List.append_nil (quoted "raw".toList)]
    exact skips_unquoted htail
  have hskip : Skips (quoted "raw".toList) (l.body ++ (render post ++ tail)) :=
    (skips_body_word hraw hl hhit.silent).append ((skips_render_word hraw hpost).append htail')
  have hfind : findText (quoted "raw".toList) (l.body ++ (render post ++ tail)) = none :=
    hskip.findText_eq_none (List.cons_ne_nil _ _)
  rw [getRaw_at hlead hpre hhit, hfind]

lemma getRaw_found {lead tail : Text} (hlead : '"' ∉ lead)
    (hpre : ∀ l ∈ pre, l.Valid ∧ ¬l.Hit (decimal id)) (hl : l.Valid) (hhit : l.Hit (decimal id))
    (hmid : ∀ l ∈ mid, l.Valid ∧ l.Silent "raw".toList) (raw : ℕ) :
    getRaw (lead ++ (render (pre ++ l :: (mid ++ rawLines raw ++ post)) ++ tail)) id =
      rawValue (some raw) := by
  have hraw : isWord "raw".toList = true := by decide
  have hskip : Skips (quoted "raw".toList) (l.body ++ (render mid ++ List.replicate 8 ' ')) :=
    (skips_body_word hraw hl hhit.silent).append
      ((skips_render_word hraw hmid).append (skips_blank_word 8 _))
  have hbody : ∃ rest, (bracket 8 (some "raw") "\x7b" false).body = quoted "raw".toList ++ rest :=
    ⟨": \x7b\n".toList, rfl⟩
  have htext : l.body ++ (render (mid ++ rawLines raw ++ post) ++ tail) =
      (l.body ++ (render mid ++ List.replicate 8 ' ')) ++
        ((bracket 8 (some "raw") "\x7b" false).body ++
        (render (rawLines raw).tail ++ (render post ++ tail))) := by
    have hlines : rawLines raw = bracket 8 (some "raw") "\x7b" false :: (rawLines raw).tail := rfl
    rw [render_append, render_append, hlines, render_cons, List.tail_cons]
    simp only [List.append_assoc]
    rfl
  have hfind :
      findText (quoted "raw".toList) (l.body ++ (render (mid ++ rawLines raw ++ post) ++ tail)) =
      some (l.body ++ (render mid ++ List.replicate 8 ' ')).length := by
    obtain ⟨rest, hrest⟩ := hbody
    rw [htext, hrest, List.append_assoc (quoted "raw".toList)]
    exact hskip.findText_append _
  rw [getRaw_at hlead hpre hhit, hfind]
  simp only [htext, List.drop_left, getJsonVal_raw, if_neg (decimal_ne_nil raw),
    sto_decimal, rawValue]
  split_ifs <;> rfl

end Lookup

end DriveIntegrity.Probe
