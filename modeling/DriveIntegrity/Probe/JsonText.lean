import DriveIntegrity.Library.Json
import DriveIntegrity.Probe.Letters

/-! The output of `full_probe` as a JSON text. -/

namespace DriveIntegrity.Probe

open Integrity (Text)
open Status (fixedText intText padded LocalTime)
open Json (Plain Token Value Reads lex lexFrom reads_iff reads_char reads_quoted reads_word
  lex_quoted_iff separated)

section Values

def JsonValue.value : JsonValue → Value
  | quoted t => .str t
  | bare t => .number t

def DriveRecord.value (r : DriveRecord) : Value :=
  .object (r.fields.map (fun f => (f.1, f.2.value)))

def probeValue (records : List DriveRecord) : Value := .array (records.map DriveRecord.value)

/-- A string that is printed as it is, or a number. -/
def JsonValue.Exact : JsonValue → Prop
  | quoted t => Plain t
  | bare _ => True

def JsonValue.Number : JsonValue → Prop
  | quoted _ => True
  | bare t => t ≠ [] ∧ (∀ c ∈ t, Json.endsWord c = false) ∧ Json.wordToken t = some (.number t)

def stops : List Text := [[','], []]

def stopTokens (s : Text) : List Token := if s = [','] then [.comma] else []

variable {v : JsonValue} {more : List Token}

lemma reads_stop {s : Text} (hs : s ∈ stops) : Reads (s ++ ['\n']) (stopTokens s) := by
  have hcomma : Reads [','] [.comma] := reads_char rfl
  have hline : Reads ['\n'] [] := reads_char rfl
  rcases List.mem_cons.mp hs with rfl | hs
  · exact hcomma.append hline
  · rw [List.mem_singleton.mp hs]
    exact hline

lemma lex_value_iff (hv : v.Number) {s : Text} (hs : s ∈ stops) (rest : Text) :
    lexFrom .blank (v.text ++ (s ++ '\n' :: rest)) =
      some (v.value.tokens ++ (stopTokens s ++ more)) ↔
      v.Exact ∧ lexFrom .blank rest = some more := by
  have hstop : lexFrom .blank (s ++ '\n' :: rest) = some (stopTokens s ++ more) ↔
      lexFrom .blank rest = some more := by
    have h : lexFrom .blank (s ++ ['\n'] ++ rest) = some (stopTokens s ++ more) ↔
        lexFrom .blank rest = some more :=
      reads_iff (reads_stop hs)
    rwa [List.append_assoc] at h
  cases v with
  | quoted t =>
    have hquote : '"' ∉ s := (by decide : ∀ s ∈ stops, '"' ∉ s) s hs
    rw [← hstop]
    exact lex_quoted_iff hquote rest
  | bare t =>
    obtain ⟨hne, hword, htoken⟩ := hv
    have hends : ∀ c ts, Json.endsWord c = true → Json.start c = (ts, .blank) →
        Reads (t ++ [c]) (.number t :: ts) :=
      fun c ts hc hstart => reads_word hne hword htoken hc hstart
    have hreads : Reads (t ++ (s ++ ['\n'])) (.number t :: stopTokens s) := by
      rcases List.mem_cons.mp hs with rfl | hs
      · rw [← List.append_assoc]
        exact (hends ',' [.comma] rfl rfl).append (reads_char (c := '\n') rfl)
      · rw [List.mem_singleton.mp hs]
        exact hends '\n' [] rfl rfl
    have h :
        lexFrom .blank (t ++ (s ++ ['\n']) ++ rest) = some (.number t :: stopTokens s ++ more) ↔
        lexFrom .blank rest = some more := reads_iff hreads
    simp only [List.append_assoc, List.singleton_append] at h
    rw [JsonValue.Exact, true_and]
    exact h

end Values

section Output

variable {more : List Token}

lemma reads_blanks {t : Text} (ht : ∀ c ∈ t, Json.isBlank c = true) : Reads t [] := by
  induction t with
  | nil => exact Json.reads_nil
  | cons c t ih =>
    rw [List.forall_mem_cons] at ht
    have hc : Json.start c = ([], .blank) := by
      have hquote : c ≠ '"' := by
        rintro rfl
        exact absurd ht.1 (by decide)
      rw [Json.start, if_neg hquote, ht.1, if_pos rfl]
    exact (reads_char hc).append (ih ht.2)

lemma reads_label {name : Text} (hname : Plain name) :
    Reads ("        ".toList ++ quoted name ++ ": ".toList) [.str name, .colon] := by
  have hcolon : Reads ([':'] ++ [' ']) [.colon] :=
    (reads_char (c := ':') rfl).append (reads_char (c := ' ') rfl)
  have hindent : Reads "        ".toList [] := reads_blanks (by decide)
  exact (hindent.append (reads_quoted hname)).append hcolon

/-- A field with a plain name, and a number where it has no quotes. -/
def Printable (f : Text × JsonValue) : Prop := Plain f.1 ∧ f.2.Number

def memberTokens (f : Text × JsonValue) : List Token := .str f.1 :: .colon :: f.2.value.tokens

lemma lex_member_iff {f : Text × JsonValue} (hf : Printable f) {s : Text} (hs : s ∈ stops)
    (rest : Text) :
    lexFrom .blank (member f ++ (s ++ '\n' :: rest)) =
      some (memberTokens f ++ (stopTokens s ++ more)) ↔
      f.2.Exact ∧ lexFrom .blank rest = some more := by
  rw [← lex_value_iff hf.2 hs rest]
  have h :
      lexFrom .blank
        ("        ".toList ++ quoted f.1 ++ ": ".toList ++ (f.2.text ++ (s ++ '\n' :: rest))) =
      some ([.str f.1, .colon] ++ (f.2.value.tokens ++ (stopTokens s ++ more))) ↔
        lexFrom .blank (f.2.text ++ (s ++ '\n' :: rest)) =
          some (f.2.value.tokens ++ (stopTokens s ++ more)) :=
    reads_iff (reads_label hf.1)
  rw [← h]
  unfold member
  simp only [List.append_assoc]
  rfl

lemma lex_members_iff {fields : List (Text × JsonValue)} (hf : ∀ f ∈ fields, Printable f)
    (rest : Text) :
    lexFrom .blank (members fields ++ rest) = some (separated (fields.map memberTokens) ++ more) ↔
      (∀ f ∈ fields, f.2.Exact) ∧ lexFrom .blank rest = some more := by
  induction fields with
  | nil => exact ⟨fun h => ⟨by simp, h⟩, fun h => h.2⟩
  | cons f fields ih =>
    rw [List.forall_mem_cons] at hf
    rw [List.forall_mem_cons]
    cases fields with
    | nil =>
      have h : lexFrom .blank (member f ++ ([] ++ '\n' :: rest)) =
          some (memberTokens f ++ (stopTokens [] ++ more)) ↔
          f.2.Exact ∧ lexFrom .blank rest = some more := lex_member_iff hf.1 (by decide) rest
      have htext : members [f] ++ rest = member f ++ ([] ++ '\n' :: rest) := by
        simp only [members, List.append_assoc, List.singleton_append, List.nil_append]
      rw [htext]
      refine h.trans ⟨fun h => ⟨⟨h.1, by simp⟩, h.2⟩, fun h => ⟨h.1.1, h.2⟩⟩
    | cons g fields =>
      have h : lexFrom .blank (member f ++ ([','] ++ '\n' :: (members (g :: fields) ++ rest))) =
          some
            (memberTokens
              f ++ (stopTokens [','] ++ (separated ((g :: fields).map memberTokens) ++ more))) ↔
            f.2.Exact ∧ lexFrom .blank (members (g :: fields) ++ rest) =
              some (separated ((g :: fields).map memberTokens) ++ more) :=
        lex_member_iff hf.1 (by decide) _
      have htext : members (f :: g :: fields) ++ rest =
          member f ++ ([','] ++ '\n' :: (members (g :: fields) ++ rest)) := by
        simp only [members, List.append_assoc]
        rfl
      have htokens : separated ((f :: g :: fields).map memberTokens) ++ more =
          memberTokens
            f ++ (stopTokens [','] ++ (separated ((g :: fields).map memberTokens) ++ more)) := by
        simp only [List.map_cons, separated, List.append_assoc]
        rfl
      rw [htext, htokens, h, ih hf.2, and_assoc]

lemma object_tokens (fields : List (Text × JsonValue)) :
    (Value.object (fields.map (fun f => (f.1, f.2.value)))).tokens =
      .openObject :: (separated (fields.map memberTokens) ++ [.closeObject]) := by
  rw [Value.tokens, Json.memberTokens_eq, List.map_map]
  rfl

lemma lex_object_iff {r : DriveRecord} (hr : ∀ f ∈ r.fields, Printable f) (rest : Text) :
    lexFrom .blank (object r.fields ++ rest) = some (r.value.tokens ++ more) ↔
      (∀ f ∈ r.fields, f.2.Exact) ∧ lexFrom .blank rest = some more := by
  have hopen : Reads ['{', '\n'] [.openObject] :=
    (reads_char (c := '{') rfl).append (reads_char (c := '\n') rfl)
  have hindent : Reads "    ".toList [] := reads_blanks (by decide)
  have hclose : Reads ("    ".toList ++ ['}']) [.closeObject] :=
    hindent.append (reads_char (c := '}') rfl)
  have htext : object r.fields ++ rest =
      ['{', '\n'] ++ (members r.fields ++ (("    ".toList ++ ['}']) ++ rest)) := by
    rw [object_eq]
    simp only [List.cons_append, List.append_assoc, List.nil_append]
  have htokens : r.value.tokens ++ more =
      [.openObject] ++ (separated (r.fields.map memberTokens) ++ ([.closeObject] ++ more)) := by
    rw [DriveRecord.value, object_tokens]
    simp only [List.cons_append, List.append_assoc, List.nil_append]
  rw [htext, htokens, reads_iff hopen, lex_members_iff hr, reads_iff hclose]

/-- The records behind the first one, each with its comma. -/
def furtherTokens (records : List DriveRecord) : List Token :=
  records.flatMap (fun r => .comma :: r.value.tokens)

lemma lex_further_iff {records : List DriveRecord} (hr : ∀ r ∈ records, ∀ f ∈ r.fields, Printable f)
    (rest : Text) :
    lexFrom .blank (printDrives false records ++ rest) = some (furtherTokens records ++ more) ↔
      (∀ r ∈ records, ∀ f ∈ r.fields, f.2.Exact) ∧ lexFrom .blank rest = some more := by
  induction records with
  | nil => exact ⟨fun h => ⟨by simp, h⟩, fun h => h.2⟩
  | cons r records ih =>
    rw [List.forall_mem_cons] at hr
    rw [List.forall_mem_cons]
    have hindent : Reads "\n    ".toList [] := reads_blanks (by decide)
    have hlead : Reads ([','] ++ "\n    ".toList) [.comma] :=
      (reads_char (c := ',') rfl).append hindent
    have htext : printDrives false (r :: records) ++ rest =
        ([','] ++ "\n    ".toList) ++ (object r.fields ++ (printDrives false records ++ rest)) := by
      rw [printDrives_cons]
      simp only [List.append_assoc]
      rfl
    have htokens : furtherTokens (r :: records) ++ more =
        [.comma] ++ (r.value.tokens ++ (furtherTokens records ++ more)) := by
      simp only [furtherTokens, List.flatMap_cons, List.append_assoc, List.cons_append,
        List.nil_append]
    rw [htext, htokens, reads_iff hlead, lex_object_iff hr.1, ih hr.2, and_assoc]

lemma array_tokens (r : DriveRecord) (records : List DriveRecord) :
    (probeValue (r :: records)).tokens =
      [.openArray] ++ (r.value.tokens ++ (furtherTokens records ++ [.closeArray])) := by
  have hitems : separated ((r :: records).map (fun r => r.value.tokens)) =
      r.value.tokens ++ furtherTokens records := by
    rw [List.map_cons, Json.separated_cons, List.flatMap_map]
    rfl
  rw [probeValue, Value.tokens, Json.itemTokens_eq, List.map_map]
  change .openArray :: separated ((r :: records).map (fun r => r.value.tokens)) ++ [.closeArray] = _
  rw [hitems]
  simp only [List.cons_append, List.append_assoc, List.nil_append]

lemma denotes_records_iff {records : List DriveRecord}
    (hr : ∀ r ∈ records, ∀ f ∈ r.fields, Printable f) :
    Json.Denotes (fullProbe records) (probeValue records) ↔ ∀ r ∈ records, ∀ f ∈ r.fields,
    f.2.Exact := by
  have hend : lexFrom .blank "\n]\n".toList = some [.closeArray] := rfl
  cases records with
  | nil => exact iff_of_true rfl (by simp)
  | cons r records =>
    rw [List.forall_mem_cons] at hr
    rw [List.forall_mem_cons]
    have hopen : Reads ['[', '\n'] [.openArray] :=
      (reads_char (c := '[') rfl).append (reads_char (c := '\n') rfl)
    have hindent : Reads "    ".toList [] := reads_blanks (by decide)
    have hlead : Reads (['[', '\n'] ++ "    ".toList) [.openArray] := hopen.append hindent
    have htext : fullProbe (r :: records) =
        (['[', '\n'] ++ "    ".toList) ++
          (object r.fields ++ (printDrives false records ++ "\n]\n".toList)) := by
      unfold fullProbe
      rw [printDrives_cons, if_pos rfl]
      simp only [List.append_assoc]
      rfl
    unfold Json.Denotes lex
    rw [htext, array_tokens, reads_iff hlead, lex_object_iff hr.1, lex_further_iff hr.2,
      iff_true_intro hend, and_true]

end Output

section Numbers

lemma endsWord_of_isDigit {c : Char} (h : c.isDigit = true) : Json.endsWord c = false := by
  by_contra hends
  rw [Bool.not_eq_false] at hends
  simp only [Json.endsWord, Json.isBlank, Bool.or_eq_true, beq_iff_eq] at hends
  rcases hends with (rfl | ((rfl | rfl) | rfl) | rfl) | hpunct
  · exact absurd h (by decide)
  · exact absurd h (by decide)
  · exact absurd h (by decide)
  · exact absurd h (by decide)
  · exact absurd h (by decide)
  · unfold Json.punctuation at hpunct
    split at hpunct
    all_goals first | exact absurd h (by decide) | cases hpunct

lemma number_decimal {sign fraction : Text} (hsign : sign = [] ∨ sign = ['-']) (n : ℕ)
    (hf : Json.isFraction fraction = true) :
    (JsonValue.bare (sign ++ (decimal n ++ fraction))).Number := by
  have hchars : ∀ c ∈ sign ++ (decimal n ++ fraction), c = '-' ∨ c = '.' ∨ c.isDigit = true := by
    intro c hc
    rcases List.mem_append.mp hc with hc | hc
    · rcases hsign with rfl | rfl
      · cases hc
      · exact Or.inl (List.mem_singleton.mp hc)
    rcases List.mem_append.mp hc with hc | hc
    · exact Or.inr (Or.inr (isDigit_of_mem_decimal hc))
    · exact Or.inr (Json.isFraction_chars hf c hc)
  have hletter : ∀ word ∈ ["true".toList, "false".toList, "null".toList],
      sign ++ (decimal n ++ fraction) ≠ word := by
    have hwords : ∀ word ∈ ["true".toList, "false".toList, "null".toList],
        ∃ c ∈ word, ¬(c = '-' ∨ c = '.' ∨ c.isDigit = true) := by decide
    rintro word hword rfl
    obtain ⟨c, hc, hother⟩ := hwords _ hword
    exact hother (hchars c hc)
  simp only [List.forall_mem_cons] at hletter
  refine ⟨?_, ?_, ?_⟩
  · intro h
    exact decimal_ne_nil n (List.append_eq_nil_iff.mp (List.append_eq_nil_iff.mp h).2).1
  · intro c hc
    rcases hchars c hc with rfl | rfl | hdigit
    · decide
    · decide
    · exact endsWord_of_isDigit hdigit
  · have hnumber : Json.isNumber (sign ++ (decimal n ++ fraction)) = true := by
      rcases hsign with rfl | rfl
      · exact Json.isNumber_decimal false n hf
      · exact Json.isNumber_decimal true n hf
    rw [Json.wordToken, if_neg hletter.1, if_neg hletter.2.1, if_neg hletter.2.2.1, if_pos hnumber]

lemma number_fixed (q : ℚ) : (JsonValue.bare (fixedText 2 q)).Number := by
  have hfraction : ∀ n, Json.isFraction ('.' :: padded 2 n) = true := by
    intro n
    have hdigits : (padded 2 n).all Char.isDigit = true :=
      List.all_eq_true.mpr (fun _ => Status.isDigit_of_mem_padded)
    have hne : (padded 2 n).isEmpty = false :=
      List.isEmpty_eq_false_iff.mpr (Status.padded_ne_nil 2 n)
    rw [Json.isFraction, hne, hdigits]
    rfl
  unfold fixedText
  rw [List.append_assoc]
  apply number_decimal _ _ (hfraction _)
  split_ifs
  · exact Or.inr rfl
  · exact Or.inl rfl

lemma number_toVal (v : ℤ) : (toVal v).Number := by
  unfold toVal
  split_ifs
  · trivial
  · rename_i hv
    have htext : intText v = [] ++ (decimal v.natAbs ++ []) := by
      rw [intText, if_neg hv, List.append_nil, List.nil_append]
    rw [htext]
    exact number_decimal (Or.inl rfl) v.natAbs rfl

lemma number_toTB (tb : Option ℚ) : (toTB tb).Number := by
  cases tb <;> trivial

lemma printable_fields (r : DriveRecord) : ∀ f ∈ r.fields, Printable f := by
  have hvalues : ∀ v ∈ r.fields.map Prod.snd, v.Number := by
    change ∀ v ∈ [JsonValue.quoted r.letter, .quoted r.fs, .bare (fixedText 2 r.totGB),
      .bare (fixedText 2 r.usedGB),
      .bare (fixedText 2 r.freeGB), .bare (fixedText 2 r.percentUsed), .quoted r.modelStr,
      .quoted r.serial,
      .quoted r.interfaceStr, .quoted ("/dev/pd".toList ++ intText r.idx), .quoted r.finalFamily,
      .quoted r.tech,
      .quoted r.finalForm, .quoted r.profile, .quoted r.rpmText, .quoted r.healthStatus,
      toVal r.hours,
      .quoted r.tempText, toVal r.loadCycles, toTB r.dataUnitsWritten, toVal r.reallocated,
      toVal r.pending,
      toVal r.offlineUnc, .quoted r.notes, .quoted r.tB.text], v.Number
    have hquoted : ∀ t, (JsonValue.quoted t).Number := fun _ => trivial
    simp only [List.forall_mem_cons, hquoted, number_fixed, number_toVal, number_toTB, true_and]
    exact fun v hv => absurd hv List.not_mem_nil
  have hnames : ∀ name ∈ fieldNames, Plain name := by decide +kernel
  intro f hf
  exact ⟨hnames _ (names_eq r ▸ List.mem_map_of_mem hf), hvalues _ (List.mem_map_of_mem hf)⟩

end Numbers

section Strings

lemma plain_append {s t : Text} (hs : Plain s) (ht : Plain t) : Plain (s ++ t) := by
  intro c hc
  exact (List.mem_append.mp hc).elim (hs c) (ht c)

lemma Numeral.plain {t : Text} (h : Numeral t) : Plain t := by
  intro c hc
  have hnumeral := h c hc
  refine ⟨?_, ?_, ?_⟩
  · rintro rfl
    exact absurd hnumeral (by decide)
  · rintro rfl
    exact absurd hnumeral (by decide)
  · simp only [isNumeral, Bool.or_eq_true, beq_iff_eq] at hnumeral
    rcases hnumeral with ((hdigit | rfl) | rfl) | rfl
    · exact Json.toNat_of_isDigit hdigit
    · decide
    · decide
    · decide

lemma Wording.plain {t : Text} (h : Wording t) : Plain t := by
  intro c hc
  have hwording := h c hc
  refine ⟨?_, ?_, ?_⟩
  · rintro rfl
    exact absurd hwording (by decide)
  · rintro rfl
    exact absurd hwording (by decide)
  · by_contra hlt
    have hcontrol : ∀ n < 32, isWording (Char.ofNat n) = false := by decide
    have h := hcontrol c.toNat (not_le.mp hlt)
    rw [Char.ofNat_toNat] at h
    rw [h] at hwording
    cases hwording

lemma plain_time (t : LocalTime) : Plain t.text := by
  have hpadded : ∀ width n, Plain (padded width n) := fun width n => (numeral_padded width n).plain
  have hmark : ∀ c width n, Plain [c] → Plain (c :: padded width n) :=
    fun c width n h => plain_append h (hpadded width n)
  unfold LocalTime.text
  apply plain_append _ (hmark _ _ _ (by decide))
  apply plain_append _ (hmark _ _ _ (by decide))
  apply plain_append _ (hmark _ _ _ (by decide))
  apply plain_append _ (hmark _ _ _ (by decide))
  exact plain_append (hpadded _ _) (hmark _ _ _ (by decide))

lemma exact_toVal (v : ℤ) : (toVal v).Exact := by
  unfold toVal
  split_ifs
  · exact (by decide : Plain "N/A".toList)
  · trivial

lemma exact_toTB (tb : Option ℚ) : (toTB tb).Exact := by
  cases tb with
  | none => exact (by decide : Plain "N/A".toList)
  | some q => exact plain_append (numeral_fixedText 2 q).plain (by decide)

lemma plain_rpmText (r : DriveRecord) : Plain r.rpmText := by
  unfold DriveRecord.rpmText
  split_ifs
  · exact (numeral_intText _).plain
  · decide

lemma plain_tempText (r : DriveRecord) : Plain r.tempText := by
  unfold DriveRecord.tempText
  split_ifs
  · exact (numeral_intText _).plain
  · decide

variable (d : Disk)

lemma plain_letter : Plain d.mounted.letter := by
  rw [d.mounted_letter]
  cases d.firstVolume with
  | none => exact (by decide : Plain "N/A".toList)
  | some v =>
    intro c hc
    rcases List.mem_cons.mp hc with rfl | hc
    · refine ⟨v.letter_ne (by decide), v.letter_ne (by decide), ?_⟩
      exact le_trans (by decide) (UInt32.le_iff_toNat_le.mp v.letter_range.1)
    · rw [List.mem_singleton.mp hc]
      decide

lemma record_exact_iff (tB : LocalTime) :
    (∀ f ∈ (d.record tB).fields, f.2.Exact) ↔
      Plain d.mounted.fs ∧ Plain d.modelStr ∧ Plain d.serial ∧ Plain d.interfaceStr ∧
      Plain d.finalFamily ∧
        Plain (d.record tB).finalForm := by
  have hword := wordings d
  simp only [List.forall_mem_cons] at hword
  obtain ⟨htech, hprofile, hhealth, hnotes, -⟩ := hword
  have hdevice : Plain ("/dev/pd".toList ++ intText d.index) :=
    plain_append (by decide) (numeral_intText d.index).plain
  have hvalues : (∀ f ∈ (d.record tB).fields, f.2.Exact) ↔
      ∀ v ∈ (d.record tB).fields.map Prod.snd, v.Exact :=
    List.forall_mem_map.symm
  rw [hvalues]
  change
    (∀ v ∈ [JsonValue.quoted d.mounted.letter, .quoted d.mounted.fs, .bare (fixedText 2 d.totGB),
    .bare (fixedText 2 (d.record tB).usedGB), .bare (fixedText 2 (d.record tB).freeGB),
    .bare (fixedText 2 (d.record tB).percentUsed), .quoted d.modelStr, .quoted d.serial,
    .quoted d.interfaceStr,
    .quoted ("/dev/pd".toList ++ intText d.index), .quoted d.finalFamily, .quoted d.tech,
    .quoted (d.record tB).finalForm,
    .quoted d.profile, .quoted (d.record tB).rpmText, .quoted d.health.1, toVal d.smart.hours,
    .quoted (d.record tB).tempText, toVal d.smart.loadCycles, toTB (d.record tB).dataUnitsWritten,
    toVal d.smart.reallocated, toVal d.smart.pending, toVal d.smart.offlineUnc, .quoted d.notes,
    .quoted tB.text],
    v.Exact) ↔ _
  have hquoted : ∀ t, (JsonValue.quoted t).Exact ↔ Plain t := fun _ => Iff.rfl
  have hbare : ∀ t, (JsonValue.bare t).Exact := fun _ => trivial
  have hnil : ∀ v ∈ ([] : List JsonValue), v.Exact := fun v hv => absurd hv List.not_mem_nil
  simp only [List.forall_mem_cons, hquoted, hbare, exact_toVal, exact_toTB, plain_letter, hdevice,
    htech.plain, hprofile.plain, plain_rpmText, hhealth.plain, plain_tempText, hnotes.plain,
    plain_time, true_and, and_true, iff_true_intro hnil]

end Strings

section Validity

variable {d : Disk} {disks : List Disk} {tB : LocalTime}

/-- Names, serials and form factors without quotes, backslashes and control characters; a
`PNPDeviceID` has backslashes between its parts. -/
structure Disk.PlainTexts (d : Disk) : Prop where
  texts :
    ∀ t ∈ [d.model, d.smart.model, d.smart.serial, d.smart.family, d.smart.formFactor], Plain t
  pnp : ∀ c ∈ d.pnpDeviceID, c ≠ '"' ∧ 32 ≤ c.toNat

/-- The disk has no form factor and gets one in inches, with a quote. -/
def Disk.NamedBySize (d : Disk) : Prop :=
  d.smart.formFactor = "Unknown".toList ∧ ¬d.Flash ∧ d.Rotating

lemma backslash_notMem_serial (pnp : Text) : '\\' ∉ extractSerialFromPnP pnp := by
  intro h
  unfold extractSerialFromPnP at h
  split_ifs at h with hpnp
  · have hlast := List.mem_reverse.mp ((List.takeWhile_sublist _).mem (mem_cleanStr h))
    have hstop := List.mem_takeWhile_imp hlast
    exact absurd hstop (by decide)
  · exact hpnp (mem_cleanStr h)

lemma Disk.PlainTexts.modelStr (h : d.PlainTexts) : Plain d.modelStr := by
  have htexts := h.texts
  simp only [List.forall_mem_cons] at htexts
  intro c hc
  exact (mem_modelStr hc).elim (htexts.1 c) (htexts.2.1 c)

lemma Disk.PlainTexts.serial (h : d.PlainTexts) : Plain d.serial := by
  have htexts := h.texts
  simp only [List.forall_mem_cons] at htexts
  unfold Disk.serial
  split_ifs
  · intro c hc
    have hprint := h.pnp c (mem_cleanStr (mem_extractSerial hc))
    refine ⟨hprint.1, ?_, hprint.2⟩
    rintro rfl
    exact backslash_notMem_serial _ hc
  · exact htexts.2.2.1

lemma Disk.PlainTexts.finalFamily (h : d.PlainTexts) : Plain d.finalFamily := by
  have htexts := h.texts
  simp only [List.forall_mem_cons] at htexts
  unfold Disk.finalFamily
  split_ifs
  · exact htexts.2.2.2.1
  · decide
  · decide

lemma Disk.finalForm_eq (d : Disk) (tB : LocalTime) :
    (d.record tB).finalForm =
      if (if d.Flash then "Thumb Drive".toList else d.smart.formFactor) = "Unknown".toList ∧
        d.tech = "CMR".toList then
        if 1000 < d.totGB then "3.5\" Drive".toList else "2.5\" Drive".toList
      else if d.Flash then "Thumb Drive".toList else d.smart.formFactor := rfl

lemma Disk.PlainTexts.finalForm_iff (h : d.PlainTexts) (tB : LocalTime) :
    Plain (d.record tB).finalForm ↔ ¬d.NamedBySize := by
  have htexts := h.texts
  simp only [List.forall_mem_cons] at htexts
  rw [d.finalForm_eq, Disk.NamedBySize, Disk.tech]
  by_cases hflash : d.Flash
  · rw [if_pos hflash, if_pos hflash, if_neg (by decide)]
    exact iff_of_true (by decide) (fun hn => hn.2.1 hflash)
  · rw [if_neg hflash, if_neg hflash]
    by_cases hnamed : d.smart.formFactor = "Unknown".toList ∧ d.Rotating
    · rw [if_pos hnamed.2, if_pos ⟨hnamed.1, rfl⟩]
      refine iff_of_false ?_ (fun hn => hn ⟨hnamed.1, hflash, hnamed.2⟩)
      split_ifs <;> decide
    · have hother : ¬(d.smart.formFactor = "Unknown".toList ∧
          (if d.Rotating then "CMR".toList else "SSD".toList) = "CMR".toList) := by
        rintro ⟨hform, htech⟩
        split_ifs at htech with hrot
        · exact hnamed ⟨hform, hrot⟩
        · exact absurd htech (by decide)
      rw [if_neg hother]
      exact iff_of_true htexts.2.2.2.2.1 (fun hn => hnamed ⟨hn.1, hn.2.2⟩)

theorem probe_json_iff (hplain : ∀ d ∈ disks, d.PlainTexts) :
    Json.Denotes (fullProbe (probeRecords tB disks)) (probeValue (probeRecords tB disks)) ↔
      ∀ d ∈ disks, 1 / 100 < d.totGB → ¬d.NamedBySize ∧ Plain d.interfaceStr ∧
        Plain d.mounted.fs := by
  rw [denotes_records_iff (fun r _ => printable_fields r), probeRecords, List.forall_mem_map]
  have hdisk : ∀ d ∈ disks, (∀ f ∈ (d.record tB).fields, f.2.Exact) ↔
      ¬d.NamedBySize ∧ Plain d.interfaceStr ∧ Plain d.mounted.fs := by
    intro d hd
    have h := hplain d hd
    rw [record_exact_iff, h.finalForm_iff tB]
    simp only [h.modelStr, h.serial, h.finalFamily, true_and]
    exact ⟨fun ⟨hfs, hinterface, hform⟩ => ⟨hform, hinterface, hfs⟩,
      fun ⟨hform, hinterface, hfs⟩ => ⟨hfs, hinterface, hform⟩⟩
  constructor
  · intro h d hd hsize
    exact (hdisk d hd).mp (h d (List.mem_filter.mpr ⟨hd, decide_eq_true hsize⟩))
  · intro h d hd
    obtain ⟨hin, hsize⟩ := List.mem_filter.mp hd
    exact (hdisk d hin).mpr (h d hin (of_decide_eq_true hsize))

/-- A hard disk of 2 TiB that `smartctl` tells nothing about. -/
def bareDisk : Disk where
  model := "Disk".toList
  index := 1
  size := some (2 * 2 ^ 40)
  interfaceType := "SCSI".toList
  pnpDeviceID := "SCSI\\DISK\\4&2A5&0&000000".toList
  partitions := []
  output := []

lemma bareDisk_plain : ∀ d ∈ [bareDisk], d.PlainTexts := by
  intro d hd
  rw [List.mem_singleton.mp hd]
  exact ⟨by decide, by decide⟩

/-- The form factor 3.5" Drive ends its string early, and the output is no JSON text. -/
theorem inches_break_json :
    (∀ d ∈ [bareDisk], d.PlainTexts) ∧ ∀ v,
    ¬Json.Denotes (fullProbe (probeRecords noon [bareDisk])) v := by
  refine ⟨bareDisk_plain, ?_⟩
  have hnone : lex (fullProbe (probeRecords noon [bareDisk])) = none := by decide +kernel
  intro v hv
  exact Option.some_ne_none _ (hv.symm.trans hnone)

theorem probe_json_sample :
    Json.Denotes (fullProbe (probeRecords noon [bareDisk]))
      (probeValue (probeRecords noon [bareDisk])) ↔
      ∀ d ∈ [bareDisk], 1 / 100 < d.totGB → ¬d.NamedBySize ∧ Plain d.interfaceStr ∧
        Plain d.mounted.fs :=
  probe_json_iff bareDisk_plain

end Validity

end DriveIntegrity.Probe
