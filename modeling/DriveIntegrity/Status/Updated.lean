import DriveIntegrity.Library.Lexicographic
import DriveIntegrity.Library.Search
import DriveIntegrity.Status.Store

/-! The menu's line `UPDATED`. -/

namespace DriveIntegrity.Status

open Integrity (Text)

section Program

/-- The order in which `GTR` compares texts that are no numbers: by the weights of their
characters. -/
structure Collation (Weight : Type) [LinearOrder Weight] where
  weight : Char → Weight
  digits : StrictMonoOn (fun n => weight (Nat.digitChar n)) (Set.Iio 10)
  digit_lt_letter : ∀ d a : Char, d.isDigit = true → a.isAlpha = true → weight d < weight a

variable {Weight : Type} [LinearOrder Weight] (c : Collation Weight)

def Collation.Gtr (s t : Text) : Prop := t.map c.weight < s.map c.weight

instance (s t : Text) : Decidable (c.Gtr s t) := inferInstanceAs (Decidable (_ < _))

def normalize (date : Text) : Text :=
  if date ≠ "Never".toList ∧ substr date 16 1 = [] then date ++ ":00".toList else date

def updateWith (date lastUpdate : Text) : Text :=
  if c.Gtr (quoted date) (quoted lastUpdate) then date else lastUpdate

def lastUpdate (probeDate fDate sDate : Text) : Text :=
  let last := normalize probeDate
  let last := updateWith c (normalize fDate) last
  let last := updateWith c (normalize sDate) last
  if last = "Never".toList then "No Data Available".toList else last

end Program

section Dates

def LocalTime.fields (t : LocalTime) : List ℕ :=
  [t.year, t.month, t.day, t.hour, t.minute, t.second]

lemma LocalTime.fields_injective : Function.Injective LocalTime.fields := by
  rintro ⟨_, _, _, _, _, _⟩ ⟨_, _, _, _, _, _⟩ h
  simpa [LocalTime.fields] using h

instance : LinearOrder LocalTime := LinearOrder.lift' LocalTime.fields LocalTime.fields_injective

lemma LocalTime.lt_iff {a b : LocalTime} : a < b ↔ a.fields < b.fields := Iff.rfl

structure LocalTime.Fits (t : LocalTime) : Prop where
  year : t.year < 10 ^ 4
  month : t.month < 10 ^ 2
  day : t.day < 10 ^ 2
  hour : t.hour < 10 ^ 2
  minute : t.minute < 10 ^ 2
  second : t.second < 10 ^ 2

def LocalTime.minutes (t : LocalTime) : Text :=
  padded 4 t.year ++ '-' :: padded 2 t.month ++ '-' :: padded 2 t.day ++ ' ' :: padded 2 t.hour ++
    ':' :: padded 2 t.minute

abbrev FixedTime := { t : LocalTime // t.Fits }

/-- A date in a status file, with or without the seconds. -/
structure Stamp where
  time : FixedTime
  seconds : Bool
  whole : seconds = false → time.1.second = 0

def Stamp.text (s : Stamp) : Text := if s.seconds then s.time.1.text else s.time.1.minutes

def dateText : Option Stamp → Text
  | none => "Never".toList
  | some s => s.text

end Dates

section Padded

variable {width n : ℕ}

lemma padded_eq_numeral (hw : 0 < width) (hn : n < 10 ^ width) :
    padded width n = numeral 10 Nat.digitChar width n := by
  have hsingle :
      ∀ width n, n < 10 → padded (width + 1) n = numeral 10 Nat.digitChar (width + 1) n := by
    intro width n hn
    rw [padded, decimal, Nat.toDigits_of_lt_base hn, numeral, Nat.div_eq_of_lt hn,
      Nat.mod_eq_of_lt hn, numeral_zero]
    rfl
  induction width generalizing n with
  | zero => omega
  | succ width ih =>
    rcases Nat.lt_or_ge n 10 with hlt | hge
    · exact hsingle width n hlt
    · have hpos : 0 < width := by
        rcases Nat.eq_zero_or_pos width with rfl | h
        · omega
        · exact h
      rw [numeral, ← ih hpos (div_lt_of_lt_pow hn), padded, padded, decimal, decimal,
        Nat.toDigits_of_base_le (by norm_num) hge, List.length_append, List.length_singleton,
        Nat.add_sub_add_right, List.append_assoc]

lemma length_padded (hw : 0 < width) (hn : n < 10 ^ width) : (padded width n).length = width := by
  rw [padded_eq_numeral hw hn, length_numeral]

end Padded

section Order

variable {Weight : Type} [LinearOrder Weight] (c : Collation Weight) {a b t : LocalTime}

def Collation.digit (n : ℕ) : Weight := c.weight (Nat.digitChar n)

lemma padded_weights {width n : ℕ} (hw : 0 < width) (hn : n < 10 ^ width) :
    (padded width n).map c.weight = numeral 10 c.digit width n := by
  rw [padded_eq_numeral hw hn, map_numeral]
  rfl

lemma text_weights (h : t.Fits) (u : List Weight) :
    t.text.map c.weight ++ u =
      numeral 10 c.digit 4
        t.year ++ (c.weight '-' :: (numeral 10 c.digit 2 t.month ++ (c.weight '-' ::
        (numeral 10 c.digit 2
          t.day ++ (c.weight ' ' :: (numeral 10 c.digit 2 t.hour ++ (c.weight ':' ::
          (numeral 10 c.digit 2
            t.minute ++ (c.weight ':' :: (numeral 10 c.digit 2 t.second ++ u)))))))))) := by
  have htwo : 0 < 2 := by decide
  simp only [LocalTime.text, List.map_append, List.map_cons, List.append_assoc, List.cons_append,
    padded_weights c (by decide : 0 < 4) h.year, padded_weights c htwo h.month,
    padded_weights c htwo h.day,
    padded_weights c htwo h.hour, padded_weights c htwo h.minute, padded_weights c htwo h.second]

lemma gtr_quoted_iff (s t : Text) :
    c.Gtr (quoted s) (quoted t) ↔
      t.map c.weight ++ [c.weight '"'] < s.map c.weight ++ [c.weight '"'] := by
  simp [Collation.Gtr, quoted]

lemma gtr_text_iff (ha : a.Fits) (hb : b.Fits) : c.Gtr (quoted a.text) (quoted b.text) ↔ b < a := by
  have hd : StrictMonoOn c.digit (Set.Iio 10) := c.digits
  rw [gtr_quoted_iff, text_weights c ha, text_weights c hb,
    numeral_append_lt_iff hd hb.year ha.year,
    List.cons_lt_cons_self, numeral_append_lt_iff hd hb.month ha.month,
    List.cons_lt_cons_self, numeral_append_lt_iff hd hb.day ha.day,
    List.cons_lt_cons_self, numeral_append_lt_iff hd hb.hour ha.hour,
    List.cons_lt_cons_self, numeral_append_lt_iff hd hb.minute ha.minute,
    List.cons_lt_cons_self, numeral_append_lt_iff hd hb.second ha.second, LocalTime.lt_iff]
  simp only [LocalTime.fields, List.cons_lt_cons_iff, lt_irrefl, and_false, or_false]

lemma minutes_head (t : LocalTime) : ∃ d rest, t.minutes = d :: rest ∧ d.isDigit = true := by
  have hp : padded 4 t.year <+: t.minutes := by
    unfold LocalTime.minutes
    simp only [List.append_assoc]
    exact List.prefix_append _ _
  obtain ⟨d, rest, hd⟩ := List.exists_cons_of_ne_nil (padded_ne_nil 4 t.year)
  obtain ⟨tail, ht⟩ := hp
  exact ⟨d, rest ++ tail, by rw [← ht, hd, List.cons_append],
    isDigit_of_mem_padded (hd ▸ List.mem_cons_self)⟩

lemma text_eq (t : LocalTime) : t.text = t.minutes ++ ':' :: padded 2 t.second := rfl

lemma text_head (t : LocalTime) : ∃ d rest, t.text = d :: rest ∧ d.isDigit = true := by
  obtain ⟨d, rest, h, hd⟩ := minutes_head t
  exact ⟨d, rest ++ ':' :: padded 2 t.second, by rw [text_eq, h, List.cons_append], hd⟩

lemma never_gtr (t : LocalTime) : c.Gtr (quoted "Never".toList) (quoted t.text) := by
  obtain ⟨d, rest, ht, hd⟩ := text_head t
  rw [gtr_quoted_iff, ht]
  exact List.Lex.rel (c.digit_lt_letter d 'N' hd (by decide))

lemma not_gtr_never (t : LocalTime) : ¬c.Gtr (quoted t.text) (quoted "Never".toList) :=
  lt_asymm (never_gtr c t)

end Order

section Normalized

lemma word_ne {d w : Char} {rest t : Text} (hd : d.isDigit = true) (hw : w.isDigit = false) :
    d :: rest ≠ w :: t := by
  intro h
  rw [(List.cons_eq_cons.mp h).1, hw] at hd
  cases hd

lemma minutes_length {t : LocalTime} (h : t.Fits) : t.minutes.length = 16 := by
  have htwo : 0 < 2 := by decide
  simp only [LocalTime.minutes, List.length_append, List.length_cons,
    length_padded (by decide : 0 < 4) h.year, length_padded htwo h.month, length_padded htwo h.day,
    length_padded htwo h.hour, length_padded htwo h.minute]

lemma normalize_never : normalize "Never".toList = "Never".toList := if_neg (fun h => h.1 rfl)

lemma normalize_text (s : Stamp) : normalize s.text = s.time.1.text := by
  have hlen := minutes_length s.time.2
  unfold Stamp.text normalize
  by_cases hs : s.seconds = true
  · rw [if_pos hs, if_neg]
    rintro ⟨_, h⟩
    rw [substr, text_eq, List.drop_left' hlen] at h
    cases h
  · obtain ⟨d, rest, ht, hd⟩ := minutes_head s.time.1
    rw [if_neg hs, if_pos, text_eq, s.whole (Bool.eq_false_iff.mpr hs)]
    · rfl
    · refine ⟨by rw [ht]; exact word_ne hd (by decide), ?_⟩
      rw [substr, List.drop_eq_nil_of_le hlen.le, List.take_nil]

end Normalized

section Newest

variable {Weight : Type} [LinearOrder Weight] (c : Collation Weight)

/-- `Never` is taken for the latest time of all. -/
def stampTime : Option Stamp → WithTop FixedTime
  | none => ⊤
  | some s => s.time

def timeText (word : Text) : WithTop FixedTime → Text := WithTop.recTopCoe word (fun t => t.1.text)

lemma normalize_dateText (s : Option Stamp) :
    normalize (dateText s) = timeText "Never".toList (stampTime s) := by
  cases s with
  | none => exact normalize_never
  | some s => exact normalize_text s

lemma updateWith_timeText (a b : WithTop FixedTime) :
    updateWith c (timeText "Never".toList a) (timeText "Never".toList b) =
      timeText "Never".toList (max b a) := by
  induction a using WithTop.recTopCoe with
  | top =>
    induction b using WithTop.recTopCoe with
    | top => exact ite_self _
    | coe b =>
      rw [max_top_right]
      exact if_pos (never_gtr c b.1)
  | coe a =>
    induction b using WithTop.recTopCoe with
    | top =>
      rw [max_top_left]
      exact if_neg (not_gtr_never c a.1)
    | coe b =>
      rw [← WithTop.coe_max, max_def_lt]
      by_cases h : b < a
      · rw [if_pos h]
        exact if_pos ((gtr_text_iff c a.2 b.2).mpr h)
      · rw [if_neg h]
        exact if_neg (fun hgtr => h ((gtr_text_iff c a.2 b.2).mp hgtr))

/-- The line shows the maximum of the three dates, with `Never` on top of all. -/
theorem lastUpdate_eq (p f s : Option Stamp) :
    lastUpdate c (dateText p) (dateText f) (dateText s) =
      timeText "No Data Available".toList
        (max (max (stampTime p) (stampTime f)) (stampTime s)) := by
  unfold lastUpdate
  simp only [normalize_dateText, updateWith_timeText]
  induction max (max (stampTime p) (stampTime f)) (stampTime s) using WithTop.recTopCoe with
  | top => exact if_pos rfl
  | coe t =>
    obtain ⟨d, rest, ht, hd⟩ := text_head t.1
    refine if_neg ?_
    change t.1.text ≠ "Never".toList
    rw [ht]
    exact word_ne hd (by decide)

variable {c} {p f s : Option Stamp}

lemma lastUpdate_never (h : p = none ∨ f = none ∨ s = none) :
    lastUpdate c (dateText p) (dateText f) (dateText s) = "No Data Available".toList := by
  have htop : max (max (stampTime p) (stampTime f)) (stampTime s) = ⊤ := by
    rcases h with rfl | rfl | rfl <;> simp [stampTime]
  rw [lastUpdate_eq, htop]
  rfl

def knownDates (p f s : Option Stamp) : List Stamp := [p, f, s].filterMap id

lemma knownDates_eq_nil : knownDates p f s = [] ↔ p = none ∧ f = none ∧ s = none := by
  simp [knownDates, List.filterMap_eq_nil_iff]

lemma exists_newest (p f s : Stamp) :
    ∃ t ∈ [p, f, s], (∀ u ∈ [p, f, s], u.time ≤ t.time) ∧
      max (max p.time f.time) s.time = t.time := by
  have hmem : ∃ t ∈ [p, f, s], max (max p.time f.time) s.time = t.time := by
    rcases max_choice (max p.time f.time) s.time with h | h
    · rcases max_choice p.time f.time with h' | h'
      · exact ⟨p, by simp, h.trans h'⟩
      · exact ⟨f, by simp, h.trans h'⟩
    · exact ⟨s, by simp, h⟩
  obtain ⟨t, ht, hmax⟩ := hmem
  refine ⟨t, ht, ?_, hmax⟩
  rw [← hmax]
  simp

/-- The newest of the known dates, and the remark only where there is none. -/
def ShowsNewest (line : Text) (known : List Stamp) : Prop :=
  (known ≠ [] → ∃ t ∈ known, (∀ u ∈ known, u.time ≤ t.time) ∧ line = t.time.1.text) ∧
    (line = "No Data Available".toList ↔ known = [])

/-- One date that is missing hides the others. -/
theorem lastUpdate_newest_iff {Weight : Type} [LinearOrder Weight] (c : Collation Weight)
    (p f s : Option Stamp) :
    ShowsNewest (lastUpdate c (dateText p) (dateText f) (dateText s)) (knownDates p f s) ↔
      (p ≠ none ∧ f ≠ none ∧ s ≠ none) ∨ (p = none ∧ f = none ∧ s = none) := by
  constructor
  · intro h
    by_cases hn : p = none ∨ f = none ∨ s = none
    · exact Or.inr (knownDates_eq_nil.mp (h.2.mp (lastUpdate_never hn)))
    · push Not at hn
      exact Or.inl hn
  · rintro (⟨hp, hf, hs⟩ | hn)
    · obtain ⟨p, rfl⟩ := Option.ne_none_iff_exists'.mp hp
      obtain ⟨f, rfl⟩ := Option.ne_none_iff_exists'.mp hf
      obtain ⟨s, rfl⟩ := Option.ne_none_iff_exists'.mp hs
      obtain ⟨t, ht, hnewest, hmax⟩ := exists_newest p f s
      have hline : lastUpdate c (dateText (some p)) (dateText (some f)) (dateText (some s)) =
          t.time.1.text := by
        rw [lastUpdate_eq, stampTime, stampTime, stampTime, ← WithTop.coe_max,
          ← WithTop.coe_max, hmax]
        rfl
      refine ⟨fun _ => ⟨t, ht, hnewest, hline⟩, ?_⟩
      obtain ⟨d, rest, htext, hd⟩ := text_head t.time.1
      rw [hline, htext]
      exact iff_of_false (word_ne hd (by decide)) (List.cons_ne_nil _ _)
    · have hnil := knownDates_eq_nil.mpr hn
      exact ⟨fun h => absurd hnil h, iff_of_true (lastUpdate_never (Or.inl hn.1)) hnil⟩

end Newest

section Runs

variable {Weight : Type} [LinearOrder Weight] (c : Collation Weight)

lemma copyBlock_nil (tag : Text) : copyBlock [] tag = [] := by
  have hfind : findText (marker tag) [] = none := if_neg (List.cons_ne_nil _ _)
  have hblock : extractBlock [] tag = [] := by rw [extractBlock, hfind]
  rw [copyBlock, if_pos hblock]

lemma loadData_first_probe (now : LocalTime) {stats : DriveStats} (h : stats.Clean) :
    (loadData (some (deviceinfo now stats []))).file = unscanned.file ∧
      (loadData (some (deviceinfo now stats []))).surface = unscanned.surface := by
  let kept : List Section := if stats.health = "N/A".toList then [smartSection none] else []
  have hkept : ∀ s ∈ kept, s = smartSection none := by
    intro s hs
    simp only [kept] at hs
    split_ifs at hs
    · exact List.mem_singleton.mp hs
    · exact absurd hs List.not_mem_nil
  have hrender : (if stats.health = "N/A".toList then
      openLine "SmartHealthStatus".toList ++ leafLine "SmartStatus".toList "N/A".toList ++
        closeLine "SmartHealthStatus".toList
      else copyBlock [] "SmartHealthStatus".toList) ++
    copyBlock [] "FileIntegrityScan".toList ++ copyBlock [] "SurfaceScanInfo".toList =
      kept.flatMap Section.render := by
    simp only [kept, copyBlock_nil, List.append_nil]
    split_ifs
    · rw [List.flatMap_singleton, smartSection_none]
    · rfl
  have hload : ∀ p : Panel, ((kept.foldl (fun p s => s.load p) p).file = p.file) ∧
      (kept.foldl (fun p s => s.load p) p).surface = p.surface := by
    intro p
    simp only [kept]
    split_ifs <;> exact ⟨rfl, rfl⟩
  have hd :
      loadData (some (deviceinfo now stats [])) = kept.foldl (fun p s => s.load p) unscanned := by
    rw [deviceinfo_sections now stats h hrender]
    refine loadText_document (Or.inr rfl) rfl (hardware_outside rfl) ?_
    intro s hs block
    rw [hkept s hs]
    exact smartSection_loads none block
  rw [hd]
  exact hload unscanned

theorem lastUpdate_first_probe (now : LocalTime) {stats : DriveStats} (h : stats.Clean)
    (p : Option Stamp) :
    lastUpdate c (dateText p) (loadData (some (deviceinfo now stats []))).file.date
      (loadData (some (deviceinfo now stats []))).surface.date = "No Data Available".toList := by
  rw [(loadData_first_probe now h).1, (loadData_first_probe now h).2]
  exact @lastUpdate_never _ _ c p none none (Or.inr (Or.inl rfl))

def ToolRun.checkTime : ToolRun → Option LocalTime
  | .quickFileCheck now _ _ => some now
  | _ => none

def ToolRun.scanTime : ToolRun → Option LocalTime
  | .surfaceScan now _ => some now
  | _ => none

variable {runs : List ToolRun} {content : Text}

lemma lastOf_fits {f : ToolRun → Option LocalTime} (h : ∀ run ∈ runs, ∀ t ∈ f run, t.Fits) :
    (lastOf f runs never).Fits := by
  unfold lastOf latest
  cases hl : (runs.filterMap f).getLast? with
  | none => exact ⟨by decide, by decide, by decide, by decide, by decide, by decide⟩
  | some t =>
    obtain ⟨run, hrun, ht⟩ := List.mem_filterMap.mp (List.mem_of_getLast? hl)
    exact h run hrun t ht

lemma panel_dates (hc : ∀ run ∈ runs, run.Clean) (h : runTools runs = some content) :
    (loadData (some content)).file.date = (lastOf ToolRun.checkTime runs never).text ∧
      (loadData (some content)).surface.date = (lastOf ToolRun.scanTime runs never).text := by
  obtain ⟨r, hr⟩ := exists_tracks hc h
  have hfile : (fun run : ToolRun => run.fileValues.map (fun v => v.date.1)) =
      fun run => run.checkTime.map LocalTime.text := by
    funext run
    cases run <;> rfl
  have hsurface : (fun run : ToolRun => run.surfaceValues.map (fun v => v.date.1)) =
      fun run => run.scanTime.map LocalTime.text := by
    funext run
    cases run <;> rfl
  rw [hr.loadData_eq, Record.panel, hr.file_eq, hr.surface_eq]
  constructor
  · rw [← lastOf_map LocalTime.text, ← hfile]
    exact (lastOf_map (fun v : FileValues => v.date.1)).symm
  · rw [← lastOf_map LocalTime.text, ← hsurface]
    exact (lastOf_map (fun v : SurfaceValues => v.date.1)).symm

/-- From the shipped file on, the line shows the latest of the last runs. -/
theorem lastUpdate_runs (hc : ∀ run ∈ runs, run.Clean) (h : runTools runs = some content)
    (hcheck : ∀ run ∈ runs, ∀ t ∈ run.checkTime, t.Fits)
    (hscan : ∀ run ∈ runs, ∀ t ∈ run.scanTime, t.Fits)
    (p : Stamp) :
    lastUpdate c p.text (loadData (some content)).file.date (loadData (some content)).surface.date =
      (max (max p.time.1 (lastOf ToolRun.checkTime runs never))
        (lastOf ToolRun.scanTime runs never)).text := by
  let f : Stamp := ⟨⟨_, lastOf_fits hcheck⟩, true, fun h => Bool.noConfusion h⟩
  let s : Stamp := ⟨⟨_, lastOf_fits hscan⟩, true, fun h => Bool.noConfusion h⟩
  have hline := lastUpdate_eq c (some p) (some f) (some s)
  rw [stampTime, stampTime, stampTime, ← WithTop.coe_max, ← WithTop.coe_max] at hline
  rw [(panel_dates hc h).1, (panel_dates hc h).2]
  refine Eq.trans hline ?_
  have hmax : ∀ a b : FixedTime, (max a b).1 = max a.1 b.1 := by
    intro a b
    rw [max_def, max_def]
    exact apply_ite Subtype.val _ _ _
  change (max (max p.time f.time) s.time).1.text = _
  rw [hmax, hmax]

end Runs

section Sample

lemma toNat_of_isAlpha {a : Char} (h : a.isAlpha = true) : 65 ≤ a.toNat := by
  rcases (Bool.or_eq_true _ _).mp h with h | h
  · have hu : 'A'.val ≤ a.val ∧ a.val ≤ 'Z'.val := of_decide_eq_true h
    exact UInt32.le_iff_toNat_le.mp hu.1
  · have hl : 'a'.val ≤ a.val := of_decide_eq_true ((Bool.and_eq_true _ _).mp h).1
    exact le_trans (by decide) (UInt32.le_iff_toNat_le.mp hl)

def codePoints : Collation ℕ where
  weight := Char.toNat
  digits := by
    intro m hm n hn h
    rw [Set.mem_Iio] at hm hn
    interval_cases n <;> interval_cases m <;> decide
  digit_lt_letter := fun _ _ hd ha =>
    lt_of_le_of_lt (Char.isDigit_iff_toNat.mp hd).2
      (lt_of_lt_of_le (by decide) (toNat_of_isAlpha ha))

def sampleProbe : Stamp where
  time := ⟨sampleTime, by decide, by decide, by decide, by decide, by decide, by decide⟩
  seconds := false
  whole := fun _ => rfl

theorem lastUpdate_only_probe :
    dateText (some sampleProbe) = "2026-04-12 09:30".toList ∧
      lastUpdate codePoints (dateText (some sampleProbe)) "Never".toList "Never".toList =
        "No Data Available".toList ∧
      ¬ShowsNewest
        (lastUpdate codePoints (dateText (some sampleProbe)) (dateText none) (dateText none))
        (knownDates (some sampleProbe) none none) := by
  refine ⟨by decide, by decide +kernel, fun h => ?_⟩
  have hnil := h.2.mp (lastUpdate_never (Or.inr (Or.inl rfl)))
  exact absurd (knownDates_eq_nil.mp hnil).1 (Option.some_ne_none _)

end Sample

end DriveIntegrity.Status
