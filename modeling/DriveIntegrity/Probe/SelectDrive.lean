import DriveIntegrity.Probe.GetJsonValue

/-! `deviceinfo` reads back what `full_probe` prints. -/

namespace DriveIntegrity.Probe

open Integrity (Text)
open Status (fixedText intText padded LocalTime DriveStats)

section Numerals

def CleanText (t : Text) : Prop := NoBrace t ∧ '"' ∉ t

instance (t : Text) : Decidable (NoBrace t) := inferInstanceAs (Decidable (_ ∧ _))

instance (t : Text) : Decidable (CleanText t) := inferInstanceAs (Decidable (_ ∧ _))

lemma cleanText_append {s t : Text} : CleanText (s ++ t) ↔ CleanText s ∧ CleanText t := by
  simp only [CleanText, noBrace_append, List.mem_append, not_or]
  tauto

def isNumeral (c : Char) : Bool := c.isDigit || c == '-' || c == '.' || c == ':'

def Numeral (t : Text) : Prop := ∀ c ∈ t, isNumeral c = true

lemma Numeral.append {s t : Text} (hs : Numeral s) (ht : Numeral t) : Numeral (s ++ t) := by
  intro c hc
  exact (List.mem_append.mp hc).elim (hs c) (ht c)

lemma Numeral.cons {t : Text} {c : Char} (hc : isNumeral c = true) (ht : Numeral t) :
    Numeral (c :: t) := by
  intro d hd
  rcases List.mem_cons.mp hd with rfl | hd
  · exact hc
  · exact ht d hd

lemma Numeral.clean {t : Text} (h : Numeral t) : CleanText t :=
  ⟨⟨fun hm => absurd (h _ hm) (by decide), fun hm => absurd (h _ hm) (by decide)⟩,
    fun hm => absurd (h _ hm) (by decide)⟩

lemma numeral_decimal (n : ℕ) : Numeral (decimal n) := by
  intro c hc
  rw [isNumeral, isDigit_of_mem_decimal hc]
  rfl

lemma numeral_padded (width n : ℕ) : Numeral (padded width n) := by
  intro c hc
  rw [isNumeral, Status.isDigit_of_mem_padded hc]
  rfl

lemma numeral_intText (z : ℤ) : Numeral (intText z) := by
  unfold intText
  split_ifs
  · exact (numeral_decimal _).cons (by decide)
  · exact numeral_decimal _

lemma numeral_fixedText (digits : ℕ) (q : ℚ) : Numeral (fixedText digits q) := by
  have hsign : Numeral (if q < 0 then ['-'] else []) := by
    intro c hc
    split_ifs at hc
    · rw [List.mem_singleton.mp hc]
      decide
    · cases hc
  exact (hsign.append (numeral_decimal _)).append ((numeral_padded _ _).cons (by decide))

lemma clean_time (t : LocalTime) : CleanText t.text := by
  have hp : ∀ width n, CleanText (padded width n) := fun width n => (numeral_padded width n).clean
  have hc : ∀ c width n, CleanText [c] → CleanText (c :: padded width n) :=
    fun c width n h => cleanText_append.mpr ⟨h, hp width n⟩
  unfold LocalTime.text
  simp only [cleanText_append]
  exact ⟨⟨⟨⟨⟨hp _ _, hc _ _ _ (by decide)⟩, hc _ _ _ (by decide)⟩, hc _ _ _ (by decide)⟩,
    hc _ _ _ (by decide)⟩,
    hc _ _ _ (by decide)⟩

/-- A value that can be read and does not open or close a block. -/
def JsonValue.Sound (v : JsonValue) : Prop := v.Readable ∧ NoBrace v.text

lemma sound_quoted {t : Text} (h : CleanText t) : (JsonValue.quoted t).Sound := by
  refine ⟨h.2, ?_⟩
  have hq : NoBrace ['"'] := by decide
  exact noBrace_append.mpr ⟨noBrace_append.mpr ⟨hq, h.1⟩, hq⟩

lemma sound_bare {t : Text} (h : Numeral t) (hne : t ≠ []) : (JsonValue.bare t).Sound := by
  refine ⟨⟨hne, fun c hm => ⟨?_, ?_, ?_⟩⟩, h.clean.1⟩
  · rintro rfl
    exact absurd (h _ hm) (by decide)
  · by_contra he
    simp only [Bool.not_eq_false, endsValue, Bool.or_eq_true, beq_iff_eq] at he
    rcases he with ((rfl | rfl) | rfl) | rfl <;> exact absurd (h _ hm) (by decide)
  · by_contra he
    simp only [Bool.not_eq_false, isSpace, Bool.or_eq_true, beq_iff_eq] at he
    rcases he with ((((rfl | rfl) | rfl) | rfl) | rfl) | rfl <;> exact absurd (h _ hm) (by decide)

lemma notAvailable_clean : CleanText "N/A".toList := by decide

lemma sound_fixed (q : ℚ) : (JsonValue.bare (fixedText 2 q)).Sound := by
  apply sound_bare (numeral_fixedText 2 q)
  exact (Status.isValue_fixedText 2 q).ne_nil

lemma sound_toVal (v : ℤ) : (toVal v).Sound := by
  unfold toVal
  split_ifs
  · exact sound_quoted notAvailable_clean
  · exact sound_bare (numeral_intText v) (Status.isValue_intText v).ne_nil

lemma sound_toTB (tb : Option ℚ) : (toTB tb).Sound := by
  cases tb with
  | none => exact sound_quoted notAvailable_clean
  | some q => exact sound_quoted (cleanText_append.mpr ⟨(numeral_fixedText 2 q).clean, by decide⟩)

end Numerals

section Records

def laterKeys : List Text :=
  ["Stress_Profile".toList, "Health".toList, "Hours".toList, "Temp".toList,
    "Reallocated_Sectors_Ct".toList]

def readKeys : List Text :=
  ["Letter".toList, "FsType".toList, "TotalGB".toList, "UsedGB".toList, "FreeGB".toList,
    "Model".toList, "Serial".toList, "Interface".toList, "Technology".toList] ++ laterKeys

/-- Strings without braces and quotes; the form factor may have quotes, but it does not spell a
later key. -/
structure DriveRecord.WellFormed (r : DriveRecord) : Prop where
  texts :
    ∀ t ∈ [r.letter, r.fs, r.modelStr, r.serial, r.interfaceStr, r.finalFamily, r.tech, r.profile,
    r.healthStatus, r.notes], CleanText t
  form : NoBrace r.finalForm
  apart : ∀ key ∈ laterKeys, ¬quoted key ++ [':'] <:+: '"' :: r.finalForm

def fieldNames : List Text :=
  ["Letter".toList, "FsType".toList, "TotalGB".toList, "UsedGB".toList, "FreeGB".toList,
    "PercentUsed".toList,
    "Model".toList, "Serial".toList, "Interface".toList, "LinuxDevice".toList, "Family".toList,
    "Technology".toList,
    "Form_Factor".toList, "Stress_Profile".toList, "RPM".toList, "Health".toList, "Hours".toList,
    "Temp".toList,
    "Load_Cycles".toList, "Total_Data_Written".toList, "Reallocated_Sectors_Ct".toList,
    "Current_Pending_Sector".toList, "Offline_Uncorrectable".toList, "Notes".toList,
    "Timestamp".toList]

lemma fieldNames_nodup : fieldNames.Nodup := by decide

lemma fieldNames_words : ∀ key ∈ fieldNames, isWord key = true := by decide

lemma later_of_drop : ∀ key ∈ fieldNames.drop 13, key ∈ readKeys → key ∈ laterKeys := by decide

variable (r : DriveRecord)

lemma names_eq : r.fields.map Prod.fst = fieldNames := rfl

lemma fields_split :
    r.fields = r.fields.take 12 ++ ("Form_Factor".toList, .quoted r.finalForm) ::
      r.fields.drop 13 := rfl

variable {r}

lemma DriveRecord.WellFormed.sound (hw : r.WellFormed) :
    ∀ f ∈ r.fields.take 12 ++ r.fields.drop 13, f.2.Sound := by
  have hclean := hw.texts
  simp only [List.forall_mem_cons] at hclean
  obtain ⟨hletter, hfs, hmodel, hserial, hinterface, hfamily, htech, hprofile, hhealth,
      hnotes, -⟩ := hclean
  have hdevice : CleanText ("/dev/pd".toList ++ intText r.idx) :=
    cleanText_append.mpr ⟨by decide, (numeral_intText r.idx).clean⟩
  have hrpm : CleanText r.rpmText := by
    unfold DriveRecord.rpmText
    split_ifs
    · exact (numeral_intText _).clean
    · exact notAvailable_clean
  have htemp : CleanText r.tempText := by
    unfold DriveRecord.tempText
    split_ifs
    · exact (numeral_intText _).clean
    · exact notAvailable_clean
  have hvalues : ∀ v ∈ (r.fields.take 12 ++ r.fields.drop 13).map Prod.snd, v.Sound := by
    change ∀ v ∈ [JsonValue.quoted r.letter, .quoted r.fs, .bare (fixedText 2 r.totGB),
      .bare (fixedText 2 r.usedGB),
      .bare (fixedText 2 r.freeGB), .bare (fixedText 2 r.percentUsed), .quoted r.modelStr,
      .quoted r.serial,
      .quoted r.interfaceStr, .quoted ("/dev/pd".toList ++ intText r.idx), .quoted r.finalFamily,
      .quoted r.tech,
      .quoted r.profile, .quoted r.rpmText, .quoted r.healthStatus, toVal r.hours,
      .quoted r.tempText,
      toVal r.loadCycles, toTB r.dataUnitsWritten, toVal r.reallocated, toVal r.pending,
      toVal r.offlineUnc,
      .quoted r.notes, .quoted r.tB.text], v.Sound
    simp only [List.forall_mem_cons, sound_fixed, sound_toVal, sound_toTB, sound_quoted hletter,
      sound_quoted hfs, sound_quoted hmodel, sound_quoted hserial, sound_quoted hinterface,
      sound_quoted hdevice, sound_quoted hfamily, sound_quoted htech, sound_quoted hprofile,
      sound_quoted hrpm, sound_quoted hhealth, sound_quoted htemp, sound_quoted hnotes,
      sound_quoted (clean_time r.tB), true_and]
    exact fun v hv => absurd hv List.not_mem_nil
  exact fun f hf => hvalues f.2 (List.mem_map_of_mem hf)

lemma DriveRecord.WellFormed.read (hw : r.WellFormed) {f : Text × JsonValue}
    (hf : f ∈ r.fields.take 12 ++ r.fields.drop 13) (hkey : f.1 ∈ readKeys) :
    getJsonValue (object r.fields) f.1 = f.2.shown := by
  have hname : ∀ g ∈ r.fields, g.1 ∈ fieldNames := fun g hg => names_eq r ▸ List.mem_map_of_mem hg
  have hnodup : (r.fields.map Prod.fst).Nodup := names_eq r ▸ fieldNames_nodup
  have hword : ∀ g ∈ r.fields, isWord g.1 = true := fun g hg => fieldNames_words _ (hname g hg)
  have hin : f ∈ r.fields := by
    rw [fields_split]
    rcases List.mem_append.mp hf with h | h
    · exact List.mem_append_left _ h
    · exact List.mem_append_right _ (List.mem_cons_of_mem _ h)
  have hread : ∀ pre post, r.fields = pre ++ f :: post → (∀ g ∈ pre, g.2.Tame f.1) →
      getJsonValue (object r.fields) f.1 = f.2.shown := by
    intro pre post hsplit htame
    rw [hsplit, List.map_append, List.map_cons, List.nodup_append] at hnodup
    rw [hsplit]
    apply getJsonValue_object (hword f hin) (hw.sound f hf).1
    intro g hg
    refine ⟨hword g (hsplit ▸ List.mem_append_left _ hg), ?_, htame g hg⟩
    exact hnodup.2.2 g.1 (List.mem_map_of_mem hg) f.1 List.mem_cons_self
  have htame : ∀ g ∈ r.fields.take 12 ++ r.fields.drop 13, g.2.Tame f.1 :=
    fun g hg => (hw.sound g hg).1.tame (hword f hin)
  rcases List.mem_append.mp hf with h | h
  · obtain ⟨pre, post, hsplit⟩ := List.append_of_mem h
    apply hread pre (post ++ ("Form_Factor".toList, .quoted r.finalForm) :: r.fields.drop 13)
    · rw [← List.cons_append, ← List.append_assoc, ← hsplit]
      exact fields_split r
    · intro g hg
      exact htame g (List.mem_append_left _ (hsplit ▸ List.mem_append_left _ hg))
  · obtain ⟨pre, post, hsplit⟩ := List.append_of_mem h
    apply hread (r.fields.take 12 ++ ("Form_Factor".toList, .quoted r.finalForm) :: pre) post
    · rw [List.append_assoc, List.cons_append, ← hsplit]
      exact fields_split r
    · intro g hg
      rcases List.mem_append.mp hg with hg | hg
      · exact htame g (List.mem_append_left _ hg)
      rcases List.mem_cons.mp hg with rfl | hg
      · have hlater : f.1 ∈ laterKeys := by
          apply later_of_drop _ _ hkey
          rw [← names_eq r, ← List.map_drop]
          exact List.mem_map_of_mem h
        exact skips_unspelled (hword f hin) (by decide) (by decide) (hw.apart f.1 hlater)
      · exact htame g (List.mem_append_right _ (hsplit ▸ List.mem_append_left _ hg))

def DriveRecord.stats (r : DriveRecord) (targetDrive : Text) : DriveStats where
  model := r.modelStr
  serial := r.serial
  totalGB := fixedText 2 r.totGB
  usedGB := fixedText 2 r.usedGB
  freeGB := fixedText 2 r.freeGB
  interface := r.interfaceStr
  tech := r.tech
  fsType := r.fs
  hours := (toVal r.hours).shown
  temp := r.tempText
  reallocated := (toVal r.reallocated).shown
  health := r.healthStatus
  isSystemDrive := decide (r.profile = "System Drive".toList ∨ targetDrive = "C:".toList)

lemma readStats_eq (hw : r.WellFormed) (target : Text) :
    readStats target (object r.fields) = r.stats target := by
  have hread : ∀ (i : ℕ) (key : Text) (v : JsonValue),
      (r.fields.take 12 ++ r.fields.drop 13)[i]? = some (key, v) →
      key ∈ readKeys → getJsonValue (object r.fields) key = v.shown :=
    fun i key v hi => hw.read (List.mem_of_getElem? hi)
  unfold readStats
  rw [hread 1 "FsType".toList _ rfl (by decide), hread 2 "TotalGB".toList _ rfl (by decide),
    hread 3 "UsedGB".toList _ rfl (by decide), hread 4 "FreeGB".toList _ rfl (by decide),
    hread 6 "Model".toList _ rfl (by decide), hread 7 "Serial".toList _ rfl (by decide),
    hread 8 "Interface".toList _ rfl (by decide), hread 11 "Technology".toList _ rfl (by decide),
    hread 12 "Stress_Profile".toList _ rfl (by decide), hread 14 "Health".toList _ rfl (by decide),
    hread 15 "Hours".toList _ rfl (by decide), hread 16 "Temp".toList _ rfl (by decide),
    hread 19 "Reallocated_Sectors_Ct".toList _ rfl (by decide)]
  rfl

end Records

section Main

lemma object_eq (fields : List (Text × JsonValue)) :
    object fields = '{' :: ('\n' :: members fields ++ "    ".toList) ++ ['}'] := by
  have hopen : "\x7b\n".toList = ['{', '\n'] := rfl
  have hclose : "    \x7d".toList = "    ".toList ++ ['}'] := rfl
  unfold object
  rw [hopen, hclose]
  simp only [List.cons_append, List.nil_append, List.append_assoc]

lemma noBrace_member {f : Text × JsonValue} (hf : isWord f.1 = true) (hv : NoBrace f.2.text) :
    NoBrace (member f) := by
  have hname : NoBrace f.1 := ⟨notMem_of_isWord hf (by decide), notMem_of_isWord hf (by decide)⟩
  have hq : NoBrace ['"'] := by decide
  unfold member
  simp only [noBrace_append]
  exact ⟨⟨⟨by decide, noBrace_append.mpr ⟨noBrace_append.mpr ⟨hq, hname⟩, hq⟩⟩, by decide⟩, hv⟩

lemma noBrace_members {fields : List (Text × JsonValue)} (h : ∀ f ∈ fields, NoBrace (member f)) :
    NoBrace (members fields) := by
  induction fields with
  | nil => decide
  | cons f fields ih =>
    rw [List.forall_mem_cons] at h
    cases fields with
    | nil => exact noBrace_append.mpr ⟨h.1, by decide⟩
    | cons g fields => exact noBrace_append.mpr ⟨noBrace_append.mpr ⟨h.1, by decide⟩, ih h.2⟩

variable {r : DriveRecord}

lemma DriveRecord.WellFormed.noBrace (hw : r.WellFormed) : NoBrace (members r.fields) := by
  apply noBrace_members
  intro f hf
  have hword : isWord f.1 = true := fieldNames_words _ (names_eq r ▸ List.mem_map_of_mem hf)
  apply noBrace_member hword
  rw [fields_split] at hf
  rcases List.mem_append.mp hf with hf | hf
  · exact (hw.sound f (List.mem_append_left _ hf)).2
  rcases List.mem_cons.mp hf with rfl | hf
  · have hq : NoBrace ['"'] := by decide
    exact noBrace_append.mpr ⟨noBrace_append.mpr ⟨hq, hw.form⟩, hq⟩
  · exact (hw.sound f (List.mem_append_right _ hf)).2

lemma printDrives_cons (first : Bool) (r : DriveRecord) (records : List DriveRecord) :
    printDrives first (r :: records) =
      (if first then [] else ",\n".toList) ++ "    ".toList ++ object r.fields ++ printDrives false
        records := rfl

lemma selectDrive_drives {records : List DriveRecord} (hw : ∀ r ∈ records, r.WellFormed)
    (target : Text) {lead : Text} (hl : '{' ∉ lead) (first : Bool) :
    selectDrive target (lead ++ (printDrives first records ++ "\n]\n".toList)) =
      (records.find? (fun r => decide (toUpper r.letter = target))).map
        (fun r => r.stats target) := by
  induction records generalizing lead first with
  | nil =>
    apply selectDrive_none
    apply nextBlock_none
    have hend : '{' ∉ "\n]\n".toList := by decide
    rw [List.mem_append, not_or]
    exact ⟨hl, hend⟩
  | cons r records ih =>
    rw [List.forall_mem_cons] at hw
    obtain ⟨hr, hrest⟩ := hw
    have hletter : getJsonValue (object r.fields) "Letter".toList = r.letter :=
      hr.read (f := ("Letter".toList, .quoted r.letter)) List.mem_cons_self
        (show "Letter".toList ∈ readKeys by decide)
    have hlead : '{' ∉ lead ++ ((if first then [] else ",\n".toList) ++ "    ".toList) := by
      rw [List.mem_append, not_or]
      refine ⟨hl, ?_⟩
      cases first <;> decide
    have hbody : '}' ∉ '\n' :: members r.fields ++ "    ".toList := by
      rw [List.cons_append, List.mem_cons, List.mem_append, not_or, not_or]
      exact ⟨by decide, hr.noBrace.2, by decide⟩
    have hprint : lead ++ (printDrives first (r :: records) ++ "\n]\n".toList) =
        lead ++ ((if first then [] else ",\n".toList) ++ "    ".toList) ++
          ('{' :: ('\n' :: members r.fields ++ "    ".toList) ++
            '}' :: ([] ++ (printDrives false records ++ "\n]\n".toList))) := by
      rw [printDrives_cons, object_eq]
      simp only [List.append_assoc, List.cons_append, List.nil_append]
    have hblock := nextBlock_eq hlead hbody ([] ++ (printDrives false records ++ "\n]\n".toList))
    rw [hprint, selectDrive_some hblock, ← object_eq, hletter, readStats_eq hr,
      ih hrest List.not_mem_nil]
    by_cases ht : toUpper r.letter = target
    · rw [if_pos ht, List.find?_cons_of_pos (by simpa using ht), Option.map_some]
    · rw [if_neg ht, List.find?_cons_of_neg (by simpa using ht)]

/-- The drive is the first one with the letter, and every field is read as it was printed. -/
theorem deviceinfo_reads_probe {records : List DriveRecord} (hw : ∀ r ∈ records, r.WellFormed)
    (arg : Text) :
    selectDrive (targetDrive arg) (fullProbe records) =
        (records.find? (fun r => decide (toUpper r.letter = targetDrive arg))).map
          (fun r => r.stats (targetDrive arg)) ∧
      ∀ r ∈ records, ∀ f ∈ r.fields, f.1 ∈ readKeys →
        getJsonValue (object r.fields) f.1 = f.2.shown := by
  constructor
  · have hstart : '{' ∉ "[\n".toList := by decide
    have h := selectDrive_drives hw (targetDrive arg) hstart true
    unfold fullProbe
    rw [List.append_assoc]
    exact h
  · intro r hr f hf hkey
    apply (hw r hr).read _ hkey
    rw [fields_split] at hf
    rcases List.mem_append.mp hf with hf | hf
    · exact List.mem_append_left _ hf
    rcases List.mem_cons.mp hf with rfl | hf
    · exact absurd (show "Form_Factor".toList ∈ readKeys from hkey) (by decide)
    · exact List.mem_append_right _ hf

def sampleDisk : DriveRecord where
  letter := "E:".toList
  fs := "NTFS".toList
  totGB := 1863
  usedGB := 63
  freeGB := 1800
  percentUsed := 7 / 2
  modelStr := "Disk".toList
  serial := "S1".toList
  interfaceStr := "USB".toList
  idx := 1
  finalFamily := "N/A".toList
  tech := "CMR".toList
  finalForm := "3.5\" Drive".toList
  profile := "External".toList
  rpm := 7200
  healthStatus := "PASSED".toList
  hours := 12345
  temp := 31
  loadCycles := -1
  dataUnitsWritten := none
  reallocated := 0
  pending := 0
  offlineUnc := 0
  notes := []
  tB := ⟨2026, 4, 12, 9, 30, 0⟩

def sampleRecords : List DriveRecord :=
  [{ sampleDisk with letter := "C:".toList, hours := 5 }, sampleDisk]

lemma sampleRecords_wellFormed : ∀ r ∈ sampleRecords, r.WellFormed := by
  intro r hr
  rcases List.mem_cons.mp hr with rfl | hr
  · exact ⟨by decide, by decide, by decide⟩
  · rw [List.mem_singleton.mp hr]
    exact ⟨by decide, by decide, by decide⟩

theorem deviceinfo_reads_sample :
    (selectDrive (targetDrive "e".toList) (fullProbe sampleRecords)).map DriveStats.hours =
      some "12345".toList ∧
      getJsonValue (object sampleDisk.fields) "Health".toList = "PASSED".toList := by
  obtain ⟨hselect, hread⟩ := deviceinfo_reads_probe sampleRecords_wellFormed "e".toList
  constructor
  · rw [hselect]
    decide
  · have hmem : sampleDisk ∈ sampleRecords := List.mem_cons_of_mem _ List.mem_cons_self
    exact hread sampleDisk hmem ("Health".toList, .quoted "PASSED".toList)
      (List.mem_of_getElem? (i := 15) rfl)
      (show "Health".toList ∈ readKeys by decide)

end Main

section FormFactor

variable {formFactor : Text} (modelStr interfaceStr : Text) (rpm : ℤ) (totGB : ℚ)

lemma finalForm_cases (P : Text → Prop) (hform : P formFactor) (hthumb : P "Thumb Drive".toList)
    (hlarge : P "3.5\" Drive".toList) (hsmall : P "2.5\" Drive".toList) :
    P (finalForm formFactor modelStr interfaceStr rpm totGB) := by
  have hbranch : ∀ (a b c : Prop) [Decidable a] [Decidable b] [Decidable c] (w x y z : Text),
      P w → P x → P y → P z →
      P (if c then if b then w else x else if a then y else z) := by
    intro a b c _ _ _ w x y z hw hx hy hz
    split_ifs <;> assumption
  exact hbranch _ _ _ _ _ _ _ hlarge hsmall hthumb hform

lemma finalForm_apart (h : ∀ key ∈ laterKeys, ¬quoted key ++ [':'] <:+: '"' :: formFactor) :
    ∀ key ∈ laterKeys,
    ¬quoted key ++ [':'] <:+: '"' :: finalForm formFactor modelStr interfaceStr rpm totGB := by
  apply finalForm_cases modelStr interfaceStr rpm totGB
    (fun t => ∀ key ∈ laterKeys, ¬quoted key ++ [':'] <:+: '"' :: t) h
  all_goals decide

end FormFactor

end DriveIntegrity.Probe
