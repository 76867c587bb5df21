import DriveIntegrity.Probe.Blocks
import DriveIntegrity.Probe.FullProbe

/-! The texts of a printed record, from the texts that Windows and `smartctl` give. -/

namespace DriveIntegrity.Probe

open Integrity (Text)
open Status (fixedText intText LocalTime)

section Wording

/-- The characters of the texts that the probe words itself. -/
def isWording (c : Char) : Bool := c.isAlphanum || " -|/()".toList.contains c

def Wording (t : Text) : Prop := ∀ c ∈ t, isWording c = true

instance (t : Text) : Decidable (Wording t) :=
  inferInstanceAs (Decidable (∀ c ∈ t, isWording c = true))

lemma Wording.append {s t : Text} (hs : Wording s) (ht : Wording t) : Wording (s ++ t) := by
  intro c hc
  exact (List.mem_append.mp hc).elim (hs c) (ht c)

lemma Wording.clean {t : Text} (h : Wording t) : CleanText t :=
  ⟨⟨fun hm => absurd (h _ hm) (by decide), fun hm => absurd (h _ hm) (by decide)⟩,
    fun hm => absurd (h _ hm) (by decide)⟩

variable (d : Disk)

def healthTable : List (Text × Option Text) :=
  [("N/A".toList, some "No SMART telemetry available".toList),
    ("WARNING".toList, some "Hardware Sectors Failing".toList),
    ("DEGRADED (AGED)".toList, some "High Power-On Hours".toList),
    ("DEGRADED (WEAR)".toList, some "High Percentage Used".toList),
    ("DEGRADED (WEAR)".toList, some "High Load Cycle Count".toList), ("PASSED".toList, none)]

lemma health_mem : d.health ∈ healthTable := by
  have hbranch :
      ∀ (a b c e f : Prop) [Decidable a] [Decidable b] [Decidable c] [Decidable e] [Decidable f]
      (u v w x y z : Text × Option Text),
      (if a then u else if b then v else if c then w else if e then x
        else if f then y else z) ∈ [u, v, w, x, y, z] := by
    intro a b c e f _ _ _ _ _ u v w x y z
    split_ifs <;> simp only [List.mem_cons, true_or, or_true]
  exact hbranch _ _ _ _ _ _ _ _ _ _ _

lemma healthTable_wording : ∀ h ∈ healthTable, Wording h.1 ∧ ∀ remark ∈ h.2,
    Wording remark := by decide

lemma notes_wording : Wording d.notes := by
  have hstart :
      Wording (if d.SystemDrive then "System Drive - Stress Test Forbidden".toList else []) := by
    split_ifs <;> decide
  have hremark := (healthTable_wording _ (health_mem d)).2
  unfold Disk.notes
  cases hh : d.health.2 with
  | none => exact hstart
  | some remark =>
    apply (hstart.append _).append (hremark remark hh)
    split_ifs <;> decide

lemma wordings : ∀ t ∈ [d.tech, d.profile, d.health.1, d.notes], Wording t := by
  have htech : Wording d.tech := by
    unfold Disk.tech
    split_ifs <;> decide
  have hprofile : Wording d.profile := by
    unfold Disk.profile
    split_ifs <;> decide
  simp only [List.forall_mem_cons]
  exact ⟨htech, hprofile, (healthTable_wording _ (health_mem d)).1, notes_wording d,
    fun _ h => absurd h List.not_mem_nil⟩

end Wording

section Texts

variable {d : Disk}

lemma mem_extractSerial {pnp : Text} {c : Char} (h : c ∈ extractSerialFromPnP pnp) : c ∈ pnp := by
  unfold extractSerialFromPnP at h
  split_ifs at h
  · have htake := (List.takeWhile_sublist _).mem (mem_cleanStr h)
    exact List.mem_reverse.mp ((List.takeWhile_sublist _).mem (List.mem_reverse.mp htake))
  · exact mem_cleanStr h

lemma mem_modelStr {c : Char} (h : c ∈ d.modelStr) : c ∈ d.model ∨ c ∈ d.smart.model := by
  unfold Disk.modelStr at h
  split_ifs at h
  · exact Or.inl (mem_cleanStr h)
  · exact Or.inr h

lemma mem_serial {c : Char} (h : c ∈ d.serial) : c ∈ d.pnpDeviceID ∨ c ∈ d.smart.serial := by
  unfold Disk.serial at h
  split_ifs at h
  · exact Or.inl (mem_cleanStr (mem_extractSerial h))
  · exact Or.inr h

lemma partitionLoop_fs {P : Text → Prop} {s : Mounted} (hs : P s.fs)
    {partitions : List (List Volume)}
    (h : ∀ p ∈ partitions, ∀ v ∈ p, P (cleanStr v.fileSystem)) :
    P (partitionLoop s partitions).fs := by
  induction partitions generalizing s with
  | nil => exact hs
  | cons p partitions ih =>
    rw [List.forall_mem_cons] at h
    have henter : P (s.enter p).fs := by
      cases p with
      | nil => exact hs
      | cons v p => exact h.1 v List.mem_cons_self
    unfold partitionLoop
    split_ifs
    · exact henter
    · exact ih henter h.2

lemma Disk.mounted_fs {P : Text → Prop} (hnone : P "N/A".toList)
    (h : ∀ v ∈ d.volumes, P (cleanStr v.fileSystem)) :
    P d.mounted.fs :=
  partitionLoop_fs hnone (fun p hp v hv => h v (List.mem_flatten.mpr ⟨p, hp, hv⟩))

/-- No text that Windows or `smartctl` gives has a brace or a quote. -/
structure Disk.Readable (d : Disk) : Prop where
  texts :
    ∀ t ∈ [d.model, d.pnpDeviceID, d.interfaceType, d.smart.model, d.smart.serial, d.smart.family,
    d.smart.formFactor], CleanText t
  fileSystems : ∀ v ∈ d.volumes, CleanText v.fileSystem

lemma cleanText_of_mem {s : Text} (h : ∀ c ∈ s, c ≠ '{' ∧ c ≠ '}' ∧ c ≠ '"') : CleanText s :=
  ⟨⟨fun hc => (h _ hc).1 rfl, fun hc => (h _ hc).2.1 rfl⟩, fun hc => (h _ hc).2.2 rfl⟩

lemma CleanText.ne {t : Text} (h : CleanText t) {c : Char} (hc : c ∈ t) :
    c ≠ '{' ∧ c ≠ '}' ∧ c ≠ '"' := by
  refine ⟨?_, ?_, ?_⟩ <;> rintro rfl
  · exact h.1.1 hc
  · exact h.1.2 hc
  · exact h.2 hc

lemma CleanText.cleanStr {t : Text} (h : CleanText t) : CleanText (cleanStr t) :=
  cleanText_of_mem (fun _ hc => h.ne (mem_cleanStr hc))

lemma Disk.mounted_clean (d : Disk) : CleanText d.mounted.letter := by
  rw [d.mounted_letter]
  cases d.firstVolume with
  | none => exact notAvailable_clean
  | some v =>
    apply cleanText_of_mem
    intro c hc
    rcases List.mem_cons.mp hc with rfl | hc
    · exact ⟨v.letter_ne (by decide), v.letter_ne (by decide), v.letter_ne (by decide)⟩
    · rw [List.mem_singleton.mp hc]
      decide

lemma unspelled_of_unquoted {key t : Text} (h : '"' ∉ t) : ¬quoted key ++ [':'] <:+: '"' :: t := by
  intro hin
  have hcount := hin.sublist.count_le '"'
  have hnone : t.count '"' = 0 := List.count_eq_zero.mpr h
  simp only [quoted, List.cons_append, List.count_cons_self, List.count_append, hnone] at hcount
  omega

lemma Disk.Readable.wellFormed (h : d.Readable) (tB : LocalTime) : (d.record tB).WellFormed := by
  have htexts := h.texts
  simp only [List.forall_mem_cons] at htexts
  obtain ⟨hmodel, hpnp, hinterface, hsmodel, hsserial, hfamily, hform, -⟩ := htexts
  have hword := wordings d
  simp only [List.forall_mem_cons] at hword
  obtain ⟨htech, hprofile, hhealth, hnotes, -⟩ := hword
  have hfs : CleanText d.mounted.fs :=
    Disk.mounted_fs notAvailable_clean (fun v hv => (h.fileSystems v hv).cleanStr)
  have hmodelStr : CleanText d.modelStr :=
    cleanText_of_mem (fun _ hc => (mem_modelStr hc).elim hmodel.ne hsmodel.ne)
  have hserial : CleanText d.serial :=
    cleanText_of_mem (fun _ hc => (mem_serial hc).elim hpnp.ne hsserial.ne)
  have hfinalFamily : CleanText d.finalFamily := by
    unfold Disk.finalFamily
    split_ifs
    · exact hfamily
    · decide
    · decide
  refine ⟨?_, ?_, ?_⟩
  · change ∀ t ∈ [d.mounted.letter, d.mounted.fs, d.modelStr, d.serial, d.interfaceStr,
      d.finalFamily, d.tech, d.profile, d.health.1, d.notes], CleanText t
    simp only [List.forall_mem_cons]
    exact ⟨d.mounted_clean, hfs, hmodelStr, hserial, hinterface.cleanStr, hfinalFamily, htech.clean,
      hprofile.clean,
      hhealth.clean, hnotes.clean, fun _ h => absurd h List.not_mem_nil⟩
  · apply finalForm_cases (P := NoBrace) d.modelStr d.interfaceStr d.smart.rpm d.totGB
      hform.1 <;> decide
  · exact finalForm_apart d.modelStr d.interfaceStr d.smart.rpm d.totGB
      (fun _ _ => unspelled_of_unquoted hform.2)

end Texts

section Spelling

def keyEnd : Text := "Letter\":".toList

lemma infix_cleanStr (t : Text) : cleanStr t <:+: t := by
  have hback :
      ((t.dropWhile isTrimmed).reverse.dropWhile isTrimmed).reverse <+: t.dropWhile isTrimmed := by
    rw [← List.reverse_suffix, List.reverse_reverse]
    exact List.dropWhile_suffix _
  exact hback.isInfix.trans (List.dropWhile_suffix _).isInfix

lemma infix_extractSerial (pnp : Text) : extractSerialFromPnP pnp <:+: pnp := by
  unfold extractSerialFromPnP
  split_ifs
  · have hlast : (pnp.reverse.takeWhile (fun c => c != '\\')).reverse <:+ pnp := by
      rw [← List.reverse_prefix, List.reverse_reverse]
      exact List.takeWhile_prefix _
    exact ((infix_cleanStr _).trans (List.takeWhile_prefix _).isInfix).trans hlast.isInfix
  · exact infix_cleanStr pnp

lemma quote_mem_of_keyEnd {t : Text} (h : keyEnd <:+: t) : '"' ∈ t :=
  h.mem (show '"' ∈ keyEnd by decide)

lemma unlettered_quoted {t : Text} (h : ¬keyEnd <:+: t) : (JsonValue.quoted t).Unlettered := by
  have hspell : ¬letterKey <:+: '"' :: t := by
    rintro ⟨a, b, he⟩
    apply h
    have hkey : letterKey = '"' :: keyEnd := rfl
    rw [hkey] at he
    rcases a with _ | ⟨c, a⟩
    · exact ⟨[], b, (List.cons_eq_cons.mp he).2⟩
    · exact ⟨a ++ ['"'], b, by simpa using (List.cons_eq_cons.mp he).2⟩
  intro c hc
  have hstop : ((c.isAlphanum || c == '_') = false ∧ c ≠ '"') ∧ c ≠ ':' :=
    (by decide : ∀ c ∈ [',', '\n'], ((c.isAlphanum || c == '_') = false ∧ c ≠ '"') ∧ c ≠ ':') c hc
  exact skips_unspelled (by decide) hstop.1 hstop.2 hspell

lemma unlettered_clean {t : Text} (h : CleanText t) : (JsonValue.quoted t).Unlettered :=
  unlettered_quoted (fun hk => h.2 (quote_mem_of_keyEnd hk))

lemma unlettered_bare {t : Text} (h : Numeral t) : (JsonValue.bare t).Unlettered := by
  intro c hc
  apply skips_unquoted
  rw [JsonValue.text, List.mem_append, not_or]
  refine ⟨h.clean.2, ?_⟩
  exact (by decide : ∀ c ∈ [',', '\n'], '"' ∉ [c]) c hc

lemma unlettered_toVal (v : ℤ) : (toVal v).Unlettered := by
  unfold toVal
  split_ifs
  · exact unlettered_clean notAvailable_clean
  · exact unlettered_bare (numeral_intText v)

lemma unlettered_toTB (tb : Option ℚ) : (toTB tb).Unlettered := by
  cases tb with
  | none => exact unlettered_clean notAvailable_clean
  | some q =>
      exact unlettered_clean (cleanText_append.mpr ⟨(numeral_fixedText 2 q).clean, by decide⟩)

variable {d : Disk}

/-- No text that Windows or `smartctl` gives spells the key of the letter. -/
structure Disk.Unspelled (d : Disk) : Prop where
  texts :
    ∀ t ∈ [d.model, d.pnpDeviceID, d.interfaceType, d.smart.model, d.smart.serial, d.smart.family,
    d.smart.formFactor], ¬keyEnd <:+: t
  fileSystems : ∀ v ∈ d.volumes, ¬keyEnd <:+: v.fileSystem

lemma rpmText_clean (r : DriveRecord) : CleanText r.rpmText := by
  unfold DriveRecord.rpmText
  split_ifs
  · exact (numeral_intText _).clean
  · exact notAvailable_clean

lemma tempText_clean (r : DriveRecord) : CleanText r.tempText := by
  unfold DriveRecord.tempText
  split_ifs
  · exact (numeral_intText _).clean
  · exact notAvailable_clean

lemma Disk.Unspelled.lettered (h : d.Unspelled) (tB : LocalTime) : (d.record tB).Lettered := by
  have htexts := h.texts
  simp only [List.forall_mem_cons] at htexts
  obtain ⟨hmodel, hpnp, hinterface, hsmodel, hsserial, hfamily, hform, -⟩ := htexts
  have hword := wordings d
  simp only [List.forall_mem_cons] at hword
  obtain ⟨htech, hprofile, hhealth, hnotes, -⟩ := hword
  have hfs : (JsonValue.quoted d.mounted.fs).Unlettered := by
    apply unlettered_quoted
    apply Disk.mounted_fs (P := fun t => ¬keyEnd <:+: t) (by decide)
    exact fun v hv hin => h.fileSystems v hv (hin.trans (infix_cleanStr _))
  have hmodelStr : (JsonValue.quoted d.modelStr).Unlettered := by
    apply unlettered_quoted
    unfold Disk.modelStr
    split_ifs
    · exact fun hin => hmodel (hin.trans (infix_cleanStr _))
    · exact hsmodel
  have hserial : (JsonValue.quoted d.serial).Unlettered := by
    apply unlettered_quoted
    unfold Disk.serial
    split_ifs
    · exact fun hin => hpnp (hin.trans ((infix_extractSerial _).trans (infix_cleanStr _)))
    · exact hsserial
  have hinterfaceStr : (JsonValue.quoted d.interfaceStr).Unlettered :=
    unlettered_quoted (fun hin => hinterface (hin.trans (infix_cleanStr _)))
  have hfinalFamily : (JsonValue.quoted d.finalFamily).Unlettered := by
    apply unlettered_quoted
    unfold Disk.finalFamily
    split_ifs
    · exact hfamily
    · decide
    · decide
  have hfinalForm : (JsonValue.quoted (d.record tB).finalForm).Unlettered := by
    apply unlettered_quoted
    apply finalForm_cases (P := fun t => ¬keyEnd <:+: t) d.modelStr d.interfaceStr d.smart.rpm
      d.totGB hform <;> decide
  have hdevice : CleanText ("/dev/pd".toList ++ intText d.index) :=
    cleanText_append.mpr ⟨by decide, (numeral_intText d.index).clean⟩
  have hfixed : ∀ q, (JsonValue.bare (fixedText 2 q)).Unlettered := fun q =>
    unlettered_bare (numeral_fixedText 2 q)
  refine ⟨d.mounted_clean, ?_⟩
  have hvalues : ∀ v ∈ (d.record tB).fields.tail.map Prod.snd, v.Unlettered := by
    change ∀ v ∈ [JsonValue.quoted d.mounted.fs, .bare (fixedText 2 d.totGB),
      .bare (fixedText 2 (d.record tB).usedGB),
      .bare (fixedText 2 (d.record tB).freeGB), .bare (fixedText 2 (d.record tB).percentUsed),
      .quoted d.modelStr,
      .quoted d.serial, .quoted d.interfaceStr, .quoted ("/dev/pd".toList ++ intText d.index),
      .quoted d.finalFamily,
      .quoted d.tech, .quoted (d.record tB).finalForm, .quoted d.profile,
      .quoted (d.record tB).rpmText,
      .quoted d.health.1, toVal d.smart.hours, .quoted (d.record tB).tempText,
      toVal d.smart.loadCycles,
      toTB (d.record tB).dataUnitsWritten, toVal d.smart.reallocated, toVal d.smart.pending,
      toVal d.smart.offlineUnc,
      .quoted d.notes, .quoted tB.text], v.Unlettered
    simp only [List.forall_mem_cons, hfs, hfixed, hmodelStr, hserial, hinterfaceStr,
      unlettered_clean hdevice, hfinalFamily, unlettered_clean htech.clean, hfinalForm,
      unlettered_clean hprofile.clean, unlettered_clean (rpmText_clean _),
      unlettered_clean hhealth.clean, unlettered_toVal, unlettered_clean (tempText_clean _),
      unlettered_toTB, unlettered_clean hnotes.clean, unlettered_clean (clean_time tB), true_and]
    exact fun v hv => absurd hv List.not_mem_nil
  exact fun f hf => hvalues f.2 (List.mem_map_of_mem hf)

end Spelling

end DriveIntegrity.Probe
