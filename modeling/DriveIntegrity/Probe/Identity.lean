import DriveIntegrity.Probe.SelectDrive
import DriveIntegrity.Status.Identity

/-! The model and the serial number of a probe record, as they come back from the status file. -/

namespace DriveIntegrity.Probe

open Integrity (Text)
open Status (LocalTime DriveStats PrintableText Survives Intact IsValue deviceinfo readBack
  xmlEscape xmlEscapeFrom keptTags
  fixedText intText)

variable {r : DriveRecord}

/-- The texts of a record that `deviceinfo` writes as they are, the numbers apart. -/
def DriveRecord.words (r : DriveRecord) : List Text :=
  [r.interfaceStr, r.tech, r.fs, r.healthStatus]

lemma isValue_toVal (v : ℤ) : IsValue (toVal v).shown := by
  unfold toVal
  split_ifs
  · change IsValue "N/A".toList
    decide
  · exact Status.isValue_intText v

lemma isValue_tempText (r : DriveRecord) : IsValue r.tempText := by
  unfold DriveRecord.tempText
  split_ifs
  · exact Status.isValue_intText _
  · decide

def DriveRecord.numbers (r : DriveRecord) : List Text :=
  [fixedText 2 r.totGB, fixedText 2 r.usedGB, fixedText 2 r.freeGB,
    (toVal r.hours).shown, r.tempText, (toVal r.reallocated).shown]

lemma isValue_numbers : ∀ t ∈ r.numbers, IsValue t := by
  simp only [DriveRecord.numbers, List.forall_mem_cons]
  exact ⟨Status.isValue_fixedText _ _, Status.isValue_fixedText _ _, Status.isValue_fixedText _ _,
    isValue_toVal _,
    isValue_tempText r, isValue_toVal _, fun _ h => absurd h List.not_mem_nil⟩

lemma anonymous_clean (h : ∀ t ∈ r.words, NoAngle t) (target : Text) :
    (r.stats target).anonymous.Clean := by
  have hn : ∀ t ∈ r.numbers, NoAngle t := fun t ht => (isValue_numbers t ht).plain.noAngle
  have hnil : NoAngle [] := by decide
  simp only [DriveRecord.words, DriveRecord.numbers, List.forall_mem_cons] at h hn
  change ∀ t ∈ [[], [], fixedText 2 r.totGB, fixedText 2 r.usedGB, fixedText 2 r.freeGB,
    r.interfaceStr, r.tech, r.fs,
    (toVal r.hours).shown, r.tempText, (toVal r.reallocated).shown, r.healthStatus], NoAngle t
  simp only [List.forall_mem_cons]
  tauto

lemma anonymous_readable_iff (r : DriveRecord) (target : Text) :
    (r.stats target).anonymous.Readable ↔ ∀ t ∈ r.words, (charsNode t).isSome = true := by
  have hn : ∀ t ∈ r.numbers, (charsNode t).isSome = true := by
    intro t ht
    rw [Status.charsNode_value ⟨t, isValue_numbers t ht⟩]
    rfl
  have hnil : (charsNode []).isSome = true := rfl
  simp only [DriveRecord.words, DriveRecord.numbers, List.forall_mem_cons] at hn ⊢
  change
    (∀ t ∈ [[], [], r.interfaceStr, r.tech, r.fs, fixedText 2 r.totGB, fixedText 2 r.usedGB,
      fixedText 2 r.freeGB,
    (toVal r.hours).shown, r.tempText, (toVal r.reallocated).shown, r.healthStatus],
    (charsNode t).isSome = true) ↔ _
  simp only [List.forall_mem_cons]
  tauto

/-- What a status file gives back of the record. -/
def DriveRecord.ReadsBack (r : DriveRecord) (document : Text) : Prop :=
  readBack document "Model".toList = some r.modelStr ∧
  readBack document "Serial".toList = some r.serial

instance (r : DriveRecord) (document : Text) : Decidable (r.ReadsBack document) :=
  inferInstanceAs (Decidable (_ ∧ _))

/-- Model and serial number come back exactly when they hold no markup that is not escaped and are
not dropped. -/
theorem identity_reads_back_iff (hw : r.WellFormed) (hm : PrintableText r.modelStr)
    (hs : PrintableText r.serial) (now : LocalTime) (target content : Text) :
    ((∀ t ∈ r.words, NoAngle t) → (∀ tag ∈ keptTags, Intact content tag) →
        (r.ReadsBack (deviceinfo now (readStats target (object r.fields)) content) ↔
          Survives r.modelStr ∧ Survives r.serial ∧ ∀ t ∈ r.words, (charsNode t).isSome = true)) ∧
      -- Whatever the other texts and the old file hold: the rest of the document has to be
      -- well-formed.
      (r.ReadsBack (deviceinfo now (readStats target (object r.fields)) content) ↔
        Survives r.modelStr ∧ Survives r.serial ∧
          (parseXml (deviceinfo now (r.stats target).anonymous content)).isSome = true) ∧
      ∀ t, xmlEscapeFrom t 0 = xmlEscape t := by
  rw [readStats_eq hw]
  have hiff : r.ReadsBack (deviceinfo now (r.stats target) content) ↔ Survives r.modelStr ∧
      Survives r.serial ∧
      (parseXml (deviceinfo now (r.stats target).anonymous content)).isSome = true :=
      Status.readBack_iff hm hs
  refine ⟨fun hwords hkept => ?_, hiff, Status.xmlEscapeFrom_eq⟩
  rw [hiff, Status.anonymous_isSome_iff now (anonymous_clean hwords target) hkept,
    anonymous_readable_iff]

def namedDisk (model : Text) : DriveRecord := { sampleDisk with modelStr := model }

lemma namedDisk_wellFormed {model : Text} (h : CleanText model) : (namedDisk model).WellFormed := by
  have hdisk := sampleRecords_wellFormed sampleDisk (List.mem_cons_of_mem _ List.mem_cons_self)
  refine ⟨?_, hdisk.form, hdisk.apart⟩
  change ∀ t ∈
    ["E:".toList, "NTFS".toList, model, "S1".toList, "USB".toList, "N/A".toList, "CMR".toList,
    "External".toList, "PASSED".toList, []], CleanText t
  simp only [List.forall_mem_cons]
  refine ⟨by decide, by decide, h, by decide, by decide, by decide, by decide, by decide, by decide,
    by decide, ?_⟩
  exact fun _ h => absurd h List.not_mem_nil

def probeTime : LocalTime := ⟨2026, 4, 12, 12, 0, 0⟩

def namedDocument (model : Text) : Text :=
  deviceinfo probeTime (readStats "E:".toList (object (namedDisk model).fields)) []

theorem ampersand_reads_back :
    (namedDisk "Rock & Roll".toList).ReadsBack (namedDocument "Rock & Roll".toList) := by
  have hmodel : CleanText "Rock & Roll".toList := by decide
  have hread := identity_reads_back_iff (namedDisk_wellFormed hmodel) (by decide)
    (by decide) probeTime "E:".toList []
  have hkept : ∀ tag ∈ keptTags, Intact [] tag := by
    have hnone : ∀ tag ∈ keptTags, Status.copyBlock [] tag = [] := by decide
    exact fun tag htag => ⟨[], hnone tag htag, fun _ h => absurd h List.not_mem_nil⟩
  exact (hread.1 (by decide) hkept).mpr (by decide)

/-- A model with a `<` makes a document that is not well-formed. -/
theorem less_than_unreadable :
    (namedDisk "A<B".toList).WellFormed ∧ PrintableText "A<B".toList ∧
      ¬(namedDisk "A<B".toList).ReadsBack (namedDocument "A<B".toList) :=
  ⟨namedDisk_wellFormed (by decide), by decide, by decide +kernel⟩

end DriveIntegrity.Probe
