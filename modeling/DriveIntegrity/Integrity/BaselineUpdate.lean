import DriveIntegrity.Integrity.Culture
import Mathlib.Tactic

/-! The files a run of `create_baselineXML` leaves behind wherever it stops. -/

namespace DriveIntegrity.Integrity

section Script

/-- `baseline_files.txt` and `baseline.xml`. -/
@[ext]
structure BaselinePair where
  files : Option Text
  xml : Option Text
  deriving DecidableEq

/-- What the tools find on a drive: the list, and the hasher's output for a list, in the pieces in
which they reach the files. -/
structure DriveScan where
  listing : List Text
  hashed : Text → List Text

inductive Write
  | openFiles
  | files (piece : Text)
  | openXml (piece : Text)
  | xml (piece : Text)

def Write.apply (pair : BaselinePair) : Write → BaselinePair
  | .openFiles => { pair with files := some [] }
  | .files piece => { pair with files := pair.files.map (· ++ piece) }
  | .openXml piece => { pair with xml := some piece }
  | .xml piece => { pair with xml := pair.xml.map (· ++ piece) }

/-- `FileListGen`, which gives up when it cannot open its output. -/
def listWrites (opens : Bool) (listing : List Text) : List Write :=
  if opens then .openFiles :: listing.map .files else []

/-- The hashing job; `Set-Content` opens its file with the first piece. -/
def hashWrites : List Text → List Write
  | [] => []
  | piece :: pieces => .openXml piece :: pieces.map .xml

/-- The writes of a run; without any list it exits after the first tool. -/
def createBaseline (opens : Bool) (drive : DriveScan) (old : BaselinePair) : List Write :=
  listWrites opens drive.listing ++
    match ((listWrites opens drive.listing).foldl Write.apply old).files with
    | some list => hashWrites (drive.hashed list)
    | none => []

/-- The pair left by a run that stops, or whose hasher stops, after some of the writes. -/
def pairLeft (opens : Bool) (drive : DriveScan) (old : BaselinePair) (k : ℕ) : BaselinePair :=
  ((createBaseline opens drive old).take k).foldl Write.apply old

def newPair (drive : DriveScan) : BaselinePair :=
  ⟨some drive.listing.flatten, some (drive.hashed drive.listing.flatten).flatten⟩

end Script

section Writes

lemma foldl_files (pieces : List Text) (t : Text) (xml : Option Text) :
    (pieces.map Write.files).foldl Write.apply ⟨some t, xml⟩ =
      ⟨some (t ++ pieces.flatten), xml⟩ := by
  induction pieces generalizing t with
  | nil => simp
  | cons piece pieces ih =>
    rw [List.map_cons, List.foldl_cons, Write.apply, Option.map_some, ih, List.flatten_cons,
      List.append_assoc]

lemma foldl_xml (pieces : List Text) (files : Option Text) (t : Text) :
    (pieces.map Write.xml).foldl Write.apply ⟨files, some t⟩ =
      ⟨files, some (t ++ pieces.flatten)⟩ := by
  induction pieces generalizing t with
  | nil => simp
  | cons piece pieces ih =>
    rw [List.map_cons, List.foldl_cons, Write.apply, Option.map_some, ih, List.flatten_cons,
      List.append_assoc]

/-- `baseline.xml` after some pieces of the hasher's output. -/
def xmlAfter (old : Option Text) (pieces : List Text) : Option Text :=
  if pieces = [] then old else some pieces.flatten

lemma foldl_hashWrites (pieces : List Text) (j : ℕ) (pair : BaselinePair) :
    ((hashWrites pieces).take j).foldl Write.apply pair =
      ⟨pair.files, xmlAfter pair.xml (pieces.take j)⟩ := by
  cases pieces with
  | nil => simp [hashWrites, xmlAfter]
  | cons piece pieces =>
    cases j with
    | zero => simp [xmlAfter]
    | succ j =>
      rw [hashWrites, List.take_succ_cons, List.foldl_cons, ← List.map_take, Write.apply,
        foldl_xml, xmlAfter, List.take_succ_cons, if_neg (List.cons_ne_nil _ _), List.flatten_cons]

variable {drive : DriveScan} {old : BaselinePair}

lemma pairLeft_zero (opens : Bool) : pairLeft opens drive old 0 = old := by simp [pairLeft]

lemma createBaseline_opened :
    createBaseline true drive old =
      .openFiles ::
        (drive.listing.map .files ++ hashWrites (drive.hashed drive.listing.flatten)) := by
  have hl : (listWrites true drive.listing).foldl Write.apply old =
      ⟨some drive.listing.flatten, old.xml⟩ := by
    rw [listWrites, if_pos rfl, List.foldl_cons, Write.apply, foldl_files, List.nil_append]
  rw [createBaseline, hl]
  rfl

lemma pairLeft_opened (k : ℕ) :
    pairLeft true drive old (k + 1) =
      ⟨some (drive.listing.take k).flatten,
        xmlAfter old.xml
          ((drive.hashed drive.listing.flatten).take (k - drive.listing.length))⟩ := by
  rw [pairLeft, createBaseline_opened, List.take_succ_cons, List.foldl_cons, Write.apply,
    List.take_append, List.foldl_append, ← List.map_take, foldl_files, List.nil_append,
    List.length_map, foldl_hashWrites]

lemma pairLeft_unopened (k : ℕ) :
    pairLeft false drive old k =
      match old.files with
      | some list => ⟨some list, xmlAfter old.xml ((drive.hashed list).take k)⟩
      | none => old := by
  obtain ⟨files, xml⟩ := old
  cases files with
  | none => simp [pairLeft, createBaseline, listWrites]
  | some list => simp [pairLeft, createBaseline, listWrites, foldl_hashWrites]

end Writes

section Consistency

variable (drive : DriveScan) (old : BaselinePair)

/-- What the hasher writes for the new list, and how much of it is written after `k` writes. -/
def newXml : List Text := drive.hashed drive.listing.flatten

def xmlWritten (k : ℕ) : ℕ := k - 1 - drive.listing.length

/-- The run has done nothing yet; without an output for the list it may have nothing to do. -/
def NothingWritten : Bool → ℕ → Prop
  | true, k => k = 0
  | false, k => k = 0 ∨ ∀ list ∈ old.files, drive.hashed list = []

/-- The run has come to the XML and no byte is still to be written. If the list could not be
written, the one that is there must be the new one. -/
def AllWritten : Bool → ℕ → Prop
  | true, k => 0 < xmlWritten drive k ∧ newXml drive ≠ [] ∧
      ((newXml drive).drop (xmlWritten drive k)).flatten = []
  | false, k => old.files = some drive.listing.flatten ∧ newXml drive ≠ [] ∧
      ((newXml drive).drop k).flatten = []

/-- The bytes written so far, or the whole XML still to come, happen to be those of the old
files. -/
def Coincides : Bool → ℕ → Prop
  | true, k =>
    let pieces := (newXml drive).take (xmlWritten drive k)
    old.files = some (drive.listing.take (k - 1)).flatten ∧
    (pieces = [] ∨ old.xml = some pieces.flatten) ∨
      (drive.listing.drop (k - 1)).flatten = [] ∧ pieces = [] ∧
      old.xml = some (newXml drive).flatten
  | false, k => ∃ list ∈ old.files, old.xml = some ((drive.hashed list).take k).flatten

/-- The old list is no beginning of the new one, and the old XML neither the new one nor a beginning
of what the hasher writes for the old list. -/
structure Outdated : Prop where
  files : ∀ list ∈ old.files, ¬ list <+: drive.listing.flatten
  xml : ∀ xml ∈ old.xml, xml ≠ (newXml drive).flatten ∧ ∀ list ∈ old.files,
    ¬ xml <+: (drive.hashed list).flatten

variable {drive old}

lemma flatten_take_begins (pieces : List Text) (n : ℕ) :
    (pieces.take n).flatten <+: pieces.flatten :=
  ⟨(pieces.drop n).flatten, by rw [← List.flatten_append, List.take_append_drop]⟩

lemma flatten_take_eq_iff {pieces : List Text} {n : ℕ} :
    (pieces.take n).flatten = pieces.flatten ↔ (pieces.drop n).flatten = [] := by
  conv_lhs => rw [← List.take_append_drop n pieces, List.flatten_append]
  rw [List.take_append_drop]
  constructor
  · intro h
    exact List.append_cancel_left (h.symm.trans (List.append_nil _).symm)
  · intro h
    rw [h, List.append_nil]

lemma xmlAfter_eq_old {pieces : List Text} :
    xmlAfter old.xml pieces = old.xml ↔ pieces = [] ∨ old.xml = some pieces.flatten := by
  rw [xmlAfter]
  split_ifs with h
  · simp [h]
  · simp only [h, false_or]
    exact eq_comm

lemma xmlAfter_eq_new {pieces : List Text} {j : ℕ} :
    xmlAfter old.xml (pieces.take j) = some pieces.flatten ↔
      (pieces.take j ≠ [] ∧ (pieces.drop j).flatten = []) ∨
      (pieces.take j = [] ∧ old.xml = some pieces.flatten) := by
  rw [xmlAfter]
  split_ifs with h
  · simp [h]
  · rw [Option.some.injEq, flatten_take_eq_iff]
    simp [h]

lemma pair_eq_iff {list : Text} {pieces : List Text} {pair : BaselinePair} :
    (⟨some list, xmlAfter old.xml pieces⟩ : BaselinePair) = pair ↔
      pair.files = some list ∧ xmlAfter old.xml pieces = pair.xml := by
  rw [BaselinePair.ext_iff, eq_comm (a := some list)]

lemma opened_iff (k : ℕ) :
    (pairLeft true drive old (k + 1) = old ∨ pairLeft true drive old (k + 1) = newPair drive) ↔
      AllWritten drive old true (k + 1) ∨ Coincides drive old true (k + 1) := by
  have hj : k - drive.listing.length = xmlWritten drive (k + 1) := rfl
  have hn : drive.hashed drive.listing.flatten = newXml drive := rfl
  rw [pairLeft_opened, hj, hn, pair_eq_iff, pair_eq_iff, xmlAfter_eq_old, newPair, hn,
    xmlAfter_eq_new, Option.some.injEq, eq_comm (a := drive.listing.flatten), flatten_take_eq_iff,
    AllWritten, Coincides, Nat.add_sub_cancel]
  -- once the XML is begun, the list is written
  have hlist : 0 < xmlWritten drive (k + 1) → drive.listing.drop k = [] := by
    intro h
    rw [List.drop_eq_nil_iff]
    rw [xmlWritten, Nat.add_sub_cancel] at h
    omega
  have hbegun : (newXml drive).take (xmlWritten drive (k + 1)) ≠ [] ↔
      0 < xmlWritten drive (k + 1) ∧ newXml drive ≠ [] := by
    rw [ne_eq, List.take_eq_nil_iff, not_or, Nat.pos_iff_ne_zero]
  rw [hbegun]
  constructor
  · rintro (hold | ⟨hl, ⟨⟨hp, hne⟩, hr⟩ | hx⟩)
    · exact .inr (.inl hold)
    · exact .inl ⟨hp, hne, hr⟩
    · exact .inr (.inr ⟨hl, hx⟩)
  · rintro (⟨hp, hne, hr⟩ | hold | ⟨hl, hx⟩)
    · exact .inr ⟨by rw [hlist hp, List.flatten_nil], .inl ⟨⟨hp, hne⟩, hr⟩⟩
    · exact .inl hold
    · exact .inr ⟨hl, .inr hx⟩

lemma unopened_iff {list : Text} (hf : old.files = some list) (k : ℕ) :
    (pairLeft false drive old (k + 1) = old ∨ pairLeft false drive old (k + 1) = newPair drive) ↔
      drive.hashed list = [] ∨ AllWritten drive old false (k + 1) ∨
      Coincides drive old false (k + 1) := by
  have hn : drive.hashed drive.listing.flatten = newXml drive := rfl
  have hbegun : (drive.hashed list).take (k + 1) = [] ↔ drive.hashed list = [] := by
    simp [List.take_eq_nil_iff]
  rw [pairLeft_unopened, hf]
  simp only
  rw [pair_eq_iff, pair_eq_iff, xmlAfter_eq_old, hbegun, newPair, hn, AllWritten, Coincides, hf]
  simp only [Option.mem_some_iff, exists_eq_left', Option.some.injEq, true_and]
  rw [eq_comm (a := drive.listing.flatten)]
  constructor
  · rintro ((hh | hx) | ⟨hl, hx⟩)
    · exact .inl hh
    · exact .inr (.inr hx)
    · have hlist : newXml drive = drive.hashed list := by rw [newXml, hl]
      rw [hlist, xmlAfter_eq_new, ne_eq, hbegun] at hx
      rcases hx with ⟨hne, hr⟩ | ⟨hh, _⟩
      · exact .inr (.inl ⟨hl, hlist ▸ hne, hlist ▸ hr⟩)
      · exact .inl hh
  · rintro (hh | ⟨hl, hne, hr⟩ | hx)
    · exact .inl (.inl hh)
    · have hlist : newXml drive = drive.hashed list := by rw [newXml, hl]
      rw [hlist] at hne hr ⊢
      refine .inr ⟨hl, xmlAfter_eq_new.mpr (.inl ⟨?_, hr⟩)⟩
      rwa [ne_eq, hbegun]
    · exact .inl (.inr hx)

lemma Outdated.not_coincides (h : Outdated drive old) (opens : Bool) (k : ℕ) :
    ¬ Coincides drive old opens k := by
  cases opens with
  | true =>
    rintro (⟨hl, _⟩ | ⟨_, _, hx⟩)
    · exact h.files _ hl (flatten_take_begins _ _)
    · exact (h.xml _ hx).1 rfl
  | false =>
    rintro ⟨list, hl, hx⟩
    exact (h.xml _ hx).2 list hl (flatten_take_begins _ _)

/-- Where a run stops with the old pair or the new one: before its first write and after its last,
and between them only by coincidence. -/
theorem baseline_consistent_iff (opens : Bool) (drive : DriveScan) (old : BaselinePair) (k : ℕ) :
    ((pairLeft opens drive old k = old ∨ pairLeft opens drive old k = newPair drive) ↔
      NothingWritten drive old opens k ∨ AllWritten drive old opens k ∨
      Coincides drive old opens k) ∧
      (Outdated drive old → ¬ Coincides drive old opens k) := by
  refine ⟨?_, fun h => h.not_coincides opens k⟩
  cases k with
  | zero =>
    have hnothing : NothingWritten drive old opens 0 := by
      cases opens with
      | true => rfl
      | false => exact Or.inl rfl
    exact iff_of_true (Or.inl (pairLeft_zero opens)) (Or.inl hnothing)
  | succ k =>
    cases opens with
    | true =>
      rw [opened_iff, NothingWritten]
      simp
    | false =>
      cases hf : old.files with
      | none =>
        have hnothing : NothingWritten drive old false (k + 1) := .inr (by simp [hf])
        rw [pairLeft_unopened, hf]
        exact iff_of_true (Or.inl rfl) (Or.inl hnothing)
      | some list =>
        rw [unopened_iff hf, NothingWritten, hf]
        simp

lemma pairLeft_finished (hh : drive.hashed drive.listing.flatten ≠ []) {k : ℕ}
    (hk : drive.listing.length + (drive.hashed drive.listing.flatten).length ≤ k) :
    pairLeft true drive old (k + 1) = newPair drive := by
  rw [pairLeft_opened, List.take_of_length_le (by omega), List.take_of_length_le (by omega),
    xmlAfter, if_neg hh, newPair]

end Consistency

section Example

def oldBaseline : BaselinePair := ⟨some "E:\\a\n".toList, some "<dfxml>a</dfxml>".toList⟩

def changedDrive : DriveScan where
  listing := ["E:\\a\nE:\\b\n".toList]
  hashed _ := ["<dfxml>".toList, "a".toList, "b".toList, "</dfxml>".toList]

/-- The baseline of another file is outdated. -/
example : Outdated changedDrive ⟨some "E:\\0\n".toList, some "<dfxml>0</dfxml>".toList⟩ where
  files := by simp only [Option.mem_some_iff, forall_eq']; decide
  xml := by simp only [Option.mem_some_iff, forall_eq']; decide

/-- The hasher stops after the first file. -/
theorem baseline_torn :
    pairLeft true changedDrive oldBaseline 4 =
      ⟨some "E:\\a\nE:\\b\n".toList, some "<dfxml>a".toList⟩ ∧
      pairLeft true changedDrive oldBaseline 4 ≠ oldBaseline ∧
      pairLeft true changedDrive oldBaseline 4 ≠ newPair changedDrive := by
  decide

end Example

end DriveIntegrity.Integrity
