import DriveIntegrity.Library.Xml
import DriveIntegrity.Integrity.Culture

/-! The texts the tools write into the status file: time stamps and numerals. -/

namespace DriveIntegrity.Status

open Integrity (Text)

section Numerals

/-- `setw(width)` with `setfill('0')`. -/
def padded (width n : ℕ) : Text := List.replicate (width - (decimal n).length) '0' ++ decimal n

/-- The text of a C++ `int`. -/
def intText (z : ℤ) : Text := if z < 0 then '-' :: decimal z.natAbs else decimal z.natAbs

def roundHalfEven (q : ℚ) : ℤ :=
  let r := q - ⌊q⌋
  if r < 1 / 2 ∨ r = 1 / 2 ∧ ⌊q⌋ % 2 = 0 then ⌊q⌋ else ⌊q⌋ + 1

def fixedText (digits : ℕ) (q : ℚ) : Text :=
  let n := (roundHalfEven (|q| * 10 ^ digits)).natAbs
  (if q < 0 then ['-'] else []) ++ decimal (n / 10 ^ digits) ++ '.' :: padded digits
    (n % 10 ^ digits)

structure LocalTime where
  year : ℕ
  month : ℕ
  day : ℕ
  hour : ℕ
  minute : ℕ
  second : ℕ

/-- The formats `%Y-%m-%d %H:%M:%S` and `yyyy-MM-dd HH:mm:ss`. -/
def LocalTime.text (t : LocalTime) : Text :=
  padded 4 t.year ++ '-' :: padded 2 t.month ++ '-' :: padded 2 t.day ++ ' ' :: padded 2 t.hour ++
    ':' :: padded 2 t.minute ++ ':' :: padded 2 t.second

def formatSeconds (seconds : ℕ) : Text :=
  padded 2 (seconds / 3600) ++ ':' :: padded 2 (seconds % 3600 / 60) ++ ':' :: padded 2
    (seconds % 60)

end Numerals

section Values

/-- A value that reads back unchanged: visible, on one line, without markup. -/
def isValueChar (c : Char) : Bool :=
  decide (32 ≤ c.toNat ∧ c.toNat ≤ 126 ∧ c ≠ '&' ∧ c ≠ '<' ∧ c ≠ '>')

def IsValue (t : Text) : Prop := t.all isValueChar = true ∧ t.any (fun c => decide (c ≠ ' ')) = true

instance (t : Text) : Decidable (IsValue t) := inferInstanceAs (Decidable (_ ∧ _))

abbrev Value := { t : Text // IsValue t }

lemma isValueChar_iff {c : Char} :
    isValueChar c = true ↔ 32 ≤ c.toNat ∧ c.toNat ≤ 126 ∧ c ≠ '&' ∧ c ≠ '<' ∧ c ≠ '>' :=
  decide_eq_true_iff

lemma IsValue.plain {t : Text} (h : IsValue t) : PlainText t := by
  intro c hc
  obtain ⟨h32, h126, hamp, hlt, hgt⟩ := isValueChar_iff.mp (List.all_eq_true.mp h.1 c hc)
  refine ⟨?_, hamp, hlt, hgt, ?_⟩
  · simp only [isXmlChar, decide_eq_true_eq]
    omega
  · rintro rfl
    exact absurd h32 (by decide)

lemma IsValue.newline_notMem {t : Text} (h : IsValue t) : '\n' ∉ t := by
  intro hc
  exact absurd (isValueChar_iff.mp (List.all_eq_true.mp h.1 _ hc)).1 (by decide)

lemma IsValue.ne_nil {t : Text} (h : IsValue t) : t ≠ [] := by
  rintro rfl
  exact absurd h.2 (by decide)

lemma IsValue.not_blank {t : Text} (h : IsValue t) : t.all isXmlSpace = false := by
  obtain ⟨c, hc, hv⟩ := List.any_eq_true.mp h.2
  rw [List.all_eq_false]
  refine ⟨c, hc, ?_⟩
  have h32 := (isValueChar_iff.mp (List.all_eq_true.mp h.1 c hc)).1
  simp only [isXmlSpace, decide_eq_true_eq, not_or]
  refine ⟨of_decide_eq_true hv, ?_, ?_, ?_⟩ <;>
  · rintro rfl
    exact absurd h32 (by decide)

lemma isValueChar_of_isDigit {c : Char} (h : c.isDigit = true) : isValueChar c = true := by
  have hc : 48 ≤ c.toNat ∧ c.toNat ≤ 57 := by
    simpa [Char.isDigit, UInt32.le_iff_toNat_le] using h
  refine isValueChar_iff.mpr ⟨by omega, by omega, ?_, ?_, ?_⟩ <;>
  · rintro rfl
    exact absurd h (by decide)

lemma isValue_digits {t : Text} (h : t.all Char.isDigit = true) (hne : t ≠ []) : IsValue t := by
  rw [List.all_eq_true] at h
  refine ⟨List.all_eq_true.mpr (fun c hc => isValueChar_of_isDigit (h c hc)), ?_⟩
  obtain ⟨c, hc⟩ := List.exists_mem_of_ne_nil t hne
  refine List.any_eq_true.mpr ⟨c, hc, decide_eq_true ?_⟩
  rintro rfl
  exact absurd (h _ hc) (by decide)

lemma isValue_decimal (n : ℕ) : IsValue (decimal n) :=
  isValue_digits (List.all_eq_true.mpr (fun _ => isDigit_of_mem_decimal)) (decimal_ne_nil n)

lemma isDigit_of_mem_padded {width n : ℕ} {c : Char} (h : c ∈ padded width n) :
    c.isDigit = true := by
  rcases List.mem_append.mp h with h | h
  · rw [List.eq_of_mem_replicate h]
    decide
  · exact isDigit_of_mem_decimal h

lemma padded_ne_nil (width n : ℕ) : padded width n ≠ [] :=
  List.append_ne_nil_of_right_ne_nil _ (decimal_ne_nil n)

lemma isValue_padded (width n : ℕ) : IsValue (padded width n) :=
  isValue_digits (List.all_eq_true.mpr (fun _ => isDigit_of_mem_padded)) (padded_ne_nil width n)

lemma IsValue.cons {t : Text} (ht : IsValue t) {c : Char} (hc : isValueChar c = true) :
    IsValue (c :: t) :=
  ⟨by rw [List.all_cons, hc, ht.1, Bool.and_self], by rw [List.any_cons, ht.2, Bool.or_true]⟩

lemma isValue_intText (z : ℤ) : IsValue (intText z) := by
  unfold intText
  split_ifs
  · exact (isValue_decimal _).cons (by decide)
  · exact isValue_decimal _

lemma isValue_fixedText (digits : ℕ) (q : ℚ) : IsValue (fixedText digits q) := by
  have hs : ((if q < 0 then ['-'] else []) : Text).all isValueChar = true := by split_ifs <;> decide
  refine ⟨?_, ?_⟩
  · simp only [fixedText, List.all_append, List.all_cons, hs, (isValue_decimal _).1,
      (isValue_padded _ _).1, Bool.and_true]
    decide
  · simp only [fixedText, List.any_append, (isValue_decimal _).2, Bool.or_true, Bool.true_or]

lemma isValue_time (t : LocalTime) : IsValue t.text := by
  refine ⟨?_, ?_⟩
  · simp only [LocalTime.text, List.all_append, List.all_cons, (isValue_padded _ _).1,
      Bool.and_true]
    decide
  · simp only [LocalTime.text, List.any_append, (isValue_padded _ _).2, Bool.true_or]

lemma isValue_formatSeconds (seconds : ℕ) : IsValue (formatSeconds seconds) := by
  refine ⟨?_, ?_⟩
  · simp only [formatSeconds, List.all_append, List.all_cons, (isValue_padded _ _).1, Bool.and_true]
    decide
  · simp only [formatSeconds, List.any_append, (isValue_padded _ _).2, Bool.true_or]

end Values

end DriveIntegrity.Status
