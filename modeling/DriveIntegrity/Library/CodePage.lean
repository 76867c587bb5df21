import DriveIntegrity.Library.Chars
import Mathlib.Tactic

/-! UTF-8 text read with the decoder of another encoding. -/

namespace DriveIntegrity

/-- A single-byte code page agrees with ASCII on the low bytes and maps high bytes to other
characters. -/
structure CodePage where
  char : UInt8 → Char
  ascii : ∀ b, b.toNat < 128 → (char b).toNat = b.toNat
  high : ∀ b, 128 ≤ b.toNat → 128 ≤ (char b).toNat

def utf8 (t : List Char) : List UInt8 := t.flatMap String.utf8EncodeChar

def CodePage.decode (P : CodePage) (bytes : List UInt8) : List Char := bytes.map P.char

def Ascii (t : List Char) : Prop := ∀ c ∈ t, c.toNat < 128

instance (t : List Char) : Decidable (Ascii t) := inferInstanceAs (Decidable (∀ c ∈ t, _))

lemma utf8EncodeChar_low {c : Char} (h : c.toNat < 128) :
    String.utf8EncodeChar c = [UInt8.ofNat c.toNat] := by
  have hs : c.utf8Size = 1 := by
    rw [Char.utf8Size_eq_one_iff, UInt32.le_iff_toNat_le]
    exact Nat.lt_succ_iff.mp h
  rw [String.utf8EncodeChar_eq_singleton hs]
  rfl

lemma or_high (b m : UInt8) (h : 128 ≤ m.toNat) : 128 ≤ (b ||| m).toNat := by
  rw [UInt8.toNat_or]
  exact h.trans Nat.right_le_or

lemma utf8EncodeChar_high {c : Char} (h : 128 ≤ c.toNat) :
    2 ≤ (String.utf8EncodeChar c).length ∧ ∀ b ∈ String.utf8EncodeChar c, 128 ≤ b.toNat := by
  have hs : c.utf8Size ≠ 1 := by
    rw [ne_eq, Char.utf8Size_eq_one_iff, UInt32.le_iff_toNat_le]
    exact not_le.mpr h
  have hp := c.utf8Size_pos
  refine ⟨by rw [String.length_utf8EncodeChar]; omega, ?_⟩
  rcases c.utf8Size_eq with h1 | h2 | h3 | h4
  · exact (hs h1).elim
  · rw [String.utf8EncodeChar_eq_cons_cons h2]
    simp only [List.forall_mem_cons, List.not_mem_nil, false_imp_iff, implies_true, and_true]
    exact ⟨or_high _ _ (by decide), or_high _ _ (by decide)⟩
  · rw [String.utf8EncodeChar_eq_cons_cons_cons h3]
    simp only [List.forall_mem_cons, List.not_mem_nil, false_imp_iff, implies_true, and_true]
    exact ⟨or_high _ _ (by decide), or_high _ _ (by decide), or_high _ _ (by decide)⟩
  · rw [String.utf8EncodeChar_eq_cons_cons_cons_cons h4]
    simp only [List.forall_mem_cons, List.not_mem_nil, false_imp_iff, implies_true, and_true]
    exact ⟨or_high _ _ (by decide), or_high _ _ (by decide), or_high _ _ (by decide),
      or_high _ _ (by decide)⟩

lemma utf8_cons (c : Char) (t : List Char) :
    utf8 (c :: t) = String.utf8EncodeChar c ++ utf8 t := rfl

lemma utf8_append (s t : List Char) : utf8 (s ++ t) = utf8 s ++ utf8 t := List.flatMap_append

section Decode

variable (P : CodePage)

lemma decode_append (s t : List UInt8) : P.decode (s ++ t) = P.decode s ++ P.decode t :=
  List.map_append

lemma decode_low {c : Char} (h : c.toNat < 128) : P.decode (String.utf8EncodeChar c) = [c] := by
  have hb : (UInt8.ofNat c.toNat).toNat = c.toNat := by
    rw [UInt8.toNat_ofNat']
    exact Nat.mod_eq_of_lt (by omega)
  rw [utf8EncodeChar_low h, CodePage.decode, List.map_cons, List.map_nil, List.cons.injEq]
  refine ⟨Char.toNat_inj.mp ?_, rfl⟩
  rw [P.ascii _ (by omega), hb]

lemma decode_ascii {t : List Char} (h : Ascii t) : P.decode (utf8 t) = t := by
  induction t with
  | nil => rfl
  | cons c t ih =>
    rw [utf8_cons, decode_append, decode_low P (h c List.mem_cons_self),
      ih (fun d hd => h d (List.mem_cons_of_mem c hd))]
    rfl

lemma length_decode (t : List Char) :
    t.length ≤ (P.decode (utf8 t)).length ∧ ((P.decode (utf8 t)).length = t.length → Ascii t) := by
  induction t with
  | nil => exact ⟨le_refl _, fun _ _ h => absurd h List.not_mem_nil⟩
  | cons c t ih =>
    rw [utf8_cons, decode_append, List.length_append, List.length_cons]
    by_cases hc : c.toNat < 128
    · rw [decode_low P hc, List.length_singleton]
      refine ⟨by omega, fun h => ?_⟩
      have ha := ih.2 (by omega)
      intro d hd
      rcases List.mem_cons.mp hd with rfl | hd
      · exact hc
      · exact ha d hd
    · have hl := (utf8EncodeChar_high (not_lt.mp hc)).1
      rw [CodePage.decode, List.length_map]
      refine ⟨by omega, fun h => ?_⟩
      omega

lemma mem_of_mem_decode {t : List Char} {d : Char} (hd : d ∈ P.decode (utf8 t))
    (ha : d.toNat < 128) :
    d ∈ t := by
  obtain ⟨b, hb, rfl⟩ := List.mem_map.mp hd
  obtain ⟨c, hc, hbc⟩ := List.mem_flatMap.mp hb
  by_cases hl : c.toNat < 128
  · have hm : P.char b ∈ P.decode (String.utf8EncodeChar c) := List.mem_map_of_mem hbc
    rw [decode_low P hl, List.mem_singleton] at hm
    exact hm ▸ hc
  · have := P.high b ((utf8EncodeChar_high (not_lt.mp hl)).2 b hbc)
    omega

lemma ascii_of_decode {t : List Char} (h : Ascii (P.decode (utf8 t))) : Ascii t := by
  intro c hc
  by_contra hl
  have hh := utf8EncodeChar_high (not_lt.mp hl)
  obtain ⟨b, hb⟩ := List.exists_mem_of_ne_nil _
    (List.ne_nil_of_length_pos (by omega : 0 < (String.utf8EncodeChar c).length))
  have h1 := P.high b (hh.2 b hb)
  have h2 := h (P.char b) (List.mem_map_of_mem (List.mem_flatMap.mpr ⟨c, hc, hb⟩))
  omega

lemma decode_eq_ascii_iff {s t : List Char} (h : Ascii t) : P.decode (utf8 s) = t ↔ s = t := by
  constructor
  · rintro rfl
    exact (decode_ascii P (ascii_of_decode P h)).symm
  · rintro rfl
    exact decode_ascii P h

end Decode

/-- Any decoder that keeps plain ASCII: single-byte pages, double-byte pages and 65001 among
them. -/
structure Decoder where
  decode : List UInt8 → List Char
  ascii : ∀ t, Ascii t → decode (utf8 t) = t

def CodePage.decoder (P : CodePage) : Decoder where
  decode := P.decode
  ascii _ h := decode_ascii P h

section Utf8

/-- Code page 65001: a byte that begins no character becomes a replacement character. -/
def utf8Decode : List UInt8 → List Char
  | [] => []
  | b :: rest =>
    match ByteArray.utf8DecodeChar? (b :: rest).toByteArray 0 with
    | some c => c :: utf8Decode (rest.drop (c.utf8Size - 1))
    | none => '\uFFFD' :: utf8Decode rest
termination_by bytes => bytes.length
decreasing_by
  all_goals simp only [List.length_cons, List.length_drop]
  all_goals omega

lemma utf8Decode_encodeChar (c : Char) (bytes : List UInt8) :
    utf8Decode (String.utf8EncodeChar c ++ bytes) = c :: utf8Decode bytes := by
  have hl := String.length_utf8EncodeChar c
  have hd :
      ByteArray.utf8DecodeChar? (String.utf8EncodeChar c ++ bytes).toByteArray 0 = some c := by
    rw [List.toByteArray_append]
    exact ByteArray.utf8DecodeChar?_utf8EncodeChar_append
  cases he : String.utf8EncodeChar c with
  | nil =>
    rw [he, List.length_nil] at hl
    exact absurd hl c.utf8Size_pos.ne
  | cons b front =>
    rw [he] at hd hl
    rw [List.cons_append] at hd ⊢
    rw [utf8Decode, hd]
    have hfront : c.utf8Size - 1 = front.length := by
      rw [List.length_cons] at hl
      omega
    simp only [hfront, List.drop_left]

lemma utf8Decode_utf8 (t : List Char) : utf8Decode (utf8 t) = t := by
  induction t with
  | nil => rw [utf8, List.flatMap_nil, utf8Decode]
  | cons c t ih => rw [utf8_cons, utf8Decode_encodeChar, ih]

def utf8Decoder : Decoder where
  decode := utf8Decode
  ascii t _ := utf8Decode_utf8 t

end Utf8

def windows1252High : List ℕ :=
  [0x20ac, 0x81, 0x201a, 0x192, 0x201e, 0x2026, 0x2020, 0x2021, 0x2c6, 0x2030, 0x160,
    0x2039, 0x152, 0x8d,
    0x17d, 0x8f, 0x90, 0x2018, 0x2019, 0x201c, 0x201d, 0x2022, 0x2013, 0x2014, 0x2dc, 0x2122,
    0x161, 0x203a,
    0x153, 0x9d, 0x17e, 0x178]

def windows1252Char (n : ℕ) : Char :=
  Char.ofNat (if 0x80 ≤ n ∧ n < 0xa0 then windows1252High.getD (n - 0x80) 0 else n)

lemma windows1252_ranges : ∀ n : Fin 256, (n.val < 128 → (windows1252Char n).toNat = n.val) ∧
    (128 ≤ n.val → 128 ≤ (windows1252Char n).toNat) := by decide +kernel

def windows1252 : CodePage where
  char b := windows1252Char b.toNat
  ascii b h := (windows1252_ranges ⟨b.toNat, b.toNat_lt⟩).1 h
  high b h := (windows1252_ranges ⟨b.toNat, b.toNat_lt⟩).2 h

example : windows1252.decode (utf8 "é".toList) = "Ã©".toList := by decide +kernel

end DriveIntegrity
