import DriveIntegrity.Library.CodePage
import DriveIntegrity.Integrity.Par2Create

/-! List files as the bytes that `WriteAllLines` writes and `std::getline` reads. -/

namespace DriveIntegrity.Integrity

section Program

abbrev Bytes := List UInt8

/-- How the stream of the list file is opened. -/
inductive StreamMode
  | text
  | binary

/-- A text stream delivers a CRLF as a LF. -/
def translate : Bytes → Bytes
  | [] => []
  | b :: rest => if b = 13 ∧ rest.head? = some 10 then translate rest else b :: translate rest

def StreamMode.deliver : StreamMode → Bytes → Bytes
  | text, bytes => translate bytes
  | binary, bytes => bytes

/-- `std::getline` until the end of the stream. -/
def getByteLines (current : Bytes) : Bytes → List Bytes
  | [] => if current = [] then [] else [current]
  | b :: rest =>
      if b = 10 then current :: getByteLines [] rest else getByteLines (current ++ [b]) rest

def eraseReturn (line : Bytes) : Bytes := if line.getLast? = some 13 then line.dropLast else line

def readListStream (rawfilenames : List Bytes) (stream : Bytes) : List Bytes :=
  rawfilenames ++ ((getByteLines [] stream).map eraseReturn).filter (fun line => decide (line ≠ []))

end Program

section Encoding

lemma utf8_eq_nil {t : Text} : utf8 t = [] ↔ t = [] := by
  cases t with
  | nil => simp [utf8]
  | cons c t =>
    have hpos : 0 < (String.utf8EncodeChar c).length := by
      rw [String.length_utf8EncodeChar]
      exact c.utf8Size_pos
    rw [utf8_cons, List.append_eq_nil_iff]
    simp [List.length_pos_iff.mp hpos]

lemma low_byte_mem {c d : Char} (hd : d.toNat < 128)
    (h : UInt8.ofNat d.toNat ∈ String.utf8EncodeChar c) : c = d := by
  have hb : (UInt8.ofNat d.toNat).toNat = d.toNat := by
    rw [UInt8.toNat_ofNat']
    exact Nat.mod_eq_of_lt (by omega)
  by_cases hc : c.toNat < 128
  · rw [utf8EncodeChar_low hc, List.mem_singleton] at h
    have hcn : (UInt8.ofNat c.toNat).toNat = c.toNat := by
      rw [UInt8.toNat_ofNat']
      exact Nat.mod_eq_of_lt (by omega)
    apply Char.toNat_inj.mp
    rw [← hcn, ← h, hb]
  · have hhigh := (utf8EncodeChar_high (not_lt.mp hc)).2 _ h
    omega

lemma newline_byte {c : Char} (h : (10 : UInt8) ∈ String.utf8EncodeChar c) : c = '\n' :=
  low_byte_mem (by decide) h

lemma return_byte {c : Char} (h : (13 : UInt8) ∈ String.utf8EncodeChar c) : c = '\r' :=
  low_byte_mem (by decide) h

lemma getByteLines_append {bytes : Bytes} (h : (10 : UInt8) ∉ bytes) (current rest : Bytes) :
    getByteLines current (bytes ++ rest) = getByteLines (current ++ bytes) rest := by
  induction bytes generalizing current with
  | nil => rw [List.nil_append, List.append_nil]
  | cons b bytes ih =>
    rw [List.mem_cons, not_or] at h
    rw [List.cons_append, getByteLines, if_neg (Ne.symm h.1), ih h.2, List.append_assoc,
      List.singleton_append]

lemma getByteLines_utf8 (current t : Text) :
    getByteLines (utf8 current) (utf8 t) = (getLines current t).map utf8 := by
  induction t generalizing current with
  | nil =>
    have hnil : utf8 [] = [] := rfl
    rw [hnil, getByteLines, getLines]
    by_cases h : current = []
    · rw [if_pos h, if_pos (utf8_eq_nil.mpr h), List.map_nil]
    · rw [if_neg h, if_neg (fun he => h (utf8_eq_nil.mp he)), List.map_singleton]
  | cons c t ih =>
    rw [utf8_cons, getLines]
    by_cases h : c = '\n'
    · have hbyte : String.utf8EncodeChar c ++ utf8 t = 10 :: utf8 t := by
        rw [h]
        rfl
      rw [if_pos h, hbyte, getByteLines, if_pos rfl, List.map_cons]
      exact congrArg _ (ih [])
    · have hcurrent : utf8 (current ++ [c]) = utf8 current ++ String.utf8EncodeChar c := by
        rw [utf8_append, utf8_cons]
        exact congrArg _ (List.append_nil _)
      rw [if_neg h, getByteLines_append (fun hb => h (newline_byte hb)), ← hcurrent]
      exact ih (current ++ [c])

lemma eraseReturn_utf8 (line : Text) : eraseReturn (utf8 line) = utf8 (stripReturn line) := by
  rcases List.eq_nil_or_concat' line with rfl | ⟨front, c, rfl⟩
  · rfl
  · have hutf8 : utf8 (front ++ [c]) = utf8 front ++ String.utf8EncodeChar c := by
      rw [utf8_append, utf8_cons]
      exact congrArg _ (List.append_nil _)
    by_cases h : c = '\r'
    · have hbyte : String.utf8EncodeChar c = [13] := by
        rw [h]
        rfl
      rw [eraseReturn, stripReturn, hutf8, hbyte, if_pos (by simp), if_pos (by simp [h]),
        List.dropLast_concat, List.dropLast_concat]
    · have hlast : (utf8 (front ++ [c])).getLast? ≠ some 13 := by
        intro hl
        have hne : String.utf8EncodeChar c ≠ [] := fun he => by
          have hlength := congrArg List.length he
          rw [String.length_utf8EncodeChar] at hlength
          exact absurd hlength c.utf8Size_pos.ne'
        rw [hutf8, List.getLast?_append_of_ne_nil _ hne] at hl
        exact h (return_byte (List.mem_of_getLast? hl))
      rw [eraseReturn, stripReturn, if_neg hlast, if_neg (by simpa using h)]

lemma readListStream_utf8 (rawfilenames : List Bytes) (content : Text) :
    readListStream rawfilenames (utf8 content) =
      rawfilenames ++ (readFileList content).map utf8 := by
  have hlines : getByteLines [] (utf8 content) = (getLines [] content).map utf8 :=
    getByteLines_utf8 [] content
  have herase : eraseReturn ∘ utf8 = utf8 ∘ stripReturn := funext eraseReturn_utf8
  have hne : (fun line : Bytes => decide (line ≠ [])) ∘ utf8 = fun line => decide (line ≠ []) := by
    funext line
    simp only [Function.comp_apply, ne_eq, utf8_eq_nil]
  rw [readListStream, readFileList, hlines, List.map_map, herase, ← List.map_map,
    List.filter_map, hne]

end Encoding

section RoundTrip

lemma translate_line {bytes : Bytes} (h : (13 : UInt8) ∉ bytes) (rest : Bytes) :
    translate (bytes ++ 13 :: 10 :: rest) = bytes ++ 10 :: translate rest := by
  induction bytes with
  | nil => simp [translate]
  | cons b bytes ih =>
    rw [List.mem_cons, not_or] at h
    rw [List.cons_append, translate, if_neg (fun hb => h.1 hb.1.symm), ih h.2, List.cons_append]

lemma return_notMem {name : Text} (h : '\r' ∉ name) : (13 : UInt8) ∉ utf8 name := by
  intro hb
  obtain ⟨c, hc, hcb⟩ := List.mem_flatMap.mp hb
  exact h (return_byte hcb ▸ hc)

lemma translate_writeAllLines {names : List Text} (h : ∀ name ∈ names, '\r' ∉ name) :
    translate (utf8 (writeAllLines names)) = utf8 (names.flatMap (fun name => name ++ ['\n'])) := by
  induction names with
  | nil => rfl
  | cons name names ih =>
    rw [List.forall_mem_cons] at h
    have hreturn : utf8 ['\r', '\n'] = [13, 10] := rfl
    have hnewline : utf8 ['\n'] = [10] := rfl
    have hwrite :
        writeAllLines (name :: names) = name ++ (['\r', '\n'] ++ writeAllLines names) := by
      rw [writeAllLines, List.flatMap_cons, List.append_assoc, ← writeAllLines]
    rw [hwrite, utf8_append, utf8_append, hreturn, List.flatMap_cons, utf8_append, utf8_append,
      hnewline, ← ih h.2]
    simpa only [List.cons_append, List.nil_append, List.append_assoc] using
      translate_line (return_notMem h.1) (utf8 (writeAllLines names))

lemma readFileList_lines {names : List Text}
    (h : ∀ name ∈ names, name ≠ [] ∧ '\r' ∉ name ∧ '\n' ∉ name) :
    readFileList (names.flatMap (fun name => name ++ ['\n'])) = names := by
  have hlines : getLines [] (names.flatMap (fun name => name ++ ['\n'])) = names := by
    induction names with
    | nil => rfl
    | cons name names ih =>
      rw [List.forall_mem_cons] at h
      rw [List.flatMap_cons, List.append_assoc, List.singleton_append, getLines_line h.1.2.2,
        List.nil_append, ih h.2]
  have hstrip : names.map stripReturn = names := by
    conv_rhs => rw [← List.map_id names]
    apply List.map_congr_left
    intro name hname
    exact if_neg (fun hl => (h name hname).2.1 (List.mem_of_getLast? hl))
  rw [readFileList, hlines, hstrip, List.filter_eq_self]
  exact fun name hname => decide_eq_true (h name hname).1

/-- The names come back as they were written, from a binary stream as from a text stream. -/
theorem list_file_round_trip {names : List Text}
    (h : ∀ name ∈ names, name ≠ [] ∧ '\r' ∉ name ∧ '\n' ∉ name)
    (mode : StreamMode) (rawfilenames : List Bytes) :
    readListStream rawfilenames (mode.deliver (utf8 (writeAllLines names))) =
      rawfilenames ++ names.map utf8 := by
  cases mode with
  | text =>
    rw [StreamMode.deliver, translate_writeAllLines (fun name hname => (h name hname).2.1),
      readListStream_utf8, readFileList_lines h]
  | binary =>
    rw [StreamMode.deliver, readListStream_utf8, readFileList_writeAllLines]
    exact fun name hname => ⟨(h name hname).1, (h name hname).2.2⟩

theorem list_file_round_trip_accent :
    readListStream []
      (StreamMode.text.deliver (utf8 (writeAllLines ["E:\\é".toList, "E:\\b".toList]))) =
      [utf8 "E:\\é".toList, utf8 "E:\\b".toList] :=
  list_file_round_trip (by decide) .text []

end RoundTrip

end DriveIntegrity.Integrity
