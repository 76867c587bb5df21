import DriveIntegrity.Library.Search
import DriveIntegrity.Library.Decimal
import DriveIntegrity.Integrity.Culture

/-! The lines of a SMART report as `smartctl --json` prints it, one member to a line. -/

namespace DriveIntegrity.Probe

open Integrity (Text)

section Model

/-- What stands on a line besides a key: a string, or a number, a literal or a bracket. -/
inductive Item
  | str (t : Text)
  | bare (t : Text)

def Item.text : Item → Text
  | str t => quoted t
  | bare t => t

structure Line where
  indent : ℕ
  key : Option Text
  item : Item
  comma : Bool

def Line.stop (l : Line) : Text := if l.comma then ",\n".toList else ['\n']

def Line.label (l : Line) : Text :=
  match l.key with
  | none => []
  | some key => quoted key ++ ": ".toList

def Line.body (l : Line) : Text := l.label ++ (l.item.text ++ l.stop)

def Line.text (l : Line) : Text := List.replicate l.indent ' ' ++ l.body

/-- Keys are words, strings are escaped, and nothing else has a quote. -/
def Line.Valid (l : Line) : Prop :=
  (∀ key ∈ l.key, isWord key = true) ∧
    match l.item with
    | .str t => escaped t = true
    | .bare t => '"' ∉ t

/-- The word is neither the key nor the end of the string. -/
def Line.Silent (word : Text) (l : Line) : Prop :=
  l.key ≠ some word ∧ ∀ t, l.item = .str t → ¬ '"' :: word <:+ '"' :: t

def nvmeLog : Text := "nvme_smart_health_information_log".toList

/-- A line that neither opens a raw value nor belongs to an NVMe report. -/
def Line.Other (l : Line) : Prop := l.Valid ∧ l.Silent "raw".toList ∧ l.Silent nvmeLog

/-- A line of the sections around the attribute table. -/
abbrev OtherLine := { l : Line // l.Other }

/-- A line of an attribute besides its number and its raw value. -/
abbrev DetailLine := { l : Line // l.Other ∧ l.key ≠ some "id".toList }

structure Attribute where
  id : ℕ
  /-- Name, thresholds and flags. -/
  details : List DetailLine
  raw : ℕ
  /-- The raw value as a string. -/
  shown : DetailLine
  id_range : 1 ≤ id ∧ id ≤ 255
  raw_lt : raw < 2 ^ 48

def bracket (indent : ℕ) (key : Option String) (t : String) (comma : Bool) : Line :=
  ⟨indent, key.map String.toList, .bare t.toList, comma⟩

def Attribute.lines (last : Bool) (a : Attribute) : List Line :=
  bracket 6 none "\x7b" false ::
    ⟨8, some "id".toList, .bare (decimal a.id), true⟩ ::
      (a.details.map Subtype.val ++
        [bracket 8 (some "raw") "\x7b" false,
          ⟨10, some "value".toList, .bare (decimal a.raw), true⟩, a.shown.1,
          bracket 8 none "\x7d" false, bracket 6 none "\x7d" (!last)])

def tableLines : List Attribute → List Line
  | [] => []
  | [a] => a.lines true
  | a :: b :: rest => a.lines false ++ tableLines (b :: rest)

structure Report where
  before : List OtherLine
  revision : ℕ
  table : List Attribute
  after : List OtherLine
  distinct : (table.map Attribute.id).Nodup

def Report.lines (r : Report) : List Line :=
  r.before.map Subtype.val ++
    (bracket 2 (some "ata_smart_attributes") "\x7b"
      false :: ⟨4, some "revision".toList, .bare (decimal r.revision), true⟩ ::
      bracket 4 (some "table") "[" false :: (tableLines r.table ++
        (bracket 4 none "]" false :: bracket 2 none "\x7d" (!r.after.isEmpty) :: r.after.map
          Subtype.val)))

def Report.text (r : Report) : Text :=
  "\x7b\n".toList ++ r.lines.flatMap Line.text ++ "\x7d\n".toList

end Model

section Search

variable {l : Line} {word suffix digits t : Text}

/-- The search for a number behind the key `id` stops at this line. -/
def Line.Hit (digits : Text) (l : Line) : Prop :=
  l.key = some "id".toList ∧ ∃ t, l.item = .bare t ∧ digits <+: t

def idNeedle (digits : Text) : Text := quoted "id".toList ++ (": ".toList ++ digits)

def Digits (t : Text) : Prop := t ≠ [] ∧ ∀ c ∈ t, c.isDigit = true

lemma digits_decimal (n : ℕ) : Digits (decimal n) :=
  ⟨decimal_ne_nil n, fun _ => isDigit_of_mem_decimal⟩

lemma Line.stop_eq (l : Line) :
    ∃ c rest, l.stop = c :: rest ∧ '"' ∉ rest ∧ (c = ',' ∨ c = '\n') := by
  obtain ⟨indent, key, item, comma⟩ := l
  cases comma with
  | false => exact ⟨'\n', [], rfl, List.not_mem_nil, Or.inr rfl⟩
  | true => exact ⟨',', ['\n'], rfl, by decide, Or.inl rfl⟩

lemma stop_cases {P : Char → Prop} {c : Char} (hc : c = ',' ∨ c = '\n') (hcomma : P ',')
    (hbreak : P '\n') : P c := by
  rcases hc with rfl | rfl
  · exact hcomma
  · exact hbreak

lemma skips_item (hitem : ∀ t, l.item = .str t → ∀ c, c = ',' ∨ c = '\n' →
    Skips (quoted word ++ suffix) (quoted t ++ [c])) (hv : l.Valid) :
    Skips (quoted word ++ suffix) (l.item.text ++ l.stop) := by
  obtain ⟨c, rest, hstop, hrest, hc⟩ := l.stop_eq
  have hsplit : l.item.text ++ l.stop = (l.item.text ++ [c]) ++ rest := by
    rw [hstop, List.append_assoc]
    rfl
  rw [hsplit]
  apply Skips.append _ (skips_unquoted hrest)
  obtain ⟨_, hvalid⟩ := hv
  cases hi : l.item with
  | str t => exact hitem t hi c hc
  | bare t =>
    rw [hi] at hvalid
    apply skips_unquoted
    rw [Item.text, List.mem_append, not_or]
    exact ⟨hvalid, stop_cases (P := fun c => '"' ∉ [c]) hc (by decide) (by decide)⟩

lemma Line.Valid.escaped (hv : l.Valid) (hi : l.item = .str t) : escaped t = true := by
  have h := hv.2
  rw [hi] at h
  exact h

lemma skips_body_word (hk : isWord word = true) (hv : l.Valid) (hs : l.Silent word) :
    Skips (quoted word) l.body := by
  have hitem : Skips (quoted word ++ []) (l.item.text ++ l.stop) := by
    apply skips_item _ hv
    intro t hi c hc
    rw [List.append_nil]
    exact stop_cases (P := fun c => Skips (quoted word) (quoted t ++ [c])) hc
      (skips_escaped_word hk (by decide) (hv.escaped hi) (hs.2 t hi))
      (skips_escaped_word hk (by decide) (hv.escaped hi) (hs.2 t hi))
  rw [List.append_nil] at hitem
  apply Skips.append _ hitem
  unfold Line.label
  cases hkey : l.key with
  | none => exact skips_nil
  | some key =>
    have hne : key ≠ word := fun he => hs.1 (hkey.trans (congrArg some he))
    have hlabel : quoted key ++ ": ".toList = (quoted key ++ [':']) ++ [' '] := by
      rw [List.append_assoc]
      rfl
    have hplain : Skips (quoted word) (quoted key ++ [':']) := by
      rw [← List.append_nil (quoted word)]
      exact skips_plain hk (by decide)
        (quote_notMem (hv.1 key (Option.mem_def.mpr hkey))) (Or.inl hne)
    show Skips (quoted word) (quoted key ++ ": ".toList)
    rw [hlabel]
    apply hplain.append
    rw [← List.append_nil (quoted word)]
    exact skips_unquoted (by decide)

lemma digits_prefix {rest : Text} {c : Char} (hd : Digits digits) (hc : c.isDigit = false)
    (h : digits <+: t ++ c :: rest) : digits <+: t := by
  rcases List.prefix_or_prefix_of_prefix h (List.prefix_append t _) with ht | ⟨u, hu⟩
  · exact ht
  · cases u with
    | nil => exact ⟨[], by rw [← hu]; simp⟩
    | cons d u =>
      rw [← hu, List.prefix_append_right_inj] at h
      have hdigit : d.isDigit = true := hd.2 d (hu ▸ List.mem_append_right t List.mem_cons_self)
      rw [(List.cons_prefix_cons.mp h).1, hc] at hdigit
      cases hdigit

lemma skips_body_id (hd : Digits digits) (hv : l.Valid) (h : ¬l.Hit digits) :
    Skips (idNeedle digits) l.body := by
  have hid : isWord "id".toList = true := by decide
  have hcolon : ": ".toList = ':' :: [' '] := rfl
  have hneedle : idNeedle digits = quoted "id".toList ++ (':' :: [' '] ++ digits) := by
    unfold idNeedle
    rw [hcolon]
  have hitem : Skips (quoted "id".toList ++ (':' :: [' '] ++ digits)) (l.item.text ++ l.stop) := by
    apply skips_item _ hv
    intro t hi c hc
    exact stop_cases
      (P := fun c => Skips (quoted "id".toList ++ (':' :: ([' '] ++ digits))) (quoted t ++ [c])) hc
      (skips_escaped_key hid (by decide) (by decide) (hv.escaped hi))
      (skips_escaped_key hid (by decide) (by decide) (hv.escaped hi))
  rw [hneedle]
  unfold Line.body Line.label
  cases hkey : l.key with
  | none => exact skips_nil.append hitem
  | some key =>
    by_cases he : key = "id".toList
    · subst he
      show Skips _ (quoted "id".toList ++ ": ".toList ++ (l.item.text ++ l.stop))
      rw [hcolon, List.append_assoc]
      apply skips_key hid (by decide) hitem
      intro rest hp
      obtain ⟨c, rest', hstop, _, hc⟩ := l.stop_eq
      cases hi : l.item with
      | str t =>
        obtain ⟨d, ds, rfl⟩ := List.exists_cons_of_ne_nil hd.1
        rw [hi] at hp
        have hquote : d = '"' := (List.cons_prefix_cons.mp hp).1
        exact absurd (hd.2 d List.mem_cons_self) (by rw [hquote]; decide)
      | bare t =>
        rw [hi, hstop, List.append_assoc] at hp
        have hc' : c.isDigit = false :=
          stop_cases (P := fun c => c.isDigit = false) hc (by decide) (by decide)
        exact h ⟨hkey, t, hi, digits_prefix hd hc' hp⟩
    · have hkeyword : isWord key = true := hv.1 key (Option.mem_def.mpr hkey)
      show Skips _ (quoted key ++ ": ".toList ++ (l.item.text ++ l.stop))
      have hlabel : quoted key ++ ": ".toList = (quoted key ++ [':']) ++ [' '] := by
        rw [List.append_assoc]
        rfl
      rw [hlabel]
      exact ((skips_plain hid (by decide) (quote_notMem hkeyword) (Or.inl he)).append
        (skips_unquoted (by decide))).append
        hitem

end Search

end DriveIntegrity.Probe
