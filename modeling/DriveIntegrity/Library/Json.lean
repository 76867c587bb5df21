import DriveIntegrity.Library.Decimal
import DriveIntegrity.Library.Search
import Mathlib.Data.List.TakeWhile

/-! JSON texts: their tokens, read one character at a time, and the values whose tokens they are. -/

namespace DriveIntegrity.Json

section Values

inductive Token
  | openArray
  | closeArray
  | openObject
  | closeObject
  | colon
  | comma
  | str (t : List Char)
  | number (literal : List Char)
  | bool (b : Bool)
  | null
  deriving DecidableEq

/-- A JSON value; a number is kept as it is written. -/
inductive Value
  | str (t : List Char)
  | number (literal : List Char)
  | bool (b : Bool)
  | null
  | array (items : List Value)
  | object (members : List (List Char × Value))

def separated : List (List Token) → List Token
  | [] => []
  | [ts] => ts
  | ts :: rest => ts ++ .comma :: separated rest

mutual

def Value.tokens : Value → List Token
  | .str t => [.str t]
  | .number literal => [.number literal]
  | .bool b => [.bool b]
  | .null => [.null]
  | .array items => .openArray :: separated (itemTokens items) ++ [.closeArray]
  | .object members => .openObject :: separated (memberTokens members) ++ [.closeObject]

def itemTokens : List Value → List (List Token)
  | [] => []
  | v :: items => v.tokens :: itemTokens items

def memberTokens : List (List Char × Value) → List (List Token)
  | [] => []
  | (name, v) :: members => (.str name :: .colon :: v.tokens) :: memberTokens members

end

lemma itemTokens_eq (items : List Value) : itemTokens items = items.map Value.tokens := by
  induction items with
  | nil => rfl
  | cons v items ih => rw [itemTokens, ih, List.map_cons]

lemma memberTokens_eq (members : List (List Char × Value)) :
    memberTokens members = members.map (fun m => .str m.1 :: .colon :: m.2.tokens) := by
  induction members with
  | nil => rfl
  | cons m members ih => rw [memberTokens, ih, List.map_cons]

lemma separated_cons (ts : List Token) (rest : List (List Token)) :
    separated (ts :: rest) = ts ++ rest.flatMap (.comma :: ·) := by
  induction rest generalizing ts with
  | nil => exact (List.append_nil ts).symm
  | cons us rest ih =>
    rw [separated, ih, List.flatMap_cons]
    · rfl
    · exact List.cons_ne_nil us rest

end Values

section Numbers

def isFraction : List Char → Bool
  | [] => true
  | '.' :: t => !t.isEmpty && t.all Char.isDigit
  | _ => false

def isExponent : List Char → Bool
  | [] => true
  | _ :: '+' :: t => !t.isEmpty && t.all Char.isDigit
  | _ :: '-' :: t => !t.isEmpty && t.all Char.isDigit
  | _ :: t => !t.isEmpty && t.all Char.isDigit

def isInteger (t : List Char) : Bool := t == ['0'] || !t.isEmpty && t.head? != some '0'

def unsigned (t : List Char) : List Char := if t.head? = some '-' then t.tail else t

def isMantissa (t : List Char) : Bool :=
  isInteger ((unsigned t).takeWhile Char.isDigit) && isFraction
    ((unsigned t).dropWhile Char.isDigit)

def isE (c : Char) : Bool := c == 'e' || c == 'E'

def isNumber (t : List Char) : Bool :=
  isMantissa (t.takeWhile (fun c => !isE c)) && isExponent (t.dropWhile (fun c => !isE c))

end Numbers

section Strings

def simpleEscape : Char → Option Char
  | '"' => some '"'
  | '\\' => some '\\'
  | '/' => some '/'
  | 'b' => some '\x08'
  | 'f' => some '\x0c'
  | 'n' => some '\n'
  | 'r' => some '\r'
  | 't' => some '\t'
  | _ => none

/-- What stands between the quotes, as characters and as the numbers behind `\u`. -/
def units : List Char → Option (List (Char ⊕ ℕ))
  | [] => some []
  | '\\' :: 'u' :: a :: b :: c :: d :: t =>
    match hexDigit a, hexDigit b, hexDigit c, hexDigit d, units t with
    | some a, some b, some c, some d,
        some rest => some (.inr (4096 * a + 256 * b + 16 * c + d) :: rest)
    | _, _, _, _, _ => none
  | '\\' :: e :: t =>
    match simpleEscape e, units t with
    | some c, some rest => some (.inl c :: rest)
    | _, _ => none
  | c :: t => if c = '\\' ∨ c = '"' ∨ c.toNat < 32 then none else (units t).map (.inl c :: ·)

def isHigh (n : ℕ) : Bool := 0xD800 ≤ n && n < 0xDC00
def isLow (n : ℕ) : Bool := 0xDC00 ≤ n && n < 0xE000

/-- Pairs of surrogates stand for one character, and none may stand alone. -/
def joined : List (Char ⊕ ℕ) → Option (List Char)
  | [] => some []
  | .inl c :: t => (joined t).map (c :: ·)
  | .inr h :: .inr l :: t =>
    if isHigh h && isLow l then (joined t).map
      (Char.ofNat (0x10000 + 1024 * (h - 0xD800) + (l - 0xDC00)) :: ·)
    else if isHigh h || isLow h then none
    else (joined (.inr l :: t)).map (Char.ofNat h :: ·)
  | .inr h :: t => if isHigh h || isLow h then none else (joined t).map (Char.ofNat h :: ·)

def stringValue (raw : List Char) : Option (List Char) := (units raw).bind joined

end Strings

section Lexer

def isBlank (c : Char) : Bool := c == ' ' || c == '\t' || c == '\n' || c == '\r'

def punctuation : Char → Option Token
  | '[' => some .openArray
  | ']' => some .closeArray
  | '{' => some .openObject
  | '}' => some .closeObject
  | ':' => some .colon
  | ',' => some .comma
  | _ => none

def wordToken (w : List Char) : Option Token :=
  if w = "true".toList then some (.bool true)
  else if w = "false".toList then some (.bool false)
  else if w = "null".toList then some .null
  else if isNumber w then some (.number w)
  else none

/-- What the last characters belong to. -/
inductive Mode
  | blank
  | word (w : List Char)
  | str (raw : List Char)
  | escape (raw : List Char)

def start (c : Char) : List Token × Mode :=
  if c = '"' then ([], .str [])
  else if isBlank c then ([], .blank)
  else match punctuation c with
    | some token => ([token], .blank)
    | none => ([], .word [c])

def endsWord (c : Char) : Bool := c == '"' || isBlank c || (punctuation c).isSome

def step : Mode → Char → Option (List Token × Mode)
  | .blank, c => some (start c)
  | .word w, c =>
    if endsWord c then (wordToken w).map (fun token => (token :: (start c).1, (start c).2))
    else some ([], .word (w ++ [c]))
  | .str raw, c =>
    if c = '"' then (stringValue raw).map (fun t => ([.str t], .blank))
    else if c = '\\' then some ([], .escape (raw ++ [c]))
    else some ([], .str (raw ++ [c]))
  | .escape raw, c => some ([], .str (raw ++ [c]))

def finish : Mode → Option (List Token)
  | .blank => some []
  | .word w => (wordToken w).map (fun token => [token])
  | .str _ => none
  | .escape _ => none

def lexFrom (m : Mode) : List Char → Option (List Token)
  | [] => finish m
  | c :: t =>
    match step m c with
    | none => none
    | some (tokens, m) => (lexFrom m t).map (tokens ++ ·)

def lex : List Char → Option (List Token) := lexFrom .blank

/-- The text is well formed, and this is its value. -/
def Denotes (t : List Char) (v : Value) : Prop := lex t = some v.tokens

end Lexer

section Numerals

lemma decimal_head {n : ℕ} (hn : 0 < n) : (decimal n).head? ≠ some '0' := by
  induction n using Nat.strong_induction_on with
  | _ n ih =>
    rw [decimal, Nat.toDigits_eq_if (by norm_num)]
    split_ifs with h
    · intro h0
      rw [List.head?_cons, Option.some.injEq] at h0
      interval_cases n <;> exact absurd h0 (by decide)
    · have hrec := ih (n / 10) (by omega) (by omega)
      obtain ⟨d, ds, hd⟩ := List.exists_cons_of_ne_nil (decimal_ne_nil (n / 10))
      rw [decimal] at hd hrec
      rwa [hd, List.cons_append, List.head?_cons, ← List.head?_cons, ← hd]

lemma isInteger_decimal (n : ℕ) : isInteger (decimal n) = true := by
  rcases Nat.eq_zero_or_pos n with rfl | hn
  · decide
  · have hne : (decimal n).isEmpty = false := List.isEmpty_eq_false_iff.mpr (decimal_ne_nil n)
    rw [isInteger, hne, Bool.or_eq_true, Bool.and_eq_true, bne_iff_ne]
    exact Or.inr ⟨rfl, decimal_head hn⟩

lemma isE_of_isDigit {c : Char} (h : c.isDigit = true) : isE c = false := by
  rw [isE, Bool.or_eq_false_iff, beq_eq_false_iff_ne, beq_eq_false_iff_ne]
  constructor <;> rintro rfl <;> exact absurd h (by decide)

variable {fraction : List Char}

lemma isFraction_chars (hf : isFraction fraction = true) :
    ∀ c ∈ fraction, c = '.' ∨ c.isDigit = true := by
  intro c hc
  unfold isFraction at hf
  split at hf
  · cases hc
  · rw [Bool.and_eq_true, List.all_eq_true] at hf
    rcases List.mem_cons.mp hc with rfl | hc
    · exact Or.inl rfl
    · exact Or.inr (hf.2 c hc)
  · cases hf

lemma isNumber_decimal (negative : Bool) (n : ℕ) (hf : isFraction fraction = true) :
    isNumber ((if negative then ['-'] else []) ++ (decimal n ++ fraction)) = true := by
  have hdigits : ∀ c ∈ decimal n, c.isDigit = true := fun _ => isDigit_of_mem_decimal
  have hall : ∀ c ∈ (if negative then ['-'] else []) ++ (decimal n ++ fraction),
      (!isE c) = true := by
    intro c hc
    rw [Bool.not_eq_true']
    rcases List.mem_append.mp hc with hc | hc
    · cases negative with
      | false => cases hc
      | true =>
        rw [List.mem_singleton.mp hc]
        decide
    rcases List.mem_append.mp hc with hc | hc
    · exact isE_of_isDigit (hdigits c hc)
    rcases isFraction_chars hf c hc with rfl | hc
    · decide
    · exact isE_of_isDigit hc
  have hunsigned : unsigned ((if negative then ['-'] else []) ++ (decimal n ++ fraction)) =
      decimal n ++ fraction := by
    cases negative with
    | false =>
      obtain ⟨d, ds, hd⟩ := List.exists_cons_of_ne_nil (decimal_ne_nil n)
      have hminus : d ≠ '-' := by
        rintro rfl
        exact absurd (hdigits '-' (hd ▸ List.mem_cons_self)) (by decide)
      simp only [unsigned, Bool.false_eq_true, if_false, List.nil_append, hd, List.cons_append,
        List.head?_cons, Option.some.injEq, if_neg hminus]
    | true => rfl
  have hstop : fraction.takeWhile Char.isDigit = [] ∧
      fraction.dropWhile Char.isDigit = fraction := by
    unfold isFraction at hf
    split at hf
    · exact ⟨rfl, rfl⟩
    · exact ⟨rfl, rfl⟩
    · cases hf
  rw [isNumber, List.takeWhile_eq_self_iff.mpr hall, List.dropWhile_eq_nil_iff.mpr hall, isMantissa,
    hunsigned, List.takeWhile_append_of_pos hdigits, List.dropWhile_append_of_pos hdigits, hstop.1,
    hstop.2, List.append_nil, isInteger_decimal, hf]
  rfl

end Numerals

section Decoding

/-- A text that stands between quotes as it is. -/
def Plain (t : List Char) : Prop := ∀ c ∈ t, c ≠ '"' ∧ c ≠ '\\' ∧ 32 ≤ c.toNat

instance (t : List Char) : Decidable (Plain t) := inferInstanceAs (Decidable (∀ c ∈ t, _))

lemma toNat_of_isDigit {c : Char} (h : c.isDigit = true) : 32 ≤ c.toNat := by
  simp only [Char.isDigit, ge_iff_le, Bool.and_eq_true, decide_eq_true_eq] at h
  exact le_trans (by decide) (UInt32.le_iff_toNat_le.mp h.1)

lemma hexDigit_printable {c : Char} {n : ℕ} (h : hexDigit c = some n) : 32 ≤ c.toNat := by
  unfold hexDigit at h
  split_ifs at h with hd ha hA
  · exact toNat_of_isDigit hd
  · exact le_trans (by decide) (UInt32.le_iff_toNat_le.mp ha.1)
  · exact le_trans (by decide) (UInt32.le_iff_toNat_le.mp hA.1)

lemma simpleEscape_printable {c e : Char} (h : simpleEscape e = some c) : 32 ≤ e.toNat := by
  unfold simpleEscape at h
  split at h
  all_goals first | decide | cases h

lemma units_some {raw : List Char} {u : List (Char ⊕ ℕ)} (h : units raw = some u) :
    u.length ≤ raw.length ∧ (u.length = raw.length → Plain raw) ∧ ∀ c ∈ raw, 32 ≤ c.toNat := by
  fun_induction units raw generalizing u with
  | case1 =>
    obtain rfl := Option.some.inj h
    exact ⟨le_refl 0, fun _ => by decide, by decide⟩
  | case2 a b c d t _ _ _ _ rest ht hd hc hb ha ih =>
    obtain rfl := Option.some.inj h
    obtain ⟨hle, _, hprint⟩ := ih ht
    simp only [List.length_cons, List.forall_mem_cons]
    refine ⟨by omega, fun heq => by omega, by decide, by decide, ?_⟩
    exact ⟨hexDigit_printable ha, hexDigit_printable hb, hexDigit_printable hc,
      hexDigit_printable hd, hprint⟩
  | case3 => cases h
  | case4 e t _ _ rest ht he ih =>
    obtain rfl := Option.some.inj h
    obtain ⟨hle, _, hprint⟩ := ih ht
    simp only [List.length_cons, List.forall_mem_cons]
    exact ⟨by omega, fun heq => by omega, by decide, simpleEscape_printable he, hprint⟩
  | case5 => cases h
  | case6 => cases h
  | case7 c t _ _ hc ih =>
    obtain ⟨rest, ht, rfl⟩ := Option.map_eq_some_iff.mp h
    obtain ⟨hle, hplain, hprint⟩ := ih ht
    rw [not_or, not_or, not_lt] at hc
    simp only [List.length_cons, List.forall_mem_cons]
    refine ⟨by omega, fun heq => ?_, hc.2.2, hprint⟩
    exact List.forall_mem_cons.mpr ⟨⟨hc.2.1, hc.1, hc.2.2⟩, hplain (by omega)⟩

lemma joined_length {u : List (Char ⊕ ℕ)} {t : List Char} (h : joined u = some t) :
    t.length ≤ u.length := by
  fun_induction joined u generalizing t with
  | case1 =>
    obtain rfl := Option.some.inj h
    exact le_refl 0
  | case2 c u ih =>
    obtain ⟨rest, hu, rfl⟩ := Option.map_eq_some_iff.mp h
    exact Nat.succ_le_succ (ih hu)
  | case3 hi lo u _ ih =>
    obtain ⟨rest, hu, rfl⟩ := Option.map_eq_some_iff.mp h
    exact (Nat.succ_le_succ (ih hu)).trans (Nat.le_succ _)
  | case4 => cases h
  | case5 hi lo u _ _ ih =>
    obtain ⟨rest, hu, rfl⟩ := Option.map_eq_some_iff.mp h
    exact Nat.succ_le_succ (ih hu)
  | case6 => cases h
  | case7 n u _ _ ih =>
    obtain ⟨rest, hu, rfl⟩ := Option.map_eq_some_iff.mp h
    exact Nat.succ_le_succ (ih hu)

lemma stringValue_some {raw t : List Char} (h : stringValue raw = some t) :
    t.length ≤ raw.length ∧ (t.length = raw.length → Plain raw) ∧ ∀ c ∈ raw, 32 ≤ c.toNat := by
  obtain ⟨u, hu, ht⟩ := Option.bind_eq_some_iff.mp h
  obtain ⟨hle, hplain, hprint⟩ := units_some hu
  have hjoined := joined_length ht
  exact ⟨by omega, fun heq => hplain (by omega), hprint⟩

lemma stringValue_plain {t : List Char} (h : Plain t) : stringValue t = some t := by
  have hunits : units t = some (t.map Sum.inl) := by
    induction t with
    | nil => rfl
    | cons c t ih =>
      obtain ⟨⟨hquote, hback, hprint⟩, hrest⟩ := List.forall_mem_cons.mp h
      have hc : ¬(c = '\\' ∨ c = '"' ∨ c.toNat < 32) := by
        rw [not_or, not_or, not_lt]
        exact ⟨hback, hquote, hprint⟩
      rw [units, if_neg hc, ih hrest]
      · rfl
      · exact fun _ _ _ _ _ he _ => hback he
      · exact fun _ _ he _ => hback he
  have hjoined : joined (t.map Sum.inl) = some t := by
    clear h hunits
    induction t with
    | nil => rfl
    | cons c t ih => rw [List.map_cons, joined, ih, Option.map_some]
  rw [stringValue, hunits, Option.bind_some, hjoined]

end Decoding

section Reading

variable {s t : List Char} {ts us more : List Token}

/-- The text is read as these tokens, whatever follows. -/
def Reads (s : List Char) (ts : List Token) : Prop :=
  ∀ rest, lexFrom .blank (s ++ rest) = (lexFrom .blank rest).map (ts ++ ·)

lemma reads_nil : Reads [] [] := by
  intro rest
  cases h : lexFrom .blank rest with
  | none => exact h
  | some ts => exact h

lemma Reads.append (hs : Reads s ts) (ht : Reads t us) : Reads (s ++ t) (ts ++ us) := by
  intro rest
  rw [List.append_assoc, hs, ht, Option.map_map]
  congr 1
  funext more
  exact (List.append_assoc ts us more).symm

lemma reads_iff (h : Reads s ts) {rest : List Char} :
    lexFrom .blank (s ++ rest) = some (ts ++ more) ↔ lexFrom .blank rest = some more := by
  rw [h, Option.map_eq_some_iff]
  constructor
  · rintro ⟨us, hus, heq⟩
    rw [hus, List.append_cancel_left heq]
  · exact fun hmore => ⟨more, hmore, rfl⟩

lemma reads_char {c : Char} (h : start c = (ts, .blank)) : Reads [c] ts := by
  intro rest
  change (match step .blank c with
    | none => none
    | some (tokens, m) => (lexFrom m rest).map (tokens ++ ·)) = _
  rw [step, h]

lemma lex_word {w : List Char} (hw : ∀ c ∈ w, endsWord c = false) (pre rest : List Char) :
    lexFrom (.word pre) (w ++ rest) = lexFrom (.word (pre ++ w)) rest := by
  induction w generalizing pre with
  | nil => rw [List.append_nil, List.nil_append]
  | cons c w ih =>
    rw [List.forall_mem_cons] at hw
    rw [List.cons_append, lexFrom, step, hw.1]
    simp only [Bool.false_eq_true, if_false, List.nil_append, Option.map_id']
    rw [ih hw.2, List.append_assoc, List.singleton_append]

lemma reads_word {w : List Char} {token : Token} (hne : w ≠ []) (hw : ∀ c ∈ w, endsWord c = false)
    (htoken : wordToken w = some token) {c : Char} (hc : endsWord c = true)
    (hstart : start c = (ts, .blank)) :
    Reads (w ++ [c]) (token :: ts) := by
  obtain ⟨d, w, rfl⟩ := List.exists_cons_of_ne_nil hne
  rw [List.forall_mem_cons] at hw
  intro rest
  have hd : start d = ([], .word [d]) := by
    have hend := hw.1
    simp only [endsWord, Bool.or_eq_false_iff, beq_eq_false_iff_ne, Option.isSome_eq_false_iff,
      Option.isNone_iff_eq_none]
      at hend
    rw [start, if_neg hend.1.1, hend.1.2, hend.2]
    rfl
  rw [List.append_assoc, List.cons_append, lexFrom, step, hd]
  simp only [List.nil_append, Option.map_id']
  rw [lex_word hw.2, List.singleton_append, List.singleton_append, lexFrom, step, hc, if_pos rfl,
    htoken, hstart]
  rfl

lemma lex_plain (ht : Plain t) (raw rest : List Char) :
    lexFrom (.str raw) (t ++ rest) = lexFrom (.str (raw ++ t)) rest := by
  induction t generalizing raw with
  | nil => rw [List.append_nil, List.nil_append]
  | cons c t ih =>
    obtain ⟨⟨hquote, hback, _⟩, hrest⟩ := List.forall_mem_cons.mp ht
    rw [List.cons_append, lexFrom, step, if_neg hquote, if_neg hback]
    simp only [List.nil_append, Option.map_id']
    rw [ih hrest, List.append_assoc, List.singleton_append]

lemma reads_quoted (ht : Plain t) : Reads (quoted t) [.str t] := by
  intro rest
  have hquote : start '"' = ([], .str []) := rfl
  rw [quoted_append, lexFrom, step, hquote]
  simp only [List.nil_append, Option.map_id']
  rw [lex_plain ht, List.nil_append, lexFrom, step, if_pos rfl, stringValue_plain ht,
    Option.map_some]

lemma lex_string {m : Mode} {raw x : List Char} (hm : m = .str raw ∨ m = .escape raw)
    (h : lexFrom m x = some ts) :
    ∃ body y v us, x = body ++ '"' :: y ∧ stringValue (raw ++ body) = some v ∧ ts = .str v :: us ∧
      lexFrom .blank y = some us := by
  induction x generalizing m raw ts with
  | nil => rcases hm with rfl | rfl <;> cases h
  | cons c x ih =>
    have hgoes : ∀ m, m = .str (raw ++ [c]) ∨ m = .escape (raw ++ [c]) →
        (lexFrom m x).map ([] ++ ·) = some ts →
        ∃ body y v us, c :: x = body ++ '"' :: y ∧ stringValue (raw ++ body) = some v ∧
          ts = .str v :: us ∧
          lexFrom .blank y = some us := by
      intro m hm h
      simp only [List.nil_append, Option.map_id'] at h
      obtain ⟨body, y, v, us, rfl, hv, hts, hy⟩ := ih hm h
      exact ⟨c :: body, y, v, us, rfl, by simpa using hv, hts, hy⟩
    rcases hm with rfl | rfl
    · rw [lexFrom, step] at h
      split_ifs at h with hquote hback
      · cases hv : stringValue raw with
        | none => rw [hv] at h; cases h
        | some v =>
          rw [hv] at h
          obtain ⟨us, hus, rfl⟩ := Option.map_eq_some_iff.mp h
          exact ⟨[], x, v, us, by rw [hquote]; rfl, by rwa [List.append_nil], rfl, hus⟩
      · exact hgoes _ (Or.inr rfl) h
      · exact hgoes _ (Or.inl rfl) h
    · exact hgoes _ (Or.inl rfl) h

lemma closing_quote {body rest y : List Char} (hs : '"' ∉ s) (hbody : '\n' ∉ body)
    (hle : t.length ≤ body.length)
    (h : t ++ '"' :: (s ++ '\n' :: rest) = body ++ '"' :: y) :
    body = t ∧ y = s ++ '\n' :: rest := by
  rcases List.append_eq_append_iff.mp h with ⟨u, rfl, hu⟩ | ⟨u, rfl, hu⟩
  · rcases u with _ | ⟨c, u⟩
    · exact ⟨List.append_nil t, (List.cons_eq_cons.mp hu).2.symm⟩
    · obtain ⟨rfl, hline⟩ := List.cons_eq_cons.mp hu
      exfalso
      rw [List.mem_append, List.mem_cons, not_or, not_or] at hbody
      rcases List.append_eq_append_iff.mp hline with ⟨w, rfl, hw⟩ | ⟨w, rfl, hw⟩
      · rcases w with _ | ⟨d, w⟩
        · exact absurd (List.cons_eq_cons.mp hw).1 (by decide)
        · exact hbody.2.2
            (List.mem_append_right s ((List.cons_eq_cons.mp hw).1 ▸ List.mem_cons_self))
      · rcases w with _ | ⟨d, w⟩
        · exact absurd (List.cons_eq_cons.mp hw).1 (by decide)
        · exact hs (List.mem_append_right u ((List.cons_eq_cons.mp hw).1 ▸ List.mem_cons_self))
  · have hnil : u = [] := by
      rw [← List.length_eq_zero_iff]
      rw [List.length_append] at hle
      omega
    rw [hnil, List.nil_append] at hu
    rw [hnil, List.append_nil]
    exact ⟨rfl, (List.cons_eq_cons.mp hu).2⟩

lemma lex_quoted_iff (hs : '"' ∉ s) (rest : List Char) :
    lexFrom .blank (quoted t ++ (s ++ '\n' :: rest)) = some (.str t :: more) ↔
      Plain t ∧ lexFrom .blank (s ++ '\n' :: rest) = some more := by
  constructor
  · intro h
    have hquote : start '"' = ([], .str []) := rfl
    rw [quoted_append, lexFrom, step, hquote] at h
    simp only [List.nil_append, Option.map_id'] at h
    obtain ⟨body, y, v, us, hx, hv, hts, hy⟩ := lex_string (Or.inl rfl) h
    rw [List.cons_eq_cons, Token.str.injEq] at hts
    obtain ⟨rfl, rfl⟩ := hts
    rw [List.nil_append] at hv
    obtain ⟨hle, hplain, hprint⟩ := stringValue_some hv
    have hline : '\n' ∉ body := fun hm => absurd (hprint _ hm) (by decide)
    obtain ⟨rfl, rfl⟩ := closing_quote hs hline hle hx
    exact ⟨hplain rfl, hy⟩
  · rintro ⟨ht, hmore⟩
    exact (reads_iff (reads_quoted ht)).mpr hmore

end Reading

end DriveIntegrity.Json
