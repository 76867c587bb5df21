import DriveIntegrity.Library.Chars

/-! Searching a text for another one. -/

namespace DriveIntegrity

/-- The first position at which the text occurs, as `std::string::find` gives it. -/
def findText (needle : List Char) : List Char → Option ℕ
  | [] => if needle = [] then some 0 else none
  | c :: rest =>
      if needle.isPrefixOf (c :: rest) then some 0 else (findText needle rest).map (· + 1)

/-- The needle does not begin in the text, whatever follows. -/
def Skips (needle t : List Char) : Prop :=
  ∀ rest, findText needle (t ++ rest) = (findText needle rest).map (· + t.length)

section Rules

variable {needle s t : List Char} {c : Char}

lemma skips_nil : Skips needle [] := by
  intro rest
  simp

lemma Skips.append (hs : Skips needle s) (ht : Skips needle t) : Skips needle (s ++ t) := by
  intro rest
  rw [List.append_assoc, hs, ht, Option.map_map, List.length_append]
  congr 1
  funext n
  simp only [Function.comp_apply]
  omega

lemma skips_flatMap {α : Type} {f : α → List Char} {l : List α} (h : ∀ a ∈ l, Skips needle (f a)) :
    Skips needle (l.flatMap f) := by
  induction l with
  | nil => exact skips_nil
  | cons a l ih =>
    rw [List.flatMap_cons]
    apply (h a List.mem_cons_self).append
    exact ih (fun b hb => h b (List.mem_cons_of_mem a hb))

lemma skips_cons (hc : ∀ rest, ¬needle <+: c :: (t ++ rest)) (ht : Skips needle t) :
    Skips needle (c :: t) := by
  intro rest
  have hp : needle.isPrefixOf (c :: (t ++ rest)) = false := by
    rw [Bool.eq_false_iff, ne_eq, List.isPrefixOf_iff_prefix]
    exact hc rest
  rw [List.cons_append, findText, hp, ht, Option.map_map]
  simp only [Bool.false_eq_true, if_false, List.length_cons]
  congr 1

lemma skips_of_places (h : ∀ a w, t = a ++ c :: w → ∀ rest, ¬needle <+: w ++ rest) :
    Skips (c :: needle) t := by
  induction t with
  | nil => exact skips_nil
  | cons d t ih =>
    apply skips_cons
    · intro rest hp
      obtain ⟨rfl, hw⟩ := List.cons_prefix_cons.mp hp
      exact h [] t rfl rest hw
    · apply ih
      intro a w ht
      exact h (d :: a) w (by rw [ht, List.cons_append])

lemma skips_of_notMem (h : c ∉ t) : Skips (c :: needle) t := by
  apply skips_of_places
  rintro a w rfl
  exact (h (List.mem_append_right a List.mem_cons_self)).elim

lemma Skips.of_cons (h : Skips needle (c :: t)) :
    (∀ rest, ¬needle <+: c :: (t ++ rest)) ∧ Skips needle t := by
  have hfirst : ∀ rest, ¬needle <+: c :: (t ++ rest) := by
    intro rest hp
    have hr := h rest
    rw [List.cons_append, findText, List.isPrefixOf_iff_prefix.mpr hp, if_pos rfl] at hr
    cases hf : findText needle rest with
    | none => rw [hf] at hr; cases hr
    | some n => rw [hf, Option.map_some, List.length_cons, Option.some.injEq] at hr; omega
  refine ⟨hfirst, fun rest => ?_⟩
  have hp : needle.isPrefixOf (c :: (t ++ rest)) = false := by
    rw [Bool.eq_false_iff, ne_eq, List.isPrefixOf_iff_prefix]
    exact hfirst rest
  have hr := h rest
  rw [List.cons_append, findText, hp, List.length_cons] at hr
  simp only [Bool.false_eq_true, if_false] at hr
  cases hf : findText needle rest <;> cases hg :
    findText needle (t ++ rest) <;> rw [hf, hg] at hr <;>
    simp only [Option.map_some, Option.map_none, Option.some.injEq, reduceCtorEq] at hr ⊢
  omega

lemma Skips.of_append (h : Skips needle (s ++ t)) : Skips needle t := by
  induction s with
  | nil => exact h
  | cons c s ih => exact ih h.of_cons.2

lemma Skips.not_occurs (h : Skips needle t) (hn : needle ≠ []) : ¬needle <:+: t := by
  rintro ⟨a, b, rfl⟩
  rw [List.append_assoc] at h
  obtain ⟨c, needle, rfl⟩ := List.exists_cons_of_ne_nil hn
  exact h.of_append.of_cons.1 [] (by simp)

lemma findText_none (h : ¬needle <:+: t) : findText needle t = none := by
  induction t with
  | nil =>
    rw [findText, if_neg]
    rintro rfl
    exact h List.infix_rfl
  | cons c t ih =>
    have hp : needle.isPrefixOf (c :: t) = false := by
      rw [Bool.eq_false_iff, ne_eq, List.isPrefixOf_iff_prefix]
      exact fun hp => h hp.isInfix
    rw [findText, hp, ih (fun hi => h (hi.trans (List.infix_cons List.infix_rfl)))]
    rfl

lemma findText_self (needle rest : List Char) : findText needle (needle ++ rest) = some 0 := by
  have hp : needle.isPrefixOf (needle ++ rest) = true :=
    List.isPrefixOf_iff_prefix.mpr (List.prefix_append _ _)
  cases h : needle ++ rest with
  | nil => rw [findText, if_pos (List.append_eq_nil_iff.mp h).1]
  | cons d t =>
    rw [h] at hp
    rw [findText, if_pos hp]

lemma Skips.findText_append (h : Skips needle t) (rest : List Char) :
    findText needle (t ++ (needle ++ rest)) = some t.length := by
  rw [h, findText_self, Option.map_some, Nat.zero_add]

lemma Skips.findText_eq_none (h : Skips needle t) (hn : needle ≠ []) :
    findText needle t = none := by
  have hrest := h []
  rwa [List.append_nil, findText, if_neg hn, Option.map_none] at hrest

end Rules

section Places

variable {needle t : List Char} {n : ℕ}

/-- The needle begins at this position and at none before it. -/
def FirstAt (needle t : List Char) (n : ℕ) : Prop :=
  needle <+: t.drop n ∧ ∀ m < n, ¬needle <+: t.drop m

lemma findText_eq_some_iff : findText needle t = some n ↔ FirstAt needle t n := by
  induction t generalizing n with
  | nil =>
    unfold findText FirstAt
    simp only [List.drop_nil, List.prefix_nil]
    by_cases hn : needle = []
    · rw [if_pos hn, Option.some.injEq]
      refine ⟨fun h => ⟨hn, fun m hm => absurd hm (by omega)⟩, fun h => ?_⟩
      by_contra hne
      exact h.2 0 (Nat.pos_of_ne_zero (Ne.symm hne)) hn
    · rw [if_neg hn]
      exact iff_of_false (Option.some_ne_none n).symm (fun h => hn h.1)
  | cons c t ih =>
    by_cases hp : needle <+: c :: t
    · rw [findText, if_pos (List.isPrefixOf_iff_prefix.mpr hp), Option.some.injEq]
      refine ⟨fun h => h ▸ ⟨hp, fun m hm => absurd hm (Nat.not_lt_zero m)⟩, fun h => ?_⟩
      by_contra hne
      exact h.2 0 (Nat.pos_of_ne_zero (Ne.symm hne)) hp
    · rw [findText, if_neg (fun h => hp (List.isPrefixOf_iff_prefix.mp h))]
      cases n with
      | zero =>
        refine iff_of_false (fun h => ?_) (fun h => hp h.1)
        obtain ⟨m, _, hm⟩ := Option.map_eq_some_iff.mp h
        exact Nat.succ_ne_zero m hm
      | succ n =>
        have hmap : (findText needle t).map (· + 1) = some (n + 1) ↔
            findText needle t = some n := by
          rw [Option.map_eq_some_iff]
          refine ⟨fun ⟨m, hm, he⟩ => hm.trans (congrArg some (Nat.succ.inj he)),
            fun h => ⟨n, h, rfl⟩⟩
        rw [hmap, ih]
        refine ⟨fun h => ⟨h.1, fun m hm => ?_⟩,
          fun h => ⟨h.1, fun m hm => h.2 (m + 1) (Nat.succ_lt_succ hm)⟩⟩
        cases m with
        | zero => exact hp
        | succ m => exact h.2 m (Nat.lt_of_succ_lt_succ hm)

lemma FirstAt.le (h : FirstAt needle t n) : n + needle.length ≤ t.length := by
  have hlen := h.1.length_le
  rw [List.length_drop] at hlen
  by_cases hn : needle = []
  · have hzero : n = 0 := by
      by_contra hne
      exact h.2 0 (Nat.pos_of_ne_zero hne) (hn ▸ List.nil_prefix)
    subst hn hzero
    exact Nat.zero_le _
  · have hpos := List.length_pos_iff.mpr hn
    omega

end Places

section Marks

variable {key suffix w t : List Char} {mark : Char}

lemma prefix_mark (hk : mark ∉ key) (h : key ++ mark :: suffix <+: w ++ mark :: t) :
    (w = key ∧ suffix <+: t) ∨ ∃ v, w = key ++ mark :: v ∧ suffix <+: v ++ mark :: t := by
  induction key generalizing w with
  | nil =>
    cases w with
    | nil => exact Or.inl ⟨rfl, (List.cons_prefix_cons.mp h).2⟩
    | cons d w =>
      obtain ⟨rfl, hs⟩ := List.cons_prefix_cons.mp h
      exact Or.inr ⟨w, rfl, hs⟩
  | cons k key ih =>
    rw [List.mem_cons, not_or] at hk
    cases w with
    | nil => exact (hk.1 (List.cons_prefix_cons.mp h).1.symm).elim
    | cons d w =>
      obtain ⟨rfl, hw⟩ := List.cons_prefix_cons.mp h
      rcases ih hk.2 hw with ⟨rfl, hs⟩ | ⟨v, rfl, hs⟩
      · exact Or.inl ⟨rfl, hs⟩
      · exact Or.inr ⟨v, rfl, hs⟩

end Marks

section Quotes

def quoted (t : List Char) : List Char := '"' :: t ++ ['"']

variable {key suffix t : List Char} {c : Char}

lemma quoted_append (key suffix : List Char) : quoted key ++ suffix =
    '"' :: (key ++ '"' :: suffix) := by simp [quoted]

lemma skips_unquoted (h : '"' ∉ t) : Skips (quoted key ++ suffix) t := by
  rw [quoted_append]
  exact skips_of_notMem h

lemma skips_string (hk : key ≠ [] ∧ '"' ∉ key) (hc : c ∉ key ∧ c ≠ '"')
    (h : ∀ a w, '"' :: t = a ++ '"' :: w → ∀ rest,
      ¬key ++ '"' :: suffix <+: w ++ '"' :: c :: rest) :
    Skips (quoted key ++ suffix) (quoted t ++ [c]) := by
  have ht : quoted t ++ [c] = '"' :: t ++ ['"', c] := by simp [quoted]
  rw [quoted_append, ht]
  apply skips_of_places
  intro a w hw rest hp
  have hfirst : ∀ rest, ¬key ++ '"' :: suffix <+: c :: rest := by
    obtain ⟨k, key, rfl⟩ := List.exists_cons_of_ne_nil hk.1
    intro rest hp
    exact hc.1 ((List.cons_prefix_cons.mp hp).1 ▸ List.mem_cons_self)
  -- the quote is one in the string, or the closing one
  rcases List.append_eq_append_iff.mp hw with ⟨u, rfl, hu⟩ | ⟨u, hu, hw'⟩
  · rcases u with _ | ⟨d, _ | ⟨e, u⟩⟩
    · obtain ⟨_, rfl⟩ := List.cons_eq_cons.mp hu
      exact hfirst rest hp
    · exact hc.2 (List.cons_eq_cons.mp (List.cons_eq_cons.mp hu).2).1
    · simp at hu
  · rcases u with _ | ⟨d, u⟩
    · obtain ⟨_, rfl⟩ := List.cons_eq_cons.mp hw'
      exact hfirst rest hp
    · obtain ⟨rfl, rfl⟩ := List.cons_eq_cons.mp hw'
      apply h a u hu rest
      simpa using hp

/-- A name of letters, digits and underscores. -/
def isWord (key : List Char) : Bool := !key.isEmpty && key.all (fun c => c.isAlphanum || c == '_')

lemma isWord_ne_nil (h : isWord key = true) : key ≠ [] := by
  rintro rfl
  cases h

lemma notMem_of_isWord (h : isWord key = true) (hc : (c.isAlphanum || c == '_') = false) :
    c ∉ key := by
  intro hm
  rw [isWord, Bool.and_eq_true, List.all_eq_true] at h
  exact Bool.noConfusion ((h.2 c hm).symm.trans hc)

lemma quote_notMem (h : isWord key = true) : '"' ∉ key := notMem_of_isWord h (by decide)

lemma skips_plain (hk : isWord key = true) (hc : (c.isAlphanum || c == '_') = false ∧ c ≠ '"')
    (ht : '"' ∉ t)
    (hne : t ≠ key ∨ ∀ rest, ¬suffix <+: c :: rest) : Skips (quoted key ++ suffix)
    (quoted t ++ [c]) := by
  apply skips_string ⟨isWord_ne_nil hk, quote_notMem hk⟩ ⟨notMem_of_isWord hk hc.1, hc.2⟩
  intro a w hw rest hp
  have hwt : w = t := by
    rcases a with _ | ⟨d, a⟩
    · exact (List.cons_eq_cons.mp hw).2.symm
    · exact (ht ((List.cons_eq_cons.mp hw).2 ▸ List.mem_append_right a List.mem_cons_self)).elim
  subst hwt
  rcases prefix_mark (quote_notMem hk) hp with ⟨he, hs⟩ | ⟨v, rfl, _⟩
  · exact hne.elim (fun h => h he) (fun h => h rest hs)
  · exact ht (List.mem_append_right key List.mem_cons_self)

lemma skips_unspelled (hk : isWord key = true) (hc : (c.isAlphanum || c == '_') = false ∧ c ≠ '"')
    (hne : c ≠ ':')
    (h : ¬quoted key ++ [':'] <:+: '"' :: t) : Skips (quoted key ++ [':']) (quoted t ++ [c]) := by
  apply skips_string ⟨isWord_ne_nil hk, quote_notMem hk⟩ ⟨notMem_of_isWord hk hc.1, hc.2⟩
  intro a w hw rest hp
  rcases prefix_mark (quote_notMem hk) hp with ⟨_, hs⟩ | ⟨v, rfl, hs⟩
  · exact hne (List.cons_prefix_cons.mp hs).1.symm
  · rcases v with _ | ⟨d, v⟩
    · exact absurd (List.cons_prefix_cons.mp hs).1 (by decide)
    · obtain ⟨rfl, _⟩ := List.cons_prefix_cons.mp hs
      exact h ⟨a, v, by rw [hw]; simp [quoted]⟩

lemma skips_key (hk : isWord key = true) {colon tail : List Char}
    (hcolon : ¬ '"' ∈ c :: colon ∧ c ∉ key)
    (ht : Skips (quoted key ++ (c :: colon ++ suffix)) tail)
    (h : ∀ rest, ¬suffix <+: tail ++ rest) :
    Skips (quoted key ++ (c :: colon ++ suffix)) (quoted key ++ (c :: colon ++ tail)) := by
  have hword : Skips (quoted key ++ (c :: colon ++ suffix)) key := skips_unquoted (quote_notMem hk)
  have hblank : Skips (quoted key ++ (c :: colon ++ suffix)) (c :: colon) := skips_unquoted hcolon.1
  rw [quoted_append key (c :: colon ++ tail)]
  apply skips_cons
  · intro rest hp
    rw [quoted_append] at hp
    have hkey := (List.cons_prefix_cons.mp hp).2
    rw [List.append_assoc, List.prefix_append_right_inj] at hkey
    have htail : c :: colon ++ suffix <+: c :: colon ++ (tail ++ rest) := by
      rw [← List.append_assoc]
      exact (List.cons_prefix_cons.mp hkey).2
    exact h rest ((List.prefix_append_right_inj _).mp htail)
  · apply hword.append
    apply skips_cons _ (hblank.append ht)
    intro rest hp
    obtain ⟨k, word, rfl⟩ := List.exists_cons_of_ne_nil (isWord_ne_nil hk)
    rw [quoted_append, List.cons_prefix_cons] at hp
    exact hcolon.2 ((List.cons_prefix_cons.mp hp.2).1 ▸ List.mem_cons_self)

/-- The inside of a JSON string: every quote stands behind a backslash. -/
def escaped : List Char → Bool
  | [] => true
  | '\\' :: [] => false
  | '\\' :: _ :: t => escaped t
  | c :: t => c != '"' && escaped t

lemma escaped_quote {a b : List Char} (h : escaped (a ++ c :: '"' :: b) = true) : c = '\\' := by
  fun_induction escaped a with
  | case1 =>
    by_contra hne
    rw [List.nil_append, escaped, Bool.and_eq_true] at h
    · exact absurd h.2 (by simp [escaped])
    · exact fun he _ => hne he
    · exact fun _ _ he _ => hne he
  | case2 => simp [escaped] at h
  | case3 _ _ ih => exact ih h
  | case4 d t hnil hcons ih =>
    have hd : d ≠ '\\' := by
      intro he
      cases t with
      | nil => exact hnil he rfl
      | cons e t => exact hcons e t he rfl
    rw [List.cons_append, escaped, Bool.and_eq_true] at h
    · exact ih h.2
    · exact fun he _ => hd he
    · exact fun _ _ he _ => hd he

lemma escaped_unspelled (hk : isWord key = true) (h : escaped t = true) :
    ¬quoted key ++ suffix <:+: '"' :: t := by
  rintro ⟨a, b, he⟩
  rw [quoted_append] at he
  have hform : ∃ u, t = u ++ (key ++ '"' :: (suffix ++ b)) := by
    rcases a with _ | ⟨d, a⟩
    · exact ⟨[], by simpa using (List.cons_eq_cons.mp he).2.symm⟩
    · exact ⟨a ++ ['"'], by simpa using (List.cons_eq_cons.mp he).2.symm⟩
  obtain ⟨u, rfl⟩ := hform
  obtain ⟨front, last, rfl⟩ := (List.eq_nil_or_concat' key).resolve_left (isWord_ne_nil hk)
  have hlast : last = '\\' := by
    apply escaped_quote (a := u ++ front) (b := suffix ++ b)
    simpa using h
  have hback : '\\' ∉ front ++ [last] := notMem_of_isWord hk (by decide)
  apply hback
  rw [hlast]
  exact List.mem_append_right front List.mem_cons_self

lemma skips_escaped_key (hk : isWord key = true) (hc : (c.isAlphanum || c == '_') = false ∧ c ≠ '"')
    (hne : c ≠ ':')
    (ht : escaped t = true) : Skips (quoted key ++ (':' :: suffix)) (quoted t ++ [c]) := by
  apply skips_string ⟨isWord_ne_nil hk, quote_notMem hk⟩ ⟨notMem_of_isWord hk hc.1, hc.2⟩
  intro a w hw rest hp
  rcases prefix_mark (quote_notMem hk) hp with ⟨_, hs⟩ | ⟨v, rfl, _⟩
  · exact hne (List.cons_prefix_cons.mp hs).1.symm
  · apply @escaped_unspelled key [] t hk ht
    exact ⟨a, v, by rw [hw]; simp [quoted]⟩

lemma skips_escaped_word (hk : isWord key = true)
    (hc : (c.isAlphanum || c == '_') = false ∧ c ≠ '"')
    (ht : escaped t = true) (h : ¬ '"' :: key <:+ '"' :: t) :
    Skips (quoted key) (quoted t ++ [c]) := by
  rw [← List.append_nil (quoted key)]
  apply skips_string ⟨isWord_ne_nil hk, quote_notMem hk⟩ ⟨notMem_of_isWord hk hc.1, hc.2⟩
  intro a w hw rest hp
  rcases prefix_mark (quote_notMem hk) hp with ⟨rfl, _⟩ | ⟨v, rfl, _⟩
  · exact h ⟨a, hw.symm⟩
  · apply @escaped_unspelled key [] t hk ht
    exact ⟨a, v, by rw [hw]; simp [quoted]⟩

end Quotes

end DriveIntegrity
