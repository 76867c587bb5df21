import DriveIntegrity.Library.Xml

/-! Character data that has been read can be written and read again. -/

namespace DriveIntegrity

def XmlText (t : List Char) : Prop := ∀ c ∈ t, isXmlChar c = true

lemma isXmlChar_charOfCode {n : ℕ} {c : Char} (h : charOfCode n = some c) : isXmlChar c = true := by
  unfold charOfCode at h
  split_ifs at h with hn
  rw [← Option.some.inj h]
  exact hn.2

lemma isXmlChar_entityChar {name : List Char} {c : Char} (h : entityChar name = some c) :
    isXmlChar c = true := by
  unfold entityChar at h
  split_ifs at h
  · exact Option.some.inj h ▸ by decide
  · exact Option.some.inj h ▸ by decide
  · exact Option.some.inj h ▸ by decide
  · exact Option.some.inj h ▸ by decide
  · exact Option.some.inj h ▸ by decide
  · obtain ⟨n, _, hn⟩ := Option.bind_eq_some_iff.mp h
    exact isXmlChar_charOfCode hn
  · obtain ⟨n, _, hn⟩ := Option.bind_eq_some_iff.mp h
    exact isXmlChar_charOfCode hn

lemma xmlText_of_map {c : Char} {rest : Option (List Char)} {t : List Char}
    (hc : isXmlChar c = true)
    (hrest : ∀ u, rest = some u → XmlText u) (h : rest.map (c :: ·) = some t) : XmlText t := by
  obtain ⟨u, hu, rfl⟩ := Option.map_eq_some_iff.mp h
  exact List.forall_mem_cons.mpr ⟨hc, hrest u hu⟩

lemma xmlText_unescape {raw : List Char} (reference : Option (List Char)) {t : List Char}
    (h : unescape reference raw = some t) : XmlText t := by
  induction raw generalizing reference t with
  | nil =>
    unfold unescape at h
    split_ifs at h
    rw [← Option.some.inj h]
    exact fun _ hc => absurd hc List.not_mem_nil
  | cons c raw ih =>
    cases reference with
    | none =>
      simp only [unescape] at h
      split_ifs at h with _ hc
      · exact ih _ h
      · exact xmlText_of_map hc (fun _ hu => ih _ hu) h
    | some name =>
      simp only [unescape] at h
      split_ifs at h
      · obtain ⟨d, hd, h⟩ := Option.bind_eq_some_iff.mp h
        exact xmlText_of_map (isXmlChar_entityChar hd) (fun _ hu => ih _ hu) h
      · exact ih _ h

lemma xmlText_decodeChars {raw t : List Char} (h : decodeChars raw = some t) : XmlText t := by
  unfold decodeChars at h
  split_ifs at h
  exact xmlText_unescape none h

lemma unescape_name {name : List Char} (h : ';' ∉ name) (read rest : List Char) :
    unescape (some read) (name ++ ';' :: rest) =
      (entityChar (read ++ name)).bind (fun d => (unescape none rest).map (d :: ·)) := by
  induction name generalizing read with
  | nil => rw [List.nil_append, unescape, if_pos rfl, List.append_nil]
  | cons c name ih =>
    rw [List.mem_cons, not_or] at h
    rw [List.cons_append, unescape, if_neg (Ne.symm h.1), ih h.2, List.append_assoc,
      List.singleton_append]

lemma unescape_reference {name : List Char} (h : ';' ∉ name) {d : Char}
    (hd : entityChar name = some d)
    (rest : List Char) :
    unescape none ('&' :: (name ++ ';' :: rest)) = (unescape none rest).map (d :: ·) := by
  rw [unescape, if_pos rfl, unescape_name h, List.nil_append, hd, Option.bind_some]

lemma normalizeNewlines_append {t : List Char} (h : ∀ c ∈ t, c ≠ '\r' ∧ c ≠ '\n')
    (hne : t ≠ []) (b : Bool)
    (rest : List Char) : normalizeNewlines b (t ++ rest) = t ++ normalizeNewlines false rest := by
  induction t generalizing b with
  | nil => exact absurd rfl hne
  | cons c t ih =>
    have hc := h c List.mem_cons_self
    rw [List.cons_append, normalizeNewlines, if_neg hc.1, if_neg (fun hn => hc.2 hn.1),
      List.cons_append]
    cases t with
    | nil => rfl
    | cons d t => rw [ih (fun e he => h e (List.mem_cons_of_mem c he)) (List.cons_ne_nil d t)]

lemma unescape_escape_cons {c : Char} {name : List Char}
    (hn : ∀ d ∈ '&' :: name ++ [';'], d ≠ '\r' ∧ d ≠ '\n')
    (hs : ';' ∉ name) (hc : entityChar name = some c) (b : Bool) (rest : List Char) :
    unescape none (normalizeNewlines b ('&' :: name ++ [';'] ++ rest)) =
      (unescape none (normalizeNewlines false rest)).map (c :: ·) := by
  have ha : '&' :: name ++ [';'] ++ normalizeNewlines false rest =
      '&' :: (name ++ ';' :: normalizeNewlines false rest) := by simp
  rw [normalizeNewlines_append hn (by simp), ha, unescape_reference hs hc]

lemma unescape_escape {t : List Char} (h : XmlText t) (b : Bool) :
    unescape none (normalizeNewlines b (escape t)) = some (normalizeNewlines b t) := by
  induction t generalizing b with
  | nil => rfl
  | cons c t ih =>
    have ht : ∀ b, unescape none (normalizeNewlines b (escape t)) = some (normalizeNewlines b t) :=
      fun b => ih (fun d hd => h d (List.mem_cons_of_mem c hd)) b
    have hc := h c List.mem_cons_self
    have hentity : ∀ name :
        List Char, (∀ d ∈ '&' :: name ++ [';'], d ≠ '\r' ∧ d ≠ '\n') → ';' ∉ name →
        entityChar name = some c →
        unescape none (normalizeNewlines b ('&' :: name ++ [';'] ++ escape t)) =
          some (c :: normalizeNewlines false t) := by
      intro name hn hs he
      rw [unescape_escape_cons hn hs he, ht, Option.map_some]
    rw [escape, List.flatMap_cons, ← escape, escapeChar]
    split_ifs with h1 h2 h3
    · subst h1
      exact hentity "amp".toList (by decide) (by decide) (by decide)
    · subst h2
      exact hentity "lt".toList (by decide) (by decide) (by decide)
    · subst h3
      exact hentity "gt".toList (by decide) (by decide) (by decide)
    · rw [List.singleton_append, normalizeNewlines, normalizeNewlines]
      split_ifs with hr hn
      · rw [unescape, if_neg (by decide), if_pos (by decide), ht, Option.map_some]
      · exact ht false
      · rw [unescape, if_neg h1, if_pos hc, ht, Option.map_some]

lemma decodeChars_escape {t : List Char} (h : XmlText t) :
    decodeChars (escape t) = some (normalizeNewlines false t) := by
  rw [decodeChars, if_neg, unescape_escape h]
  intro hi
  exact (noAngle_escape t '>' (hi.subset (by decide))).2 rfl

lemma charsNode_savedText {t : List Char} (h : XmlText t) (depth : ℕ) :
    (charsNode (savedText depth t)).isSome = true := by
  have hb : (lineBreak false depth).all isXmlSpace = true := by
    simp [lineBreak, isXmlSpace]
  unfold savedText
  split_ifs
  · rw [charsNode_space hb]
    rfl
  · unfold charsNode
    split_ifs
    · rfl
    · rw [decodeChars_escape h]
      rfl

end DriveIntegrity
