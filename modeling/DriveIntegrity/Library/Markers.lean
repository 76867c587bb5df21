import DriveIntegrity.Library.Xml
import DriveIntegrity.Library.Search

/-! Searching a document for a tag. -/

namespace DriveIntegrity

def marker (tag : List Char) : List Char := '<' :: tag ++ ['>']

@[simp] lemma marker_length (tag : List Char) : (marker tag).length = tag.length + 2 := by
    simp [marker]

/-- The tag does not begin in the text, whatever follows. -/
def Avoids (tag t : List Char) : Prop :=
  ∀ rest, findText (marker tag) (t ++ rest) = (findText (marker tag) rest).map (· + t.length)

variable {tag s t : List Char}

lemma Avoids.append (hs : Avoids tag s) (ht : Avoids tag t) : Avoids tag (s ++ t) :=
  Skips.append hs ht

lemma avoids_flatMap {α : Type} {f : α → List Char} {l : List α} (h : ∀ a ∈ l, Avoids tag (f a)) :
    Avoids tag (l.flatMap f) := skips_flatMap h

lemma avoids_text (h : ∀ c ∈ t, c ≠ '<') : Avoids tag t := skips_of_notMem (fun hm => h '<' hm rfl)

lemma NoAngle.avoids (h : NoAngle t) : Avoids tag t := avoids_text (fun c hc => (h c hc).1)

lemma avoids_marker {other : List Char} (ht : NoAngle tag) (ho : NoAngle other)
    (hne : tag ≠ other) :
    Avoids tag (marker other) := by
  have hm : ∀ rest, ¬marker tag <+: marker other ++ rest := by
    intro rest h
    have ho' : '>' ∉ other := fun hm => (ho '>' hm).2 rfl
    rw [marker, marker, List.cons_append, List.cons_append, List.cons_append, List.cons_prefix_cons,
      List.append_assoc, List.singleton_append] at h
    rcases prefix_mark (fun hm => (ht '>' hm).2 rfl) h.2 with ⟨he, _⟩ | ⟨v, rfl, _⟩
    · exact hne he.symm
    · exact ho' (List.mem_append_right _ List.mem_cons_self)
  have hrest : Avoids tag (other ++ ['>']) := by
    apply avoids_text
    intro c hc
    rcases List.mem_append.mp hc with h | h
    · exact (ho c h).1
    · rw [List.mem_singleton.mp h]
      decide
  exact skips_cons hm hrest

lemma Avoids.findText_append (h : Avoids tag s) (rest : List Char) :
    findText (marker tag) (s ++ (marker tag ++ rest)) = some s.length :=
  Skips.findText_append h rest

lemma Avoids.findText_eq_none (h : Avoids tag s) : findText (marker tag) s = none :=
  Skips.findText_eq_none h (by simp [marker])

end DriveIntegrity
