import DriveIntegrity.Library.Markers
import DriveIntegrity.Integrity.Culture

/-! The layout of `Drive_Status.xml`: sections of leaf elements, one leaf to a line. -/

namespace DriveIntegrity.Status

open Integrity (Text)

/-- A leaf element with its character data as it stands in the file. -/
structure Leaf where
  tag : Text
  raw : Text
  name : isXmlName tag = true
  clean : NoAngle raw

structure Section where
  tag : Text
  leaves : List Leaf
  name : isXmlName tag = true

lemma noAngle_savedText (value : Text) : NoAngle (savedText 2 value) := by
  unfold savedText
  split_ifs
  · decide
  · exact noAngle_escape value

def rootName : Text := "DriveBabySitter".toList

lemma rootName_valid : isXmlName rootName = true := by decide

def leafLine (tag value : Text) : Text :=
  "    ".toList ++ marker tag ++ value ++ marker ('/' :: tag) ++ ['\n']

def Leaf.render (l : Leaf) : Text := leafLine l.tag l.raw

def Section.body (s : Section) : Text := '\n' :: s.leaves.flatMap Leaf.render ++ "  ".toList

def Section.block (s : Section) : Text := marker s.tag ++ s.body ++ marker ('/' :: s.tag)

def Section.render (s : Section) : Text := "  ".toList ++ s.block ++ ['\n']

def renderStatus (sections : List Section) (tail : Text) : Text :=
  marker rootName ++ '\n' :: sections.flatMap Section.render ++ marker ('/' :: rootName) ++ tail

section Names

def Section.names (s : Section) : List Text := s.tag :: s.leaves.map Leaf.tag

/-- Neither the tag nor its end tag begins in the text. -/
def Clear (tag t : Text) : Prop := Avoids tag t ∧ Avoids ('/' :: tag) t

variable {tag : Text}

lemma noAngle_slash {t : Text} (h : NoAngle t) : NoAngle ('/' :: t) := by
  intro c hc
  rcases List.mem_cons.mp hc with rfl | hc
  · decide
  · exact h c hc

lemma isXmlName_ne_slash {t : Text} (h : isXmlName tag = true) : tag ≠ '/' :: t := by
  rintro rfl
  rw [isXmlName, Bool.and_eq_true] at h
  exact absurd h.1 (by decide)

lemma Clear.append {s t : Text} (hs : Clear tag s) (ht : Clear tag t) : Clear tag (s ++ t) :=
  ⟨hs.1.append ht.1, hs.2.append ht.2⟩

lemma clear_noAngle {t : Text} (h : NoAngle t) : Clear tag t := ⟨h.avoids, h.avoids⟩

lemma clear_flatMap {α : Type} {f : α → Text} {l : List α} (h : ∀ a ∈ l, Clear tag (f a)) :
    Clear tag (l.flatMap f) :=
  ⟨avoids_flatMap (fun a ha => (h a ha).1), avoids_flatMap (fun a ha => (h a ha).2)⟩

lemma clear_marker {name : Text} (ht : isXmlName tag = true) (hn : isXmlName name = true)
    (h : tag ≠ name) :
    Clear tag (marker name) :=
  ⟨avoids_marker (noAngle_of_isXmlName ht) (noAngle_of_isXmlName hn) h,
    avoids_marker (noAngle_slash (noAngle_of_isXmlName ht)) (noAngle_of_isXmlName hn)
      (isXmlName_ne_slash hn).symm⟩

lemma clear_endMarker {name : Text} (ht : isXmlName tag = true) (hn : isXmlName name = true)
    (h : tag ≠ name) :
    Clear tag (marker ('/' :: name)) := by
  have hname := noAngle_slash (noAngle_of_isXmlName hn)
  refine ⟨avoids_marker (noAngle_of_isXmlName ht) hname (isXmlName_ne_slash ht),
    avoids_marker (noAngle_slash (noAngle_of_isXmlName ht)) hname ?_⟩
  rw [ne_eq, List.cons.injEq]
  exact fun he => h he.2

lemma Leaf.clear (l : Leaf) (ht : isXmlName tag = true) (h : tag ≠ l.tag) : Clear tag l.render :=
  ((((clear_noAngle (by decide)).append (clear_marker ht l.name h)).append
    (clear_noAngle l.clean)).append
    (clear_endMarker ht l.name h)).append (clear_noAngle (by decide))

lemma Section.body_clear (s : Section) (ht : isXmlName tag = true)
    (h : tag ∉ s.leaves.map Leaf.tag) :
    Clear tag s.body := by
  have hl : ∀ l ∈ s.leaves, Clear tag l.render := by
    intro l hl
    apply l.clear ht
    rintro rfl
    exact h (List.mem_map_of_mem hl)
  exact ((clear_noAngle (t := ['\n']) (by decide)).append (clear_flatMap hl)).append
    (clear_noAngle (by decide))

lemma Section.clear (s : Section) (ht : isXmlName tag = true) (h : tag ∉ s.names) :
    Clear tag s.render := by
  rw [Section.names, List.mem_cons, not_or] at h
  exact ((clear_noAngle (by decide)).append
    (((clear_marker ht s.name h.1).append (s.body_clear ht h.2)).append
    (clear_endMarker ht s.name h.1))).append (clear_noAngle (by decide))

end Names

end DriveIntegrity.Status
