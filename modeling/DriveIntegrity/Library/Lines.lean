import DriveIntegrity.Library.Chars
import Mathlib.Tactic

/-! Reading a text line by line: a line ends with LF, CR or CRLF. -/

namespace DriveIntegrity

/-- The lines from a point inside `current` on; `afterReturn` holds right behind a CR. -/
def readLines (current : List Char) (afterReturn : Bool) : List Char → List (List Char)
  | [] => if current = [] then [] else [current]
  | c :: rest =>
    if c = '\n' then
      if afterReturn then readLines current false rest else current :: readLines [] false rest
    else if c = '\r' then current :: readLines [] true rest
    else readLines (current ++ [c]) false rest

def textLines (t : List Char) : List (List Char) := readLines [] false t

def OneLine (line : List Char) : Prop := ∀ c ∈ line, c ≠ '\n' ∧ c ≠ '\r'

lemma readLines_append {line : List Char} (h : OneLine line) (current rest : List Char) :
    readLines current false (line ++ rest) = readLines (current ++ line) false rest := by
  induction line generalizing current with
  | nil => simp
  | cons c line ih =>
    have hc := h c List.mem_cons_self
    rw [List.cons_append, readLines, if_neg hc.1, if_neg hc.2,
      ih (fun d hd => h d (List.mem_cons_of_mem c hd)), List.append_assoc, List.singleton_append]

lemma textLines_cons {line : List Char} (h : OneLine line) (rest : List Char) :
    textLines (line ++ '\n' :: rest) = line :: textLines rest := by
  rw [textLines, readLines_append h, List.nil_append, readLines, if_pos rfl,
    if_neg (by simp), textLines]

lemma textLines_terminated {ls : List (List Char)} (h : ∀ line ∈ ls, OneLine line) :
    textLines (ls.flatMap (fun line => line ++ ['\n'])) = ls := by
  induction ls with
  | nil => rfl
  | cons line ls ih =>
    rw [List.flatMap_cons, List.append_assoc, List.singleton_append,
      textLines_cons (h line List.mem_cons_self),
      ih (fun l hl => h l (List.mem_cons_of_mem line hl))]

example : textLines "a\r\nb\n\nc".toList = ["a".toList, "b".toList, [], "c".toList] := by decide

end DriveIntegrity
