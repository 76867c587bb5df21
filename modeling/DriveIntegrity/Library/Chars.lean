import Mathlib.Tactic

/-! Characters: properties of those of a text are decided on the text, not on all characters;
hexadecimal digits. -/

namespace DriveIntegrity

variable (t : List Char) (p : Char → Prop) [DecidablePred p]

instance (priority := 2000) decidableForallChar : Decidable (∀ c ∈ t, p c) := List.decidableBAll p t

instance (priority := 2000) decidableExistsChar : Decidable (∃ c ∈ t, p c) := List.decidableBEx p t

instance (priority := 2000) decidableMemTexts (texts : List (List Char)) : Decidable (t ∈ texts) :=
  inferInstance

def hexDigit (c : Char) : Option ℕ :=
  if c.isDigit then some (c.toNat - '0'.toNat)
  else if 'a' ≤ c ∧ c ≤ 'f' then some (c.toNat - 'a'.toNat + 10)
  else if 'A' ≤ c ∧ c ≤ 'F' then some (c.toNat - 'A'.toNat + 10)
  else none

end DriveIntegrity
