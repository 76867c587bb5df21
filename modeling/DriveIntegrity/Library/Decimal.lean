import DriveIntegrity.Library.Chars
import Mathlib.Tactic

/-! Decimal numerals as lists of characters. -/

namespace DriveIntegrity

def decimal (n : ℕ) : List Char := Nat.toDigits 10 n

def parseDecimal (t : List Char) : Option ℕ :=
  if t ≠ [] ∧ t.all Char.isDigit then some (Nat.ofDigitChars 10 t 0) else none

lemma isDigit_of_mem_decimal {n : ℕ} {c : Char} (h : c ∈ decimal n) : c.isDigit = true :=
  Nat.isDigit_of_mem_toDigits (by norm_num) (by norm_num) h

lemma decimal_ne_nil (n : ℕ) : decimal n ≠ [] := Nat.toDigits_ne_nil

@[simp] lemma parseDecimal_decimal (n : ℕ) : parseDecimal (decimal n) = some n := by
  rw [parseDecimal, if_pos]
  · rw [decimal, Nat.ofDigitChars_toDigits (by norm_num) (by norm_num)]
  · exact ⟨decimal_ne_nil n, List.all_eq_true.mpr (fun _ h => isDigit_of_mem_decimal h)⟩

lemma decimal_injective : Function.Injective decimal := by
  intro m n h
  have hp := congrArg parseDecimal h
  rwa [parseDecimal_decimal, parseDecimal_decimal, Option.some.injEq] at hp

end DriveIntegrity
