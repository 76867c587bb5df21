import DriveIntegrity.Library.Decimal

/-! The .NET string and date operations the scripts rely on. -/

namespace DriveIntegrity.Integrity

abbrev Text := List Char

/-- The .NET operations that depend on the culture: lower-casing, and
`[DateTime]::Parse(..).ToUniversalTime()` in ticks of 100 ns. -/
structure Culture where
  toLower : Char → Char
  parse : Text → Option ℤ
  toLower_idem : ∀ c, toLower (toLower c) = toLower c
  toLower_slash : ∀ c, toLower c = '/' ↔ c = '/'

def Culture.lower (C : Culture) (t : Text) : Text := t.map C.toLower

section Lower

variable (C : Culture)

@[simp] lemma lower_idem (t : Text) : C.lower (C.lower t) = C.lower t := by
  simp [Culture.lower, C.toLower_idem]

@[simp] lemma lower_length (t : Text) : (C.lower t).length = t.length := List.length_map _

end Lower

def daysBeforeMonth (leap : Bool) (month : ℕ) : ℕ :=
  ([0, 31, 59, 90, 120, 151, 181, 212, 243, 273, 304, 334].getD (month - 1) 0) +
    if leap ∧ 2 < month then 1 else 0

/-- The ticks of a time stamp `yyyy-MM-ddTHH:mm:ssZ`. -/
def utcTicks (t : Text) : Option ℤ :=
  if (t.drop 4).take 1 = ['-'] ∧ (t.drop 10).take 1 = ['T'] ∧ t.drop 19 = ['Z'] then do
    let year ← parseDecimal (t.take 4)
    let month ← parseDecimal ((t.drop 5).take 2)
    let day ← parseDecimal ((t.drop 8).take 2)
    let hour ← parseDecimal ((t.drop 11).take 2)
    let minute ← parseDecimal ((t.drop 14).take 2)
    let second ← parseDecimal ((t.drop 17).take 2)
    let leap := decide (year % 4 = 0 ∧ (year % 100 ≠ 0 ∨ year % 400 = 0))
    let days := 365 * (year - 1) + (year - 1) / 4 - (year - 1) / 100 + (year - 1) / 400 +
      daysBeforeMonth leap month + (day - 1)
    some (10000000 * (86400 * days + 3600 * hour + 60 * minute + second))
  else none

lemma asciiLower_toNat (c : Char) :
    c.toLower.toNat = if 65 ≤ c.toNat ∧ c.toNat ≤ 90 then c.toNat + 32 else c.toNat := by
  have h : (c.val ≥ 'A'.val ∧ c.val ≤ 'Z'.val) ↔ 65 ≤ c.toNat ∧ c.toNat ≤ 90 := by
    simp [UInt32.le_iff_toNat_le]
  delta Char.toLower
  split_ifs with hc hn hn
  · have hv : (c.val + ('a'.val - 'A'.val)).toNat = c.val.toNat + 32 := by
      rw [UInt32.toNat_add]
      have h₁ : c.val.toNat ≤ 90 := hn.2
      have h₂ : ('a'.val - 'A'.val).toNat = 32 := by decide
      omega
    exact hv
  · exact (hn (h.mp hc)).elim
  · exact (hc (h.mpr hn)).elim
  · rfl

lemma asciiLower_idem (c : Char) : c.toLower.toLower = c.toLower := by
  apply Char.toNat_inj.mp
  rw [asciiLower_toNat c.toLower, asciiLower_toNat c]
  split_ifs <;> omega

lemma asciiLower_slash (c : Char) : c.toLower = '/' ↔ c = '/' := by
  rw [← Char.toNat_inj, ← Char.toNat_inj, asciiLower_toNat]
  have h : '/'.toNat = 47 := by decide
  split_ifs <;> omega

def plainCulture : Culture where
  toLower := Char.toLower
  parse := utcTicks
  toLower_idem := asciiLower_idem
  toLower_slash := asciiLower_slash

example : (utcTicks "2024-03-01T00:00:01Z".toList) =
    (utcTicks "2024-02-28T00:00:00Z".toList).map (fun t => t + 10000000 * (2 * 86400 + 1)) := by
  decide +kernel

end DriveIntegrity.Integrity
