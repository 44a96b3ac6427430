/-
Decimal digits of every script. Unicode assigns them in blocks of ten
in ascending order, so a table of the zeros is enough: a digit's value
is its distance from the zero of its block. A numeral may mix scripts,
and it may not be longer than `digitLimit`.
-/

namespace DepLang.Text

/-- The zeros of the digit blocks above ASCII. -/
def digitZeros : List Nat :=
  [0x660, 0x6F0, 0x7C0, 0x966, 0x9E6, 0xA66, 0xAE6, 0xB66, 0xBE6, 0xC66,
   0xCE6, 0xD66, 0xDE6, 0xE50, 0xED0, 0xF20, 0x1040, 0x1090, 0x17E0, 0x1810,
   0x1946, 0x19D0, 0x1A80, 0x1A90, 0x1B50, 0x1BB0, 0x1C40, 0x1C50, 0xA620,
   0xA8D0, 0xA900, 0xA9D0, 0xA9F0, 0xAA50, 0xABF0, 0xFF10, 0x104A0, 0x10D30,
   0x11066, 0x110F0, 0x11136, 0x111D0, 0x112F0, 0x11450, 0x114D0, 0x11650,
   0x116C0, 0x11730, 0x118E0, 0x11950, 0x11C50, 0x11D50, 0x11DA0, 0x16A60,
   0x16AC0, 0x16B50, 0x1D7CE, 0x1D7D8, 0x1D7E2, 0x1D7EC, 0x1D7F6, 0x1E140,
   0x1E2F0, 0x1E950, 0x1FBF0]

/-- The value of a decimal digit. -/
def digitValue? (c : Char) : Option Nat :=
  let n := c.toNat
  if n < 0x80 then
    if 0x30 ≤ n && n ≤ 0x39 then some (n - 0x30) else none
  else
    (digitZeros.find? fun z => z ≤ n && n < z + 10).map (n - ·)

/-- Is the character a decimal digit? -/
def isDigit (c : Char) : Bool := (digitValue? c).isSome

/-- An ASCII digit has its usual value. -/
theorem digitValue?_of_isDigit {c : Char} (h : c.isDigit) :
    digitValue? c = some (c.toNat - 0x30) := by
  simp only [Char.isDigit, Bool.and_eq_true, decide_eq_true_eq,
    UInt32.le_iff_toNat_le] at h
  have low : 0x30 ≤ c.toNat := h.1
  have high : c.toNat ≤ 0x39 := h.2
  have small : c.toNat < 0x80 := by omega
  simp [digitValue?, small, low, high]

/-- Digits have values below ten. -/
theorem digitValue?_lt {c : Char} {n : Nat} (h : digitValue? c = some n) :
    n < 10 := by
  simp only [digitValue?] at h
  split at h
  · split at h <;> cases h
    next ascii =>
      simp only [Bool.and_eq_true, decide_eq_true_eq] at ascii
      omega
  · obtain ⟨z, found, rfl⟩ := Option.map_eq_some_iff.1 h
    have block := List.find?_some found
    simp only [Bool.and_eq_true, decide_eq_true_eq] at block
    omega

/-- How many digits a number can have. Longer ones are not converted. -/
def digitLimit : Nat := 4300

/-- The number that a run of digits denotes, most significant first. -/
def numeralValue (digits : List Char) : Nat :=
  digits.foldl (fun n c => 10 * n + (digitValue? c).getD 0) 0

end DepLang.Text
