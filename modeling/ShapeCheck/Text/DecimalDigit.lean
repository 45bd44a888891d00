import ShapeCheck.Text.Blank
import ShapeCheck.Text.Ranges

/-
  Decimal digits of all scripts (Unicode 14, general category Nd). They come in runs of ten, from
  the digit zero to the digit nine, so a table of the zeros determines both the class and the
  value of a digit.
-/

namespace ShapeCheck.Text

/-- The code points of the digits zero. -/
def digitZeros : List Nat := [
    0x30, 0x660, 0x6F0, 0x7C0, 0x966, 0x9E6, 0xA66, 0xAE6, 0xB66, 0xBE6, 0xC66, 0xCE6, 0xD66,
    0xDE6, 0xE50, 0xED0, 0xF20, 0x1040, 0x1090, 0x17E0, 0x1810, 0x1946, 0x19D0, 0x1A80, 0x1A90,
    0x1B50, 0x1BB0, 0x1C40, 0x1C50, 0xA620, 0xA8D0, 0xA900, 0xA9D0, 0xA9F0, 0xAA50, 0xABF0,
    0xFF10, 0x104A0, 0x10D30, 0x11066, 0x110F0, 0x11136, 0x111D0, 0x112F0, 0x11450, 0x114D0,
    0x11650, 0x116C0, 0x11730, 0x118E0, 0x11950, 0x11C50, 0x11D50, 0x11DA0, 0x16A60, 0x16AC0,
    0x16B50, 0x1D7CE, 0x1D7D8, 0x1D7E2, 0x1D7EC, 0x1D7F6, 0x1E140, 0x1E2F0, 0x1E950, 0x1FBF0]

/-- The value of a decimal digit of any script. -/
def digitValue? (c : Char) : Option Nat :=
  (digitZeros.find? fun z => z ≤ c.toNat && c.toNat < z + 10).map (c.toNat - ·)

/-- Whether the character is a decimal digit of some script. -/
def isDecimalDigit (c : Char) : Bool := (digitValue? c).isSome

theorem digitValue?_lt {c : Char} {d : Nat} (h : digitValue? c = some d) : d < 10 := by
  obtain ⟨z, hz, rfl⟩ := Option.map_eq_some_iff.1 h
  have := List.find?_some hz
  simp only [Bool.and_eq_true, decide_eq_true_eq] at this
  omega

/-- A text without the blanks at its ends, its digits those of ASCII. The separators among the
control characters are no blanks here. -/
def plainDigits (s : List Char) : List Char :=
  let isSpace (c : Char) : Bool := isBlank c && !('\x1c' ≤ c && c ≤ '\x1f')
  let inner := ((s.dropWhile isSpace).reverse.dropWhile isSpace).reverse
  inner.map fun c => ((digitValue? c).map Nat.digitChar).getD c

/-- A text without the underscores in it, each of which has to stand between two digits. -/
def joined? : List Char → Option (List Char)
  | [] => some []
  | '_' :: _ => none
  | a :: '_' :: b :: rest =>
    if a.isDigit ∧ b.isDigit then (joined? (b :: rest)).map (a :: ·) else none
  | c :: rest => (joined? rest).map (c :: ·)

/-- The number written by a row of digits, the first one the most significant. -/
def numeral (ds : List Char) : Nat :=
  ds.foldl (fun n c => 10 * n + (digitValue? c).getD 0) 0

end ShapeCheck.Text
