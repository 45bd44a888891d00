import ShapeCheck.Number.Power
import ShapeCheck.Text.DecimalDigit

/-
  Decimal numbers as they are written: a sign, a coefficient and a power of ten, which keeps
  trailing zeros. What is no number has a sign too, may carry a number as its mark, and may be one
  that no operation takes silently. `ofText?` reads a numeral and `toText` writes one, positionally
  unless the power of ten is positive or the number starts more than six places after the point.
-/

namespace ShapeCheck

inductive Decimal where
  /-- no number; a `signaling` one is refused even where it is only compared or used as a key -/
  | nan (negative signaling : Bool) (mark : Nat)
  | infinite (negative : Bool)
  /-- the coefficient times ten to the exponent -/
  | finite (negative : Bool) (coefficient : Nat) (exponent : Int)
deriving DecidableEq, Repr

namespace Decimal

/-- The number written by ASCII digits. -/
def digitsValue (ds : List Char) : Nat :=
  ds.foldl (fun n c => 10 * n + (c.toNat - '0'.toNat)) 0

/-- Splits a sign off; without one the number is not negative. -/
def splitSign : List Char → Bool × List Char
  | '-' :: s => (true, s)
  | '+' :: s => (false, s)
  | s => (false, s)

/-- The exponent part of a numeral, which may be absent. -/
def readExponent? : List Char → Option Int
  | [] => some 0
  | e :: s =>
    let (negative, ds) := splitSign s
    if e ≠ 'e' ∧ e ≠ 'E' then none
    else if ds.isEmpty ∨ !ds.all Char.isDigit then none
    else some (if negative then -(digitsValue ds : Int) else digitsValue ds)

/-- A numeral without its sign: digits, of which some may stand after a point, and an exponent. -/
def readUnsigned? (negative : Bool) (s : List Char) : Option Decimal :=
  let whole := s.takeWhile Char.isDigit
  let rest := s.dropWhile Char.isDigit
  let (places, rest) := match rest with
    | '.' :: r => (r.takeWhile Char.isDigit, r.dropWhile Char.isDigit)
    | _ => ([], rest)
  if whole.isEmpty ∧ places.isEmpty then none
  else (readExponent? rest).map fun e =>
    .finite negative (digitsValue (whole ++ places)) (e - places.length)

/-- The greatest exponent that the first digit of a decimal may have. -/
def maxExponent : Int := 999999999999999999

/-- The least exponent that the last digit of a decimal may have. -/
def minExponent : Int := -1999999999999999997

/-- Whether the exponents of a decimal are within bounds. A zero counts as one digit. -/
def inBounds : Decimal → Bool
  | finite _ c e => e + (toString c).length - 1 ≤ maxExponent && minExponent ≤ e
  | _ => true

/-- The rest of a text after a word, in either letter case. -/
def afterWord? (word : List Char) (s : List Char) : Option (List Char) :=
  if (s.take word.length).map Char.toLower = word then some (s.drop word.length) else none

/-- A word for infinity or for no number, which a row of digits may mark. -/
def readWord? (negative : Bool) (s : List Char) : Option Decimal :=
  match afterWord? ['i', 'n', 'f'] s, afterWord? ['n', 'a', 'n'] s,
    afterWord? ['s', 'n', 'a', 'n'] s with
  | some rest, _, _ =>
    if rest.isEmpty ∨ rest.map Char.toLower = ['i', 'n', 'i', 't', 'y'] then
      some (.infinite negative)
    else none
  | _, some ds, _ =>
    if ds.all Char.isDigit then some (.nan negative false (digitsValue ds)) else none
  | _, _, some ds =>
    if ds.all Char.isDigit then some (.nan negative true (digitsValue ds)) else none
  | _, _, _ => none

/-- Reads a numeral with an optional sign, or one of the words for infinity and for no number.
Digits may be of any script; underscores, and blanks at the ends, count for nothing. -/
def ofText? (text : String) : Option Decimal :=
  let (negative, s) := splitSign ((Text.plainDigits (Text.strip text.toList)).filter (· != '_'))
  ((readWord? negative s).or (readUnsigned? negative s)).filter inBounds

/-- The digits with the point after the first `place` of them, zeros filling up on either side. -/
def placePoint (digits : List Char) (place : Int) : List Char :=
  if place ≤ 0 then '0' :: '.' :: List.replicate (-place).toNat '0' ++ digits
  else if digits.length ≤ place.toNat then
    digits ++ List.replicate (place.toNat - digits.length) '0'
  else digits.take place.toNat ++ '.' :: digits.drop place.toNat

def signText (negative : Bool) : String := if negative then "-" else ""

def toText : Decimal → String
  | nan negative signaling mark => signText negative ++ (if signaling then "sNaN" else "NaN") ++
      (if mark = 0 then "" else toString mark)
  | infinite negative => signText negative ++ "Infinity"
  | finite negative c e =>
    let digits := (toString c).toList
    let left := e + digits.length
    let body :=
      if e ≤ 0 ∧ -6 < left then String.ofList (placePoint digits left)
      else
        let shift := left - 1
        String.ofList (placePoint digits 1) ++
          (if shift = 0 then "" else
            "E" ++ (if 0 ≤ shift then "+" else "-") ++ toString shift.natAbs)
    signText negative ++ body

/-- The exact value of a finite number. -/
def toRat? : Decimal → Option Rat
  | finite negative c e =>
    let n : Int := if negative then -(c : Int) else c
    some (if 0 ≤ e then ((n * pow10 e.toNat : Int) : Rat) else mkRat n (pow10 (-e).toNat))
  | _ => none

def isZero : Decimal → Bool
  | finite _ c _ => c == 0
  | _ => false

end Decimal

end ShapeCheck
