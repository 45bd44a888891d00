import ShapeCheck.Number.Decimal

/-
  Binary floating-point numbers of 64 bits, as a sign, a mantissa below 2^53 and a power of two.
  A quotient of naturals is rounded to the nearest such number, a tie going to the even mantissa;
  decimals, sums and products are rounded in this way.
-/

namespace ShapeCheck

/-- A finite number is the mantissa times two to the exponent. The exponent is at least -1074, and
greater only if the mantissa is at least 2^52, so every number has one form. -/
inductive Double where
  | nan
  | infinite (negative : Bool)
  | finite (negative : Bool) (mantissa : Nat) (exponent : Int)
deriving DecidableEq, Repr

namespace Double

/-- Numerator and denominator of `num / den` divided by a power of two. -/
def scale (num den : Nat) (e : Int) : Nat × Nat :=
  (num * pow2 (-e).toNat, den * pow2 e.toNat)

/-- The exponent with which `num / den` has 53 binary digits before the point, or the least
exponent there is. -/
def exponentOf (num den : Nat) : Int :=
  let e := (Nat.log2 num : Int) - Nat.log2 den - 53
  let (n, d) := scale num den e
  max (if n / d < pow2 53 then e else e + 1) (-1074)

/-- The quotient rounded to an integer, a tie to the even one. -/
def roundEven (num den : Nat) : Nat :=
  let q := num / den
  let r := num % den
  if 2 * r < den ∨ (2 * r = den ∧ q % 2 = 0) then q else q + 1

/-- The number nearest to `num / den`. -/
def ofRatio (negative : Bool) (num den : Nat) : Double :=
  if num = 0 then .finite negative 0 (-1074)
  else
    let e := exponentOf num den
    let (n, d) := scale num den e
    let m := roundEven n d
    let (m, e) := if m = pow2 53 then (pow2 52, e + 1) else (m, e)
    if 971 < e then .infinite negative else .finite negative m e

/-- The number nearest to a decimal. A decimal beyond the range by many places is not multiplied
out. -/
def ofDecimal : Decimal → Double
  | .nan .. => .nan
  | .infinite negative => .infinite negative
  | .finite negative c e =>
    let left := e + (toString c).length
    if c = 0 ∨ left < -400 then .finite negative 0 (-1074)
    else if 400 < left then .infinite negative
    else if 0 ≤ e then ofRatio negative (c * pow10 e.toNat) 1
    else ofRatio negative c (pow10 (-e).toNat)

/-- Reads a numeral with an optional sign, or one of the words for infinity and for no number.
Blanks at the ends and underscores between digits count for nothing, and digits may be of any
script. -/
def ofText? (text : String) : Option Double := do
  let (negative, s) := Decimal.splitSign (← Text.joined? (Text.plainDigits text.toList))
  let word := s.map Char.toLower
  if word = ['i', 'n', 'f'] ∨ word = ['i', 'n', 'f', 'i', 'n', 'i', 't', 'y'] then
    some (.infinite negative)
  else if word = ['n', 'a', 'n'] then some .nan
  else (Decimal.readUnsigned? negative s).map ofDecimal

/-- The exact value of a finite number. -/
def toRat? : Double → Option Rat
  | finite negative m e =>
    let n : Int := if negative then -(m : Int) else m
    some (if 0 ≤ e then ((n * pow2 e.toNat : Int) : Rat) else mkRat n (pow2 (-e).toNat))
  | _ => none

/-- Whether the number is finite and has no part after the point. -/
def isIntegral : Double → Bool
  | finite _ m e => 0 ≤ e || m % pow2 (-e).toNat == 0
  | _ => false

def isZero : Double → Bool
  | finite _ m _ => m == 0
  | _ => false

/-! ## Arithmetic

Sums and products are exact and then rounded once. -/

def neg : Double → Double
  | nan => nan
  | infinite negative => infinite !negative
  | finite negative m e => finite (!negative) m e

/-- The number nearest to `n * 2^e`. -/
def ofScaled (negative : Bool) (n : Nat) (e : Int) : Double :=
  ofRatio negative (n * pow2 e.toNat) (pow2 (-e).toNat)

def mul : Double → Double → Double
  | finite a m e, finite b n f => ofScaled (a != b) (m * n) (e + f)
  | nan, _ => nan
  | _, nan => nan
  | infinite a, infinite b => infinite (a != b)
  | infinite a, finite b n _ => if n = 0 then nan else infinite (a != b)
  | finite a m _, infinite b => if m = 0 then nan else infinite (a != b)

/-- The sum of two numbers. A sum of zero is negative only if both of them are. -/
def add : Double → Double → Double
  | finite a m e, finite b n f =>
    let g := min e f
    let part (negative : Bool) (n : Nat) (e : Int) : Int :=
      let size : Int := n * pow2 (e - g).toNat
      if negative then -size else size
    let sum := part a m e + part b n f
    if sum = 0 then finite (a && b) 0 (-1074) else ofScaled (sum < 0) sum.natAbs g
  | nan, _ => nan
  | _, nan => nan
  | infinite a, infinite b => if a = b then infinite a else nan
  | infinite a, finite .. => infinite a
  | finite .., infinite b => infinite b

end Double

end ShapeCheck
