import ShapeCheck.Number.Double

/-
  Rational numbers with their powers of two and five split off. Every number has one such form, so
  two numbers are equal if their forms are, and a number with a huge power of ten is never
  multiplied out. To order two numbers their sizes are estimated first; only numbers of about one
  size are compared digit by digit.
-/

namespace ShapeCheck

/-- The number `num / den * 2^twos * 5^fives` with its sign. Neither `num` nor `den` is divisible
by two or five, and zero has the form `zero`. -/
structure Factored where
  negative : Bool
  num : Nat
  den : Nat
  twos : Int
  fives : Int
deriving DecidableEq, Repr

namespace Factored

def zero : Factored := ⟨false, 0, 1, 0, 0⟩

/-- How often a factor can be taken out of a number, at most `fuel` times, and what is left. -/
def takeOut (p : Nat) (fuel n : Nat) : Nat × Nat :=
  match fuel with
  | 0 => (0, n)
  | fuel + 1 =>
    if n % p = 0 then
      let (k, m) := takeOut p fuel (n / p)
      (k + 1, m)
    else (0, n)

/-- The powers of two and five in a positive number, and what is left. -/
def split (n : Nat) : Nat × Nat × Nat :=
  let (a, n) := takeOut 2 (Nat.log2 n + 1) n
  let (b, n) := takeOut 5 (Nat.log2 n + 1) n
  (a, b, n)

/-- The form of `num / den * 2^twos * 5^fives`; `num` and `den` have no common factor. -/
def make (negative : Bool) (num den : Nat) (twos fives : Int) : Factored :=
  if num = 0 then zero
  else
    let (a, b, n) := split num
    let (c, d, m) := split den
    ⟨negative, n, m, twos + a - c, fives + b - d⟩

def ofRat (q : Rat) : Factored := make (q.num < 0) q.num.natAbs q.den 0 0

def ofInt (n : Int) : Factored := make (n < 0) n.natAbs 1 0 0

/-- The form of a finite number; nothing else has one. -/
def ofDouble? : Double → Option Factored
  | .finite negative m e => some (make negative m 1 e 0)
  | _ => none

/-- The form of a finite number; nothing else has one. -/
def ofDecimal? : Decimal → Option Factored
  | .finite negative c e => some (make negative c 1 e e)
  | _ => none

/-- A whole number not above the binary logarithm of `5^b`. -/
def logFiveBelow (b : Int) : Int :=
  if 0 ≤ b then b * 232192 / 100000 else b * 232193 / 100000

/-- A whole number not below the binary logarithm of `5^b`. -/
def logFiveAbove (b : Int) : Int := -logFiveBelow (-b)

/-- Compares two numbers that are not zero, their signs left aside. -/
def compareSize (x y : Factored) : Ordering :=
  let n := x.num * y.den
  let d := y.num * x.den
  let a := x.twos - y.twos
  let b := x.fives - y.fives
  let logs : Int := (Nat.log2 n : Int) - Nat.log2 d + a
  if 1 < logs + logFiveBelow b then .gt
  else if logs + logFiveAbove b < -1 then .lt
  else
    compare (n * pow2 a.toNat * pow5 b.toNat) (d * pow2 (-a).toNat * pow5 (-b).toNat)

def compare (x y : Factored) : Ordering :=
  if x.num = 0 then
    if y.num = 0 then .eq else if y.negative then .gt else .lt
  else if y.num = 0 then if x.negative then .lt else .gt
  else match x.negative, y.negative with
    | false, true => .gt
    | true, false => .lt
    | false, false => compareSize x y
    | true, true => compareSize y x

end Factored

end ShapeCheck
