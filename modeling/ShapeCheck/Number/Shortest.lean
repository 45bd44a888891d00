import ShapeCheck.Number.Double

/-
  The text of a binary floating-point number: the fewest decimal digits that read back to it, of
  these the nearest to its exact value, a tie going to the even digit. Numbers from 10^-4 up to
  10^16 are written positionally, with at least one digit after the point.
-/

namespace ShapeCheck.Double

/-- Compares `a * 10^i` with `n * 2^j`. -/
def compareScaled (a : Nat) (i : Int) (n : Nat) (j : Int) : Ordering :=
  compare (a * pow10 i.toNat * pow2 (-j).toNat) (n * pow2 j.toNat * pow10 (-i).toNat)

/-- Whether `d * 10^k` lies among the reals that round to `m * 2^e`. They reach halfway to either
neighbour, and the lower neighbour of a power of two is half as far away as the upper one. -/
def readsBack (m : Nat) (e : Int) (d : Nat) (k : Int) : Bool :=
  let low := if m = pow2 52 ∧ -1074 < e then 4 * m - 1 else 4 * m - 2
  let high := 4 * m + 2
  let l := compareScaled d k low (e - 2)
  let h := compareScaled d k high (e - 2)
  let ends := m % 2 == 0
  (l == .gt || (ends && l == .eq)) && (h == .lt || (ends && h == .eq))

/-- The whole number of grid units `10^k` in `m * 2^e`. -/
def unitsBelow (m : Nat) (e k : Int) : Nat :=
  (m * pow2 e.toNat * pow10 (-k).toNat) / (pow2 (-e).toNat * pow10 k.toNat)

/-- A multiple of `10^k` that reads back to `m * 2^e`, the nearest if there are two. -/
def onGrid? (m : Nat) (e k : Int) : Option Nat :=
  let d := unitsBelow m e k
  match readsBack m e d k, readsBack m e (d + 1) k with
  | false, false => none
  | true, false => some d
  | false, true => some (d + 1)
  | true, true =>
    -- twice the value against the sum of the two candidates
    match compareScaled (2 * d + 1) k (2 * m) e with
    | .gt => some d
    | .lt => some (d + 1)
    | .eq => some (if d % 2 = 0 then d else d + 1)

/-- The place of the leading digit: the least `p` with `m * 2^e < 10^p`. -/
def leadingPlace (m : Nat) (e : Int) : Int :=
  let guess := ((Nat.log2 m : Int) + e) * 30103 / 100000
  if compareScaled 1 guess m e == .gt then guess
  else if compareScaled 1 (guess + 1) m e == .gt then guess + 1
  else guess + 2

/-- The digits and the power of ten of the shortest decimal that reads back to `m * 2^e`. -/
def shortest (m : Nat) (e : Int) : Nat × Int :=
  let p := leadingPlace m e
  ((List.range 17).findSome? fun (n : Nat) =>
    let k : Int := p - (n + 1)
    (onGrid? m e k).map (·, k)).getD (m * pow2 e.toNat * pow5 (-e).toNat, min e 0)

/-- How a number with these digits, of which the first stands at place `p`, is written. -/
def layOut (digits : List Char) (p : Int) : String :=
  let shift := p - 1
  if -4 ≤ shift ∧ shift < 16 then
    let text := Decimal.placePoint digits p
    String.ofList (if (digits.length : Int) ≤ p then text ++ ['.', '0'] else text)
  else
    let head := match digits with
      | [] => []
      | [d] => [d]
      | d :: ds => d :: '.' :: ds
    let width := toString shift.natAbs
    String.ofList head ++ "e" ++ (if 0 ≤ shift then "+" else "-") ++
      (if width.length < 2 then "0" ++ width else width)

/-- Digits without the zeros at their end. -/
def trimZeros (digits : List Char) : List Char :=
  (digits.reverse.dropWhile (· == '0')).reverse

def toText : Double → String
  | nan => "nan"
  | infinite negative => Decimal.signText negative ++ "inf"
  | finite negative 0 _ => Decimal.signText negative ++ "0.0"
  | finite negative m e =>
    let (d, k) := shortest m e
    let digits := (toString d).toList
    Decimal.signText negative ++ layOut (trimZeros digits) (k + digits.length)

end ShapeCheck.Double
