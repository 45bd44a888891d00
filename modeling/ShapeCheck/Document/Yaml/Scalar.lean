import ShapeCheck.Calendar.Basic
import ShapeCheck.Document.Basic
import ShapeCheck.Document.Yaml.Tag
import ShapeCheck.Text.LowerCase
import ShapeCheck.Value.Within

/-
  The values of YAML scalars. A scalar with a tag need not have the form of its kind, so reading its
  text can fail. Integers and numbers may be of base sixty, their parts divided by colons; numbers
  are rounded after each part.
-/

namespace ShapeCheck.Yaml

open ShapeCheck.Calendar

/-! ## Integers -/

/-- The value of a digit in bases up to thirty-six. -/
def digitIn? (base : Nat) (c : Char) : Option Nat :=
  (if c.isDigit then some (c.toNat - 48)
    else if c.isAlpha then some (c.toLower.toNat - 87)
    else none).filter (· < base)

/-- Digits without the mark of their base, if they have it. -/
def dropMark (base : Nat) (ds : List Char) : List Char :=
  match ds with
  | '0' :: m :: rest =>
    if (base, m.toLower) ∈ [(2, 'b'), (8, 'o'), (16, 'x')] then rest else ds
  | _ => ds

/-- The integer that a text writes in a base. Only a base that is a power of two admits any number
of digits. -/
def integerIn (base : Nat) (text : List Char) : Except DocumentError Int := do
  let (negative, s) := Decimal.splitSign (Text.plainDigits text)
  let ds := dropMark base s
  match ds.mapM (digitIn? base) with
  | none => throw .yamlRange
  | some ns =>
    if ns.isEmpty then throw .yamlRange
    if base = 10 ∧ maxDigits < ns.length then throw .overlong
    let n := ns.foldl (fun n d => base * n + d) 0
    return if negative then -(n : Int) else n

/-- The text of a number without underscores: its sign, and what follows. -/
def splitNumber (text : String) : Except DocumentError (Bool × List Char) := do
  let s := text.toList.filter (· != '_')
  if s.isEmpty then throw .yamlEmpty
  return Decimal.splitSign s

/-- An integer without its sign. -/
def unsignedInteger (s : List Char) : Except DocumentError Int :=
  match s with
  | [] => .error .yamlEmpty
  | ['0'] => .ok 0
  | '0' :: 'b' :: ds => integerIn 2 ds
  | '0' :: 'x' :: ds => integerIn 16 ds
  | '0' :: _ => integerIn 8 s
  | _ =>
    if ':' ∈ s then do
      let parts ← (splitColons s).mapM (integerIn 10)
      return parts.foldl (fun n p => 60 * n + p) 0
    else integerIn 10 s

def integer (text : String) : Except DocumentError Int := do
  let (negative, s) ← splitNumber text
  let n ← unsignedInteger s
  return if negative then -n else n

/-! ## Numbers -/

def double (s : List Char) : Except DocumentError Double :=
  match Double.ofText? (String.ofList s) with
  | some x => .ok x
  | none => .error .yamlRange

/-- The sum of the parts of a number, the last of them first, with the weights from `weight` on. -/
def sixtieths (sum : Double) (weight : Nat) : List Double → Except DocumentError Double
  | [] => .ok sum
  | x :: xs =>
    match Double.ofRatio false weight 1 with
    | .infinite _ => .error .yamlOverflow
    | w => sixtieths (sum.add (x.mul w)) (60 * weight) xs

/-- A number without its sign. -/
def unsignedNumber (s : List Char) : Except DocumentError Double :=
  if s = ['.', 'i', 'n', 'f'] then .ok (.infinite false)
  else if s = ['.', 'n', 'a', 'n'] then .ok .nan
  else if ':' ∈ s then do
    let parts ← (splitColons s).mapM double
    sixtieths (.finite false 0 (-1074)) 1 parts.reverse
  else double s

def number (text : String) : Except DocumentError Double := do
  let (negative, s) ← splitNumber text
  if s.isEmpty then throw .yamlRange
  let x ← unsignedNumber (s.map Char.toLower)
  return if negative then x.neg else x

/-! ## Truth values, moments and bytes -/

def truth (text : String) : Except DocumentError Bool :=
  match boolWords.lookup (Text.lower text) with
  | some b => .ok b
  | none => .error .yamlWord

/-- The offset of a moment in microseconds. -/
def WrittenMoment.offset (m : WrittenMoment) : Option Int :=
  m.zone.map fun
    | none => 0
    | some (sign, hours, minutes) =>
      let n : Int := (Decimal.digitsValue hours * 60 + Decimal.digitsValue minutes : Nat)
      let micros := n * 60 * 1000000
      if sign = '-' then -micros else micros

/-- The date or the moment that the parts make, if it exists. -/
def WrittenMoment.value (m : WrittenMoment) : Except DocumentError Value :=
  let number := Decimal.digitsValue
  let date : Date := ⟨number m.year, number m.month, number m.day⟩
  match m.clock with
  | none => if date.Valid then .ok (.date date) else .error .yamlRange
  | some (hour, minute, second, places) =>
    let digits := places.take 6
    let clock : Clock := ⟨number hour, number minute, number second,
      number digits * pow10 (6 - digits.length)⟩
    if date.Valid ∧ clock.Valid ∧ (m.offset.getD 0).natAbs < dayMicros then
      .ok (.moment ⟨date, clock, m.offset⟩)
    else .error .yamlRange

def moment (text : String) : Except DocumentError Value :=
  match writtenMoment? (withoutBreak text).toList with
  | some m => m.value
  | none => .error .yamlForm

/-- The value of a character that writes six bits. -/
def sixBits? (c : Char) : Option Nat :=
  if c.isUpper then some (c.toNat - 65)
  else if c.isLower then some (c.toNat - 71)
  else if c.isDigit then some (c.toNat + 4)
  else if c = '+' then some 62
  else if c = '/' then some 63
  else none

/-- The bytes that characters of six bits each write, up to the padding that ends them. Characters
of other kinds count for nothing. `bits` of the number `left` are not used yet, and `pads` marks of
padding came directly before. -/
def bytesOf (bits left pads : Nat) : List Char → Except DocumentError (List UInt8)
  | [] => if bits = 0 then .ok [] else .error .yamlValue
  | c :: s =>
    if c = '=' then
      -- two or three characters of a group of four are there
      if (bits = 4 ∧ 1 ≤ pads) ∨ bits = 2 then .ok [] else bytesOf bits left (pads + 1) s
    else match sixBits? c with
      | none => bytesOf bits left pads s
      | some n =>
        if bits = 0 then bytesOf 6 n 0 s
        else
          let all := left * 64 + n
          let unused := bits - 2
          (bytesOf unused (all % pow2 unused) 0 s).map ((all / pow2 unused).toUInt8 :: ·)

def binary (text : String) : Except DocumentError (List UInt8) :=
  if text.toList.all (·.toNat < 128) then bytesOf 0 0 0 text.toList else .error .yamlValue

/-- The value of a scalar of a kind. Only scalars of some kinds have one. -/
def scalarValue (kind : Kind) (text : String) : Except DocumentError Value :=
  match kind with
  | .null => .ok .null
  | .bool => (truth text).map .bool
  | .int => (integer text).map .int
  | .float => (number text).map .float
  | .binary => (binary text).map .bytes
  | .moment => moment text
  | .text => .ok (.str text)
  | _ => .error .yamlValue

end ShapeCheck.Yaml
