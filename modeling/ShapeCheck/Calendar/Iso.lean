import ShapeCheck.Calendar.Basic
import ShapeCheck.Number.Power

/-
  Reading ISO dates and times, over the bytes of the text. A text starts with a calendar or week
  date, with or without dashes; one character of any kind then separates it from the time. The
  time may be cut off after any of its fields, may leave its colons out, and may be followed by an
  offset, which a sign introduces and a Z ends at zero. A byte that follows the time directly before
  an offset is ignored. A text of another form fails as unreadable; one whose date, time or offset
  does not exist fails as out of range.
-/

namespace ShapeCheck.Calendar.Iso

abbrev Byte := UInt8

/-- The byte of an ASCII character. -/
def byte (c : Char) : Byte := c.toNat.toUInt8

def isDigit (b : Byte) : Bool := byte '0' ≤ b && b ≤ byte '9'

/-- The number that a row of digit bytes writes, or nothing if one is no digit. -/
def number? (bs : List Byte) : Option Nat :=
  if bs.all isDigit then some (bs.foldl (fun n b => 10 * n + (b.toNat - 48)) 0) else none

/-- What was made of a text that has the right form; else it cannot be read. -/
def formed {α : Type} (o : Option α) : Except Misuse α := o.elim (.error .unreadable) .ok

/-- What numbers stand for; else they are out of range. -/
def inRange {α : Type} (o : Option α) : Except Misuse α := o.elim (.error .outOfRange) .ok

/-! ## The date -/

/-- The number of bytes that the date takes of a text, decided by its first bytes. -/
def dateLength? (bs : List Byte) : Option Nat :=
  let n := bs.length
  let at' (i : Nat) : Byte := bs.getD i 0
  if n < 7 then none
  else if n = 7 then some 7
  else if at' 4 = byte '-' then
    if at' 5 = byte 'W' then
      if 8 < n ∧ at' 8 = byte '-' then
        if n = 9 then none
        -- a digit two places on belongs to an hour, and the dash separates date and time
        else if 10 < n ∧ isDigit (at' 10) then some 8
        else some 10
      else some 8
    else some 10
  else if at' 4 = byte 'W' then
    let stop := 7 + ((bs.drop 7).takeWhile isDigit).length
    if stop < 9 then some stop else if stop % 2 = 0 then some 7 else some 8
  else some 8

/-- A date that exists. -/
def calendarDate (year month day : List Byte) : Except Misuse Date := do
  let d : Date := ⟨← formed (number? year), ← formed (number? month), ← formed (number? day)⟩
  inRange (if d.Valid then some d else none)

/-- The date of a day of a week. -/
def weekDate (year week day : List Byte) : Except Misuse Date := do
  let y ← formed (number? year)
  let w ← formed (number? week)
  inRange (Date.ofWeek? y w (← formed (number? day)))

/-- Reads a date: a calendar date or a week date, with or without dashes, a week date with its day
or for its Monday. -/
def date : List Byte → Except Misuse Date
  | [y1, y2, y3, y4, a, w1, w2] =>
    if a = byte 'W' then weekDate [y1, y2, y3, y4] [w1, w2] [byte '1']
    else .error .unreadable
  | [y1, y2, y3, y4, a, b, c, d] =>
    if a = byte 'W' then weekDate [y1, y2, y3, y4] [b, c] [d]
    else if a = byte '-' then
      if b = byte 'W' then weekDate [y1, y2, y3, y4] [c, d] [byte '1']
      else .error .unreadable
    else calendarDate [y1, y2, y3, y4] [a, b] [c, d]
  | [y1, y2, y3, y4, a, b, c, d, e, f] =>
    if a = byte '-' then
      if b = byte 'W' then
        if e = byte '-' then weekDate [y1, y2, y3, y4] [c, d] [f]
        else .error .unreadable
      else if d = byte '-' then calendarDate [y1, y2, y3, y4] [b, c] [e, f]
      else .error .unreadable
    else .error .unreadable
  | _ => .error .unreadable

/-! ## The time -/

/-- What was read of a clock time, and whether a byte was left over after it. -/
structure Reading where
  clock : Clock
  leftOver : Bool

/-- The fraction of a second in up to six digits; further digits are dropped. -/
def fraction? (bs : List Byte) (stop : Byte) : Option (Nat × Bool) := do
  let k := min 6 bs.length
  let n ← number? (bs.take k)
  let after := ((bs.drop k).dropWhile isDigit).headD stop
  some (n * pow10 (6 - k), after != 0)

/-- What follows a field of two digits. -/
inductive Next where
  /-- the time ends here -/
  | done (leftOver : Bool)
  /-- the bytes of the next field -/
  | field (rest : List Byte)
  /-- the bytes of the fraction -/
  | fraction (rest : List Byte)

/-- Decides what follows a field: `bs` are the bytes after it, `stop` is the byte behind them, and
`colon` tells whether fields are separated by colons. -/
def next? (bs : List Byte) (stop : Byte) (colon : Bool) : Option Next :=
  match bs with
  | [] => some (.done (stop != 0))
  | [b] => some (.done (b != 0))
  | b :: rest =>
    if colon ∧ b = byte ':' then some (.field rest)
    else if b = byte '.' ∨ b = byte ',' then some (.fraction rest)
    else if colon then none
    else some (.field bs)

/-- Two digits and what is left. -/
def twoDigits? : List Byte → Option (Nat × List Byte)
  | a :: b :: rest => (number? [a, b]).map (·, rest)
  | _ => none

/-- Ends a clock reading with the fraction of its last second. -/
def withFraction? (t : Clock) (bs : List Byte) (stop : Byte) : Option Reading :=
  (fraction? bs stop).map fun (n, leftOver) => ⟨{ t with micro := n }, leftOver⟩

/-- Reads a clock time from `bs`; `stop` is the byte behind them, zero at the end of the text. The
first separator decides whether the fields are separated by colons. -/
def clock? (bs : List Byte) (stop : Byte) : Option Reading := do
  let (hour, bs) ← twoDigits? bs
  let colon := bs.headD stop = byte ':'
  match ← next? bs stop colon with
  | .done leftOver => some ⟨{ hour }, leftOver⟩
  | .fraction bs => withFraction? { hour } bs stop
  | .field bs =>
    let (minute, bs) ← twoDigits? bs
    match ← next? bs stop colon with
    | .done leftOver => some ⟨{ hour, minute }, leftOver⟩
    | .fraction bs => withFraction? { hour, minute } bs stop
    | .field bs =>
      let (second, bs) ← twoDigits? bs
      match ← next? bs stop colon with
      | .done leftOver => some ⟨{ hour, minute, second }, leftOver⟩
      | .fraction bs => withFraction? { hour, minute, second } bs stop
      | .field bs => withFraction? { hour, minute, second } bs stop

/-- The offset that a sign and a clock reading give. An offset without hours, minutes and seconds
is zero whatever its fraction. -/
def offset (negative : Bool) (t : Clock) : Except Misuse Int :=
  if t.hour = 0 ∧ t.minute = 0 ∧ t.second = 0 then .ok 0
  else if t.micros < dayMicros then .ok (if negative then -(t.micros : Int) else t.micros)
  else .error .outOfRange

/-- Whether a byte introduces an offset. -/
def isSign (b : Byte) : Bool := b == byte '+' || b == byte '-' || b == byte 'Z'

/-- The offset that a byte introduces, read from the bytes after it. A Z has nothing after it. -/
def offsetAfter (sign : Byte) (rest : List Byte) : Except Misuse Int :=
  if sign = byte 'Z' then
    if rest.headD 0 = 0 then .ok 0 else .error .unreadable
  else do
    let o ← formed (clock? rest 0)
    let n ← offset (sign == byte '-') o.clock
    if o.leftOver then .error .unreadable else .ok n

/-- A time of day that exists. -/
def existing (t : Clock) (offset : Option Int) : Except Misuse Time :=
  inRange (if t.Valid then some ⟨t, offset⟩ else none)

/-- Reads the time part of a text. -/
def time (bs : List Byte) : Except Misuse Time :=
  match bs.dropWhile (!isSign ·) with
  | [] => do
    let r ← formed (clock? bs 0)
    if r.leftOver then .error .unreadable else existing r.clock none
  | sign :: rest => do
    let r ← formed (clock? (bs.takeWhile (!isSign ·)) sign)
    let n ← offsetAfter sign rest
    existing r.clock (some n)

/-- Reads a time that stands alone; a T may introduce it. -/
def clockTime (bs : List Byte) : Except Misuse Time :=
  time (if bs.headD 0 = byte 'T' then bs.drop 1 else bs)

/-- The number of bytes of the character that starts with a byte. -/
def charLength (b : Byte) : Nat :=
  if b < 0x80 then 1 else if b < 0xE0 then 2 else if b < 0xF0 then 3 else 4

/-- Reads a moment; a date alone stands for its midnight. -/
def moment (bs : List Byte) : Except Misuse Moment := do
  let n ← formed (dateLength? bs)
  let d ← date (bs.take n)
  match bs.drop n with
  | [] => .ok { date := d }
  | b :: rest =>
    let t ← time (rest.drop (charLength b - 1))
    .ok ⟨d, t.clock, t.offset⟩

end ShapeCheck.Calendar.Iso
