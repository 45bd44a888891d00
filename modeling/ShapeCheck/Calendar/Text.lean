import ShapeCheck.Calendar.Basic

/-
  The ISO text of dates, times and moments. Years have four digits, a fraction of a second has six
  digits and is left out when it is zero, and an offset shows seconds and their fraction only when
  they are not zero.
-/

namespace ShapeCheck.Calendar

/-- The last `width` decimal digits of a number. -/
def digits : (width : Nat) → Nat → List Char
  | 0, _ => []
  | w + 1, n => digits w (n / 10) ++ [Nat.digitChar (n % 10)]

def Date.isoChars (d : Date) : List Char :=
  digits 4 d.year ++ '-' :: digits 2 d.month ++ '-' :: digits 2 d.day

/-- A fraction of a second in microseconds, with its point. -/
def fractionChars (micro : Nat) : List Char :=
  if micro = 0 then [] else '.' :: digits 6 micro

def Clock.isoChars (t : Clock) : List Char :=
  digits 2 t.hour ++ ':' :: digits 2 t.minute ++ ':' :: digits 2 t.second ++ fractionChars t.micro

/-- An offset in microseconds, with its sign. -/
def offsetChars (offset : Int) : List Char :=
  let n := offset.natAbs
  let seconds := n / 1000000
  (if offset < 0 then '-' else '+') :: digits 2 (seconds / 3600) ++
    ':' :: digits 2 (seconds / 60 % 60) ++
    (if seconds % 60 = 0 ∧ n % 1000000 = 0 then []
      else ':' :: digits 2 (seconds % 60) ++ fractionChars (n % 1000000))

def Time.isoChars (t : Time) : List Char :=
  t.clock.isoChars ++ (t.offset.map offsetChars).getD []

/-- The ISO form of a moment with the given separator between date and time. -/
def Moment.isoChars (m : Moment) (separator : Char) : List Char :=
  m.date.isoChars ++ separator :: m.time.isoChars

def Date.isoText (d : Date) : String := String.ofList d.isoChars

def Time.isoText (t : Time) : String := String.ofList t.isoChars

def Moment.isoText (m : Moment) (separator : Char) : String := String.ofList (m.isoChars separator)

end ShapeCheck.Calendar
