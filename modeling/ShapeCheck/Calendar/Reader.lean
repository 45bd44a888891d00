import ShapeCheck.Calendar.Iso
import ShapeCheck.Calendar.Layout

/-
  Reading a moment from free text: the blanks at its ends are dropped, then the layouts are tried
  in order, and the ISO forms last, where a capital Z stands for the offset zero. A text that one of
  them refuses by a failure of the kind of values is left to the next; any other failure would end
  the reading.
-/

namespace ShapeCheck.Calendar

open ShapeCheck.Text

/-- The text with each capital Z written as an offset. -/
def spellOutZulu (s : List Char) : List Char :=
  s.flatMap fun c => if c = 'Z' then "+00:00".toList else [c]

def isoMoment (s : List Char) : Except Misuse Moment :=
  Iso.moment (String.ofList (spellOutZulu s)).toUTF8.toList

/-- What the ISO forms read, whatever their failure is otherwise. -/
def isoMoment? (s : List Char) : Option Moment := (isoMoment s).toOption

/-- The ways to read a text in the order in which they are tried. -/
def readers : List (List Char → Except Misuse Moment) := Layout.all.map Layout.read ++ [isoMoment]

/-- What the first of some ways reads that does not refuse the text. -/
def readFirst (s : List Char) : List (List Char → Except Misuse Moment) →
    Except Misuse (Option Moment)
  | [] => .ok none
  | read :: others =>
    match read s with
    | .ok m => .ok (some m)
    | .error e => if e.kind = .value then readFirst s others else .error e

def readMoment (text : String) : Except Misuse (Option Moment) :=
  let s := strip text.toList
  if s.isEmpty then .ok none else readFirst s readers

/-- The moment that a text writes. -/
def readMoment? (text : String) : Option Moment := (readMoment text).toOption.join

end ShapeCheck.Calendar
