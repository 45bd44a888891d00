import ShapeCheck.Calendar.Basic
import ShapeCheck.Number.Power
import ShapeCheck.Text.Blank
import ShapeCheck.Text.DecimalDigit
import ShapeCheck.Text.Pattern

/-
  Date layouts: rows of fields, marks and blanks. A layout reads a text if its pieces can take the
  whole of it in their preferred way, and if the date and the time exist. Fields take digits of any
  script, except where a class of ASCII digits is named. A text of another form fails as unreadable,
  and numbers that are no moment fail as that (`Moment.checked`).
-/

namespace ShapeCheck.Calendar

open ShapeCheck.Text

inductive Piece where
  /-- four digits -/
  | year
  /-- one or two digits, up to 12 -/
  | month
  /-- one or two digits, up to 31; a blank may stand before one digit -/
  | day
  /-- one or two digits, up to 23 -/
  | hour
  /-- one or two digits, up to 59 -/
  | minute
  /-- one or two digits, up to 61 -/
  | second
  /-- one to six ASCII digits -/
  | fraction
  /-- one or more blank characters -/
  | blanks
  /-- a character in either letter case -/
  | mark (c : Char)
deriving DecidableEq, Repr

namespace Piece

/-- One digit of any script. -/
def digit : Pattern := .one isDecimalDigit

/-- One of the characters from `a` to `b`. -/
def range (a b : Char) : Pattern := .one fun c => a ≤ c && c ≤ b

def pair (a b : Pattern) : Pattern := .seq a b

def pattern : Piece → Pattern
  | year => .exactly 4 digit
  | month => .oneOf [pair (.char '1') (range '0' '2'), pair (.char '0') (range '1' '9'),
      range '1' '9']
  | day => .oneOf [pair (.char '3') (range '0' '1'), pair (range '1' '2') digit,
      pair (.char '0') (range '1' '9'), range '1' '9', pair (.char ' ') (range '1' '9')]
  | hour => .oneOf [pair (.char '2') (range '0' '3'), pair (range '0' '1') digit, digit]
  | minute => .oneOf [pair (range '0' '5') digit, digit]
  | second => .oneOf [pair (.char '6') (range '0' '1'), pair (range '0' '5') digit, digit]
  | fraction => .between 1 5 (range '0' '9')
  | blanks => .many1 (.one isBlank)
  | mark m => .one fun c => c.toLower == m.toLower

/-- Enters the text of a piece into a moment. -/
def enter (m : Moment) (text : List Char) : Piece → Moment
  | year => { m with date.year := numeral text }
  | month => { m with date.month := numeral text }
  | day => { m with date.day := numeral (text.filter (· != ' ')) }
  | hour => { m with clock.hour := numeral text }
  | minute => { m with clock.minute := numeral text }
  | second => { m with clock.second := numeral text }
  | fraction => { m with clock.micro := numeral text * pow10 (6 - text.length) }
  | _ => m

end Piece

abbrev Layout := List Piece

namespace Layout

/-- The first way, in order of preference, in which the pieces take an initial part of the text:
the moment they give and the text they leave. -/
def scan (m : Moment) : Layout → List Char → Option (Moment × List Char)
  | [], s => some (m, s)
  | p :: ps, s => (p.pattern.rests s).findSome? fun r =>
      scan (p.enter m (s.take (s.length - r.length))) ps r

/-- The moment that a whole text gives. Text left over after the preferred way is an error, even
if another way would take it. -/
def read (l : Layout) (s : List Char) : Except Misuse Moment :=
  match l.scan ⟨⟨1900, 1, 1⟩, {}, none⟩ s with
  | some (m, []) => m.checked
  | _ => .error .unreadable

/-- What a layout reads, whatever its failure is otherwise. -/
def read? (l : Layout) (s : List Char) : Option Moment := (l.read s).toOption

/-- Year, month and day with dashes. -/
def dashed : Layout := [.year, .mark '-', .month, .mark '-', .day]

/-- Month, day and year with slashes. -/
def monthFirst : Layout := [.month, .mark '/', .day, .mark '/', .year]

/-- Day, month and year with slashes. -/
def dayFirst : Layout := [.day, .mark '/', .month, .mark '/', .year]

/-- Hours, minutes and seconds with colons. -/
def clock : Layout := [.hour, .mark ':', .minute, .mark ':', .second]

/-- The layouts in the order in which they are tried. -/
def all : List Layout := [
  dashed ++ .blanks :: clock,
  dashed ++ .mark 'T' :: clock,
  dashed ++ .mark 'T' :: clock ++ [.mark 'Z'],
  dashed ++ .mark 'T' :: clock ++ [.mark '.', .fraction],
  dashed ++ .mark 'T' :: clock ++ [.mark '.', .fraction, .mark 'Z'],
  dashed,
  monthFirst,
  monthFirst ++ .blanks :: clock,
  dayFirst,
  dayFirst ++ .blanks :: clock]

end Layout

end ShapeCheck.Calendar
