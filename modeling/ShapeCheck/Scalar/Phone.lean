import ShapeCheck.Text.Blank
import ShapeCheck.Text.DecimalDigit
import ShapeCheck.Text.Pattern

/-
  Phone numbers of ten digits in groups of three, three and four, with an optional country code in
  front and an optional extension behind. A blank, a dot or a hyphen may separate the groups.
-/

namespace ShapeCheck.Phone

open ShapeCheck.Text

def digit : Pattern := .one isDecimalDigit

def isSeparator (c : Char) : Bool := isBlank c || c == '.' || c == '-'

def separator : Pattern := .opt (.one isSeparator)

/-- A letter in either case. -/
def letter (c : Char) : Pattern := .one fun d => d.toLower == c

def country : Pattern := .inTurn [.opt (.char '+'), .between 1 2 digit, separator]

/-- Three digits, which may stand in round brackets. -/
def area : Pattern :=
  .alt (.inTurn [.char '(', .exactly 3 digit, .char ')']) (.exactly 3 digit)

/-- The word that introduces an extension, in full or as one letter. -/
def extensionWord : Pattern :=
  .alt (letter 'x') (.inTurn [letter 'e', letter 'x', letter 't', .opt (.char '.')])

def extensionPart : Pattern :=
  .inTurn [.many (.one isBlank), extensionWord, .many (.one isBlank), .between 1 4 digit]

def number : Pattern :=
  .inTurn [.opt country, area, separator, .exactly 3 digit, separator, .exactly 4 digit,
    .opt extensionPart]

/-- Whether the text without the blanks at its ends is a phone number. -/
def isPhone (s : String) : Bool := number.accepts (strip s.toList)

end ShapeCheck.Phone
