import ShapeCheck.Text.Pattern

/-
  Mail addresses: a local part, an at sign, and at least two labels with dots between them. A label
  has up to 63 letters, digits and hyphens and neither starts nor ends with a hyphen.
-/

namespace ShapeCheck.Email

open ShapeCheck.Text

def isAlnum (c : Char) : Bool := c.isAlpha || c.isDigit

/-- The marks of a local part. -/
def localMarks : List Char := ".!#$%&'*+/=?^_\x60\x7b|\x7d~-".toList

def isLocal (c : Char) : Bool := isAlnum c || localMarks.contains c

/-- A letter or digit; between a first and a last one up to 61 more may stand, or hyphens. -/
def label : Pattern :=
  .seq (.one isAlnum)
    (.opt (.seq (.upTo 61 (.one fun c => isAlnum c || c == '-')) (.one isAlnum)))

def address : Pattern :=
  .inTurn [.many1 (.one isLocal), .char '@', label, .many1 (.seq (.char '.') label)]

/-- Whether the whole text is a mail address. -/
def isEmail (s : String) : Bool := address.accepts s.toList

end ShapeCheck.Email
