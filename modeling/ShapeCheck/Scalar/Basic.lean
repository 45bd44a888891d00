import ShapeCheck.Calendar.Reader
import ShapeCheck.Scalar.Email
import ShapeCheck.Scalar.Phone
import ShapeCheck.Value.Basic

/-
  The built-in types of fields. Each recognises its values and has a default message for all
  others, which starts with the path of the field.
-/

namespace ShapeCheck

open ShapeCheck.Calendar

inductive Scalar where
  | string
  | int
  | boolean
  | email
  | date
  | phone
deriving DecidableEq, Repr

namespace Scalar

/-- The built-in types in the order of their definition. -/
def all : List Scalar := [string, int, boolean, email, date, phone]

/-- The name by which a schema refers to the type. -/
def name : Scalar → String
  | string => "String"
  | int => "Int"
  | boolean => "Boolean"
  | email => "EmailType"
  | date => "DateType"
  | phone => "PhoneType"

/-- Whole numbers of any kind but the truth values; a decimal or a fraction is never one. -/
def isInt : Value → Bool
  | .int _ => true
  | .float x => x.isIntegral
  | _ => false

/-- Tests whether a value is of the type. Only the reading of a date could fail. -/
def run : Scalar → Value → Except Misuse Bool
  | string, .str _ => .ok true
  | int, v => .ok (isInt v)
  | boolean, .bool _ => .ok true
  | email, .str s => .ok (Email.isEmail s)
  | date, .date _ => .ok true
  | date, .moment _ => .ok true
  | date, .str s => (readMoment s).map Option.isSome
  | phone, .str s => .ok (Phone.isPhone s)
  | _, _ => .ok false

/-- Whether a value is of the type. -/
def test (k : Scalar) (v : Value) : Bool := k.run v matches .ok true

/-- What a value of the type has to be. -/
def requirement : Scalar → String
  | string => "must be a string"
  | int => "must be an integer"
  | boolean => "must be a boolean"
  | email => "must be a valid email address"
  | date => "must be a valid date"
  | phone => "must be a valid phone number"

/-- The default message for a field at a path. -/
def message (s : Scalar) (path : String) : String := path ++ " " ++ s.requirement

/-- The default message with a place for the path. -/
def template (s : Scalar) : String := s.message "\x7bname\x7d"

end Scalar

end ShapeCheck
