/-
  Slips in the use of a value: what its kind, or the value itself, does not admit.
-/

namespace ShapeCheck

/-- A use of a value that it does not admit. -/
inductive Misuse where
  /-- a container given as a key -/
  | notKey
  /-- a walk through a value without members -/
  | notIterable
  /-- a mapping was needed to take entries from -/
  | notMapping
  /-- values without an order were to be sorted -/
  | unordered
  /-- what is no number was compared as one -/
  | notNumber
  | unknownArgument
  /-- a byte string where text was needed -/
  | bytesForText
  /-- the value lacks the operation asked of it -/
  | noOperation
  /-- an entry that is no pair -/
  | notPair
  /-- a number of too many digits to be written out -/
  | overlong
  /-- a text that does not have the form asked for -/
  | unreadable
  /-- numbers that are no date, no time of day or no offset -/
  | outOfRange
  /-- a number that does not fit into a machine word -/
  | tooLarge
deriving DecidableEq, Repr

namespace Misuse

/-- The kinds of slips. -/
inductive Kind where
  /-- the value is of the wrong kind -/
  | type
  /-- the value is of the right kind, but does not do -/
  | value
  /-- the value lacks an operation -/
  | operation
  /-- a number is too large to compute with -/
  | overflow
  /-- the value is no number -/
  | number
deriving DecidableEq, Repr

def kind : Misuse → Kind
  | noOperation => .operation
  | notPair => .value
  | overlong => .value
  | unreadable => .value
  | outOfRange => .value
  | tooLarge => .overflow
  | notNumber => .number
  | _ => .type

end Misuse

end ShapeCheck
