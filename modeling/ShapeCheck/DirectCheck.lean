import ShapeCheck.Context

/-
  Checks outside of a context, with overrides and objects given as any values. Overrides that are
  no mapping are a fault as soon as a message is needed, and an object that is no mapping is one as
  soon as a field is looked up.
-/

namespace ShapeCheck

/-- Runs a check with overrides from a value; `isClean` tells that a result needs no message. -/
def withOverrides {α : Type} (h : Heap) (messages : Value) (isClean : α → Bool)
    (run : Overrides → Except Fault α) : Except Fault α :=
  match h.mapping? messages with
  | some (_, es) => run (.ofEntries es)
  | none =>
    match run fun _ => none with
    | .error e => .error e
    | .ok r => if isClean r then .ok r else .error (.misuse .noOperation)

/-- The moment that a value writes. Only text can write one; a byte string of blanks counts as
empty text. -/
def readMomentOf (v : Value) : Except Misuse (Option Calendar.Moment) :=
  match v with
  | .str s => Calendar.readMoment s
  | .bytes bs =>
    if bs.all fun b => b = 32 ∨ 9 ≤ b ∧ b ≤ 13 then .ok none else .error .bytesForText
  | _ => .error .noOperation

/-- The addresses of the containers among some values. -/
def addresses (vs : List Value) : List Addr :=
  vs.filterMap fun
    | .object a => some a
    | _ => none

namespace Schema

/-- Checks a value, or the lack of one, against a field. -/
def checkAgainst (s : Schema) (h : Heap) (messages : Value) (active : List Addr) (f : Field)
    (value : Option Value) (path : String) : Except Fault (Option FieldError) :=
  withOverrides h messages Option.isNone fun m => s.checkValue h m active f value path

/-- Checks every field of an object. -/
def checkObject (s : Schema) (h : Heap) (messages : Value) (active : List Addr) (t : ObjectType)
    (object : Value) (parent : String) : Except Fault (List FieldError) :=
  withOverrides h messages List.isEmpty fun m =>
    match h.mapping? object with
    | none => if t.fields.isEmpty then .ok [] else .error (.misuse .noOperation)
    | some (_, es) => s.checkFields h m active t es parent

/-- Checks one field of an object. -/
def checkKey (s : Schema) (h : Heap) (messages : Value) (t : ObjectType) (key object : Value) :
    Except Fault (Option FieldError) :=
  withOverrides h messages Option.isNone fun m => s.checkField h m t key object

end Schema

end ShapeCheck
