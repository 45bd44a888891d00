import ShapeCheck.Assoc
import ShapeCheck.Calendar.Basic
import ShapeCheck.Number.Double

/-
  The values that are checked. Plain values stand for themselves; containers live in a heap and a
  value refers to one by its address, so that containers can be shared and can contain themselves.
  A tuple or a field error cannot be changed and holds its parts itself; it has an address too, by
  which it is known again when it is met inside itself.
-/

namespace ShapeCheck

open ShapeCheck.Calendar

abbrev Addr := Nat

mutual

inductive Value where
  | null
  | bool (b : Bool)
  | int (n : Int)
  | float (x : Double)
  | str (s : String)
  | bytes (bs : List UInt8)
  | date (d : Date)
  | moment (m : Moment)
  | time (t : Time)
  | decimal (d : Decimal)
  | fraction (q : Rat)
  | tuple (a : Addr) (items : List Value)
  | set (items : List Value)
  /-- a container of the heap: a mapping, a list, a view of a mapping or a set of options -/
  | object (a : Addr)
  /-- a field error that was made outside -/
  | report (a : Addr) (e : FieldError)

/-- A failed field: its path, the message, the declared type and the failures inside it. -/
structure FieldError where
  name : Value
  message : Value
  typeName : Option String := none
  details : List FieldError := []

end

instance : Inhabited Value := ⟨.null⟩

instance : Inhabited FieldError := ⟨{ name := .null, message := .null }⟩

/-- The entries of a mapping in order. -/
abbrev Entries := Assoc Value Value

namespace Entries

/-- The value under a text key. -/
def field? (es : Entries) (name : String) : Option Value :=
  match es with
  | [] => none
  | (.str k, v) :: rest => if k = name then some v else field? rest name
  | _ :: rest => field? rest name

variable {n : String} {l v : Value}

theorem field?_cons_self (n : String) (v : Value) (es : Entries) :
    field? ((.str n, v) :: es) n = some v := by
  rw [field?, if_pos rfl]

theorem field?_cons_of_ne (hl : l ≠ .str n) (v : Value) (es : Entries) :
    field? ((l, v) :: es) n = es.field? n := by
  cases l with
  | str m =>
    have hne : m ≠ n := fun he => hl (congrArg Value.str he)
    rw [field?, if_neg hne]
  | _ => rfl

theorem mem_of_field? {es : Entries} (hv : es.field? n = some v) : (.str n, v) ∈ es := by
  induction es with
  | nil => contradiction
  | cons q es ih =>
    obtain ⟨l, w⟩ := q
    by_cases hl : l = .str n
    · subst hl
      rw [field?_cons_self] at hv
      cases hv
      exact List.mem_cons_self ..
    · rw [field?_cons_of_ne hl] at hv
      exact List.mem_cons_of_mem _ (ih hv)

end Entries

/-- Options of a validator: message overrides by path, and the type to validate against. -/
structure Options where
  messages : Assoc String String := []
  rootType : Option String := none
deriving DecidableEq, Repr

end ShapeCheck
