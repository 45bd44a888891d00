import ShapeCheck.Value.Basic

/-
  The failures recorded so far, at most one for a field, and whether anything was recorded since
  the last reset. Recording that a field is right removes its failure.
-/

namespace ShapeCheck

structure Outcome where
  errors : Assoc String FieldError := []
  validated : Bool := false

namespace Outcome

def record (o : Outcome) (name : String) (error : Option FieldError) : Outcome where
  validated := true
  errors := match error with
    | none => o.errors.erase name
    | some e => o.errors.insert name e

def reset (_ : Outcome) : Outcome := {}

def get? (o : Outcome) (name : String) : Option FieldError := o.errors.get? name

def hasError (o : Outcome) (name : String) : Bool := (o.get? name).isSome

def isValid (o : Outcome) : Bool := o.errors.isEmpty

/-- The failures of the named fields, in the order of the names. -/
def ordered (o : Outcome) (names : List String) : List FieldError := names.filterMap o.get?

/-! ## Failures after a change -/

/-- No field has two failures. -/
def Distinct (o : Outcome) : Prop := o.errors.keys.Nodup

variable {o : Outcome} {name k : String} {e : FieldError}

theorem distinct_reset (o : Outcome) : o.reset.Distinct := List.nodup_nil

theorem Distinct.record (ho : o.Distinct) (name : String) (e : Option FieldError) :
    (o.record name e).Distinct := by
  cases e with
  | none => exact Assoc.nodup_keys_erase ho name
  | some e => exact Assoc.nodup_keys_insert ho name e

theorem get?_reset (o : Outcome) (k : String) : o.reset.get? k = none := rfl

theorem get?_record_self (ho : o.Distinct) (name : String) (e : Option FieldError) :
    (o.record name e).get? name = e := by
  cases e with
  | none => exact Assoc.get?_erase_self ho
  | some e => exact Assoc.get?_insert_self o.errors name e

theorem get?_record_of_ne (h : name ≠ k) (o : Outcome) (e : Option FieldError) :
    (o.record name e).get? k = o.get? k := by
  cases e with
  | none => exact Assoc.get?_erase_of_ne h o.errors
  | some e => exact Assoc.get?_insert_of_ne h o.errors e

theorem mem_errors_iff (ho : o.Distinct) : (k, e) ∈ o.errors ↔ o.get? k = some e :=
  ⟨Assoc.get?_of_mem ho, Assoc.mem_of_get?⟩

theorem mem_values_iff (ho : o.Distinct) : e ∈ o.errors.values ↔ ∃ k, o.get? k = some e := by
  rw [Assoc.values, List.mem_map]
  constructor
  · rintro ⟨⟨k, e⟩, he, rfl⟩
    exact ⟨k, (mem_errors_iff ho).1 he⟩
  · rintro ⟨k, he⟩
    exact ⟨(k, e), (mem_errors_iff ho).2 he, rfl⟩

end Outcome

end ShapeCheck
