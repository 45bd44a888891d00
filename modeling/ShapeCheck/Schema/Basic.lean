import ShapeCheck.Registry
import ShapeCheck.Scalar.Basic
import ShapeCheck.Schema.Declaration

/-
  Schemas: named record types in order of their declaration, whose fields refer to built-in types
  or to declared ones. Of declarations of one name the last counts, in the place of the first. The
  built-in types are the items of a library, which may be of any kind; a check needs `Scalar`.
-/

namespace ShapeCheck

/-- A field with the name of its type. It has a built-in type if `scalar` is given, and a declared
one otherwise. -/
structure Field (σ : Type := Scalar) where
  name : String
  typeRef : String
  scalar : Option σ
deriving DecidableEq, Repr

structure ObjectType (σ : Type := Scalar) where
  name : String
  kind : DeclarationKind
  fields : List (Field σ)
deriving DecidableEq, Repr

variable {σ : Type}

namespace ObjectType

def fieldNames (t : ObjectType σ) : List String := t.fields.map Field.name

/-- The field of a name; the last one if there are several. -/
def field? (t : ObjectType σ) (name : String) : Option (Field σ) :=
  t.fields.reverse.find? (·.name = name)

def hasField (t : ObjectType σ) (name : String) : Bool := (t.field? name).isSome

/-- The types of the fields by name. -/
def fieldTypes (t : ObjectType σ) : Assoc String String :=
  .ofList (t.fields.map fun f => (f.name, f.typeRef))

/-- The declared types that the fields refer to. -/
def references (t : ObjectType σ) : List String :=
  (t.fields.filter (·.scalar.isNone)).map Field.typeRef

theorem mem_fieldNames {t : ObjectType σ} {f : Field σ} (hf : f ∈ t.fields) :
    f.name ∈ t.fieldNames :=
  List.mem_map_of_mem hf

theorem mem_of_field? {t : ObjectType σ} {name : String} {f : Field σ}
    (h : t.field? name = some f) : f ∈ t.fields ∧ f.name = name := by
  have hf := List.find?_some (p := fun f : Field σ => decide (f.name = name)) h
  exact ⟨List.mem_reverse.1 (List.mem_of_find?_eq_some h), of_decide_eq_true hf⟩

theorem hasField_iff {t : ObjectType σ} {name : String} :
    t.hasField name = true ↔ name ∈ t.fieldNames := by
  rw [hasField, Option.isSome_iff_exists, fieldNames, List.mem_map]
  constructor
  · rintro ⟨f, hf⟩
    exact ⟨f, mem_of_field? hf⟩
  · rintro ⟨f, hf, hn⟩
    rw [← Option.isSome_iff_exists, field?, List.find?_isSome]
    exact ⟨f, List.mem_reverse.2 hf, decide_eq_true hn⟩

end ObjectType

structure Schema (σ : Type := Scalar) where
  types : Assoc String (ObjectType σ)
  /-- the names of the input declarations in order, one name as often as it was declared -/
  inputs : List String

namespace Schema

def ofTypes (ts : List (ObjectType σ)) : Schema σ where
  types := .ofList (ts.map fun t => (t.name, t))
  inputs := (ts.filter (·.kind = .input)).map ObjectType.name

def type? (s : Schema σ) (name : String) : Option (ObjectType σ) := s.types.get? name

def typeNames (s : Schema σ) : List String := s.types.keys

/-- The first input declaration. -/
def primaryInput? (s : Schema σ) : Option String := s.inputs.head?

end Schema

namespace Scalar

/-- The library of built-in types. It is frozen. -/
def library : Registry Scalar :=
  { name := "scalars"
    items := all.map fun s => (.str s.name, s)
    frozen := true }

end Scalar

end ShapeCheck
