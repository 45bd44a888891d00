import ShapeCheck.Schema.Basic

/-
  Resolving declarations into a schema. A declared name may not be that of a built-in type, and
  every field has to refer to a built-in type or to a declared one, before or after its use. The
  first name that shadows a built-in type is reported before any reference.
-/

namespace ShapeCheck

/-- Why a type cannot be resolved or found. -/
inductive ResolutionError where
  /-- the declared name is that of a built-in type -/
  | shadowsScalar (name : String)
  | unknownType (typeRef field : String) (kind : DeclarationKind) (owner : String)
  /-- a type was asked for that the schema does not declare -/
  | undeclared (name : Value)
  /-- no type to validate against -/
  | noRoot

namespace Schema

variable {σ : Type}

/-- The field with its type looked up, first among the built-in types. -/
def resolveField (library : Registry σ) (declared : List String) (d : Declaration)
    (f : FieldDeclaration) : Except ResolutionError (Field σ) :=
  match library.find? (.str f.typeRef) with
  | some s => .ok ⟨f.name, f.typeRef, some s⟩
  | none =>
    if f.typeRef ∈ declared then .ok ⟨f.name, f.typeRef, none⟩
    else .error (.unknownType f.typeRef f.name d.kind d.name)

def resolveDeclaration (library : Registry σ) (declared : List String) (d : Declaration) :
    Except ResolutionError (ObjectType σ) := do
  let fields ← d.fields.mapM (resolveField library declared d)
  .ok ⟨d.name, d.kind, fields⟩

def resolve (library : Registry σ) (ds : List Declaration) : Except ResolutionError (Schema σ) :=
  match ds.find? fun d => (library.find? (.str d.name)).isSome with
  | some d => .error (.shadowsScalar d.name)
  | none => do
    let types ← ds.mapM (resolveDeclaration library (ds.map Declaration.name))
    .ok (ofTypes types)

/-- The declared type that a value names. -/
def getType (s : Schema σ) (name : Value) : Except ResolutionError (ObjectType σ) :=
  match name with
  | .str n => match s.type? n with
    | some t => .ok t
    | none => .error (.undeclared name)
  | _ => .error (.undeclared name)

end Schema

end ShapeCheck
