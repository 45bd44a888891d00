import ShapeCheck.Text.Position

/-
  Declarations of record types, as schema text lists them: a kind, a name, and fields with the
  names of their types. A declaration read from text also knows where it and its fields stand.
-/

namespace ShapeCheck

open ShapeCheck.Text

/-- Reusable shapes, and shapes that objects are checked against from the start. -/
inductive DeclarationKind where
  | type
  | input
deriving DecidableEq, Repr

/-- The word that introduces a declaration. -/
def DeclarationKind.word : DeclarationKind → String
  | type => "type"
  | input => "input"

structure FieldDeclaration where
  name : String
  typeRef : String
deriving DecidableEq, Repr

structure Declaration where
  kind : DeclarationKind
  name : String
  fields : List FieldDeclaration
deriving DecidableEq, Repr

/-- A field declaration with the place of its name. -/
structure SourceField extends FieldDeclaration where
  position : Position
deriving DecidableEq, Repr

/-- A declaration with the place of its first word. -/
structure SourceDeclaration where
  kind : DeclarationKind
  name : String
  fields : List SourceField
  position : Position
deriving DecidableEq, Repr

/-- The declaration without its places. -/
def SourceDeclaration.plain (d : SourceDeclaration) : Declaration :=
  ⟨d.kind, d.name, d.fields.map SourceField.toFieldDeclaration⟩

end ShapeCheck
