import ShapeCheck.Schema.Declaration
import ShapeCheck.Schema.Token

/-
  Reading declarations from schema text. A declaration is a block word, a name and fields in
  braces; a field is a name, a colon and the name of a type, with at most one comma after it. The
  first token that cannot stand where it stands is an error, and so is text without declarations,
  a type name used twice, and a field name used twice within one declaration.

  The clauses follow the grammar in where it may turn back. Once a block word is found, every part
  of the declaration has to be, and the first that is not is the error (`block`). So is the name of
  a type after a colon. A field is given up if there is no colon after its name; its name is then
  the place where the closing brace is missing (last clause of `fields`). A declaration is given up
  if it has no block word, and then the text should have ended there (`blocks`).
-/

namespace ShapeCheck

open ShapeCheck.Text

/-- What was wanted at the place of a syntax error. -/
inductive Wanted where
  | endOfText
  | identifier
  | openBrace
  | closeBrace
deriving DecidableEq, Repr

/-- Why a text is no schema. -/
inductive SchemaTextError where
  | unexpected (wanted : Wanted) (position : Position) (line : String)
  | empty
  /-- a type name that an earlier declaration on line `first` already has -/
  | duplicateType (name : String) (position : Position) (first : Nat)
  | duplicateField (name : String) (kind : DeclarationKind) (owner : String) (position : Position)
deriving DecidableEq, Repr

namespace SchemaText

/-- A token that was wanted, and the tokens that stand in its place. -/
structure Mismatch where
  wanted : Wanted
  place : List Token

abbrev Result (α : Type) := Except Mismatch (α × List Token)

/-- A field with the offset of its name. -/
structure RawField where
  name : String
  typeRef : String
  start : Nat

/-- A declaration with the offset of its first word. -/
structure RawDeclaration where
  kind : DeclarationKind
  name : String
  fields : List RawField
  start : Nat

def identifier : List Token → Result String
  | ⟨.word name _, _⟩ :: ts => .ok (name, ts)
  | ts => .error ⟨.identifier, ts⟩

def skipComma : List Token → List Token
  | ⟨.comma, _⟩ :: ts => ts
  | ts => ts

theorem length_skipComma_le (ts : List Token) : (skipComma ts).length ≤ ts.length := by
  unfold skipComma
  split <;> simp

/-- The fields of a block up to its closing brace, which is taken too. -/
def fields : List Token → Result (List RawField)
  | ⟨.closeBrace, _⟩ :: ts => .ok ([], ts)
  | ⟨.word name _, start⟩ :: ⟨.colon, _⟩ :: ⟨.word typeRef _, _⟩ :: ts =>
    have := length_skipComma_le ts
    match fields (skipComma ts) with
    | .ok (fs, ts) => .ok (⟨name, typeRef, start⟩ :: fs, ts)
    | .error e => .error e
  | ⟨.word _ _, _⟩ :: ⟨.colon, _⟩ :: ts => .error ⟨.identifier, ts⟩
  | ts => .error ⟨.closeBrace, ts⟩
termination_by ts => ts.length

/-- The kind of declaration that a word introduces; a word tied to a dollar sign introduces none. -/
def blockKind? : Lexeme → Option DeclarationKind
  | .word name tied =>
    if tied then none
    else if name = DeclarationKind.type.word then some .type
    else if name = DeclarationKind.input.word then some .input
    else none
  | _ => none

/-- The rest of a declaration after its first word. -/
def block (kind : DeclarationKind) (start : Nat) (ts : List Token) : Result RawDeclaration :=
  match identifier ts with
  | .error e => .error e
  | .ok (name, ⟨.openBrace, _⟩ :: ts) =>
    match fields ts with
    | .error e => .error e
    | .ok (fs, ts) => .ok (⟨kind, name, fs, start⟩, ts)
  | .ok (_, ts) => .error ⟨.openBrace, ts⟩

theorem length_of_identifier {ts rest : List Token} {name : String}
    (h : identifier ts = .ok (name, rest)) : rest.length < ts.length := by
  unfold identifier at h
  split at h
  · cases h; simp
  · contradiction

theorem length_of_fields {ts rest : List Token} {fs : List RawField}
    (h : fields ts = .ok (fs, rest)) : rest.length < ts.length := by
  fun_induction fields ts generalizing fs rest with
  | case1 => cases h; simp
  | case2 =>
    rename_i ts _ fs' ts' hf ih
    cases h
    have := ih hf
    have := length_skipComma_le ts
    simp only [List.length_cons]
    omega
  | case3 => contradiction
  | case4 => contradiction
  | case5 => contradiction

theorem length_of_block {kind : DeclarationKind} {start : Nat} {ts rest : List Token}
    {d : RawDeclaration} (h : block kind start ts = .ok (d, rest)) : rest.length < ts.length := by
  unfold block at h
  split at h
  · contradiction
  · rename_i hi
    have h₁ := length_of_identifier hi
    split at h
    · contradiction
    · rename_i hf
      have h₂ := length_of_fields hf
      cases h
      simp only [List.length_cons] at h₁
      omega
  · contradiction

/-- The declarations that a row of tokens writes. -/
def blocks (ts : List Token) : Except Mismatch (List RawDeclaration) :=
  match ts with
  | [] => .ok []
  | t :: ts =>
    match blockKind? t.lexeme with
    | none => .error ⟨.endOfText, t :: ts⟩
    | some kind =>
      match h : block kind t.start ts with
      | .error e => .error e
      | .ok (d, rest) =>
        have := length_of_block h
        (blocks rest).map (d :: ·)
termination_by ts.length

/-- The field with its place in the text. -/
def RawField.locate (text : List Char) (f : RawField) : SourceField :=
  ⟨⟨f.name, f.typeRef⟩, positionAt text f.start⟩

/-- The declaration with its places in the text. -/
def RawDeclaration.locate (text : List Char) (d : RawDeclaration) : SourceDeclaration :=
  ⟨d.kind, d.name, d.fields.map (·.locate text), positionAt text d.start⟩

/-- The error with its place: the first token in the wrong place, or the end of the text. -/
def Mismatch.locate (text : List Char) (e : Mismatch) : SchemaTextError :=
  let offset := match e.place with
    | [] => text.length
    | t :: _ => t.start
  .unexpected e.wanted (positionAt text offset) (String.ofList (lineAt text offset))

/-- Looks for a field name that is used twice. -/
def checkFields (d : SourceDeclaration) (seen : List String) :
    List SourceField → Except SchemaTextError Unit
  | [] => .ok ()
  | f :: fs =>
    if f.name ∈ seen then .error (.duplicateField f.name d.kind d.name f.position)
    else checkFields d (f.name :: seen) fs

/-- Looks for names that are used twice, in the order of the text. -/
def checkNames (seen : List SourceDeclaration) :
    List SourceDeclaration → Except SchemaTextError Unit
  | [] => .ok ()
  | d :: ds =>
    match seen.find? (·.name = d.name) with
    | some first => .error (.duplicateType d.name d.position first.position.line)
    | none => do
      checkFields d [] d.fields
      checkNames (seen ++ [d]) ds

end SchemaText

open SchemaText in
/-- The declarations of a schema text. -/
def parseSchema (source : String) : Except SchemaTextError (List SourceDeclaration) :=
  let text := expandTabs 0 source.toList
  match blocks (Token.scan 0 text) with
  | .error e => .error (e.locate text)
  | .ok [] => .error .empty
  | .ok ds => do
    let ds := ds.map (·.locate text)
    checkNames [] ds
    .ok ds

end ShapeCheck
