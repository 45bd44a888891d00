import ShapeCheck.Document.Yaml.Block

/-
  The marks of YAML that stand beside values: anchors and aliases, tags, and the directives before
  a document. A tag is a suffix after a handle, or is written out; what else it holds than letters,
  digits and some marks is escaped byte by byte.
-/

namespace ShapeCheck.Yaml

open ShapeCheck.Text

/-- Whether a character may stand in the name of an anchor, of a handle or of a directive. -/
def isNameChar (c : Char) : Bool := c.isAlphanum || c == '-' || c == '_'

/-- Whether a character may stand in a tag. -/
def isTagChar (c : Char) : Bool := c.isAlphanum || "-;/?:@&=+$,_.!~*'()[]".contains c

/-- The error at a place; `atEnd` is the one at the end of the text. -/
def Cursor.failure (c : Cursor) (atEnd : DocumentError) : DocumentError :=
  if c.rest.isEmpty then atEnd else .yamlToken

/-- A name of at least one character. -/
def nameAt (atEnd : DocumentError) (c : Cursor) : Except DocumentError (String × Cursor) :=
  match c.span isNameChar with
  | ([], c) => .error (c.failure atEnd)
  | (name, c) => .ok (String.ofList name, c)

/-- Whether a character other than a blank may follow the name of an anchor. -/
def endsName (c : Char) : Bool := ['?', ':', ',', ']', '\x7d', '%', '@', '\x60'].contains c

/-- The name of an anchor or an alias after its mark. -/
def anchorName (atEnd : DocumentError) (c : Cursor) : Except DocumentError (String × Cursor) := do
  let (name, c) ← nameAt atEnd c.next
  if startsApart c.rest || c.rest.head?.any endsName then return (name, c)
  else throw .yamlToken

/-! ## Tags -/

/-- A handle between exclamation marks. The first of them may stand alone before a space. -/
def handleAt (atEnd : DocumentError) (c : Cursor) : Except DocumentError (String × Cursor) :=
  match c.rest with
  | '!' :: ' ' :: _ => .ok ("!", c.next)
  | '!' :: _ =>
    let (name, d) := c.next.span isNameChar
    if d.rest.head? = some '!' then .ok (String.ofList ('!' :: name ++ ['!']), d.next)
    else .error (d.failure atEnd)
  | _ => .error (c.failure atEnd)

/-- The bytes of a row of escapes. -/
def escapedBytes (atEnd : DocumentError) (fuel : Nat) (c : Cursor) :
    Except DocumentError (List UInt8 × Cursor) :=
  match fuel, c.rest with
  | fuel + 1, '%' :: s => do
    let (ds, _) ← someHexDigits atEnd 2 s
    let (bs, c) ← escapedBytes atEnd fuel (c.skip 3)
    return ((ds.foldl (fun n d => 16 * n + d) 0).toUInt8 :: bs, c)
  | _, _ => .ok ([], c)

/-- The pieces of a tag. -/
def tagPieces (atEnd : DocumentError) (fuel : Nat) (c : Cursor) :
    Except DocumentError (String × Cursor) :=
  match fuel with
  | 0 => .ok ("", c)
  | fuel + 1 => do
    let (plain, c) := c.span isTagChar
    if c.rest.head? = some '%' then
      let (bs, c) ← escapedBytes atEnd c.rest.length c
      match String.fromUTF8? ⟨bs.toArray⟩ with
      | none => throw .yamlToken
      | some text =>
        let (more, c) ← tagPieces atEnd fuel c
        return (String.ofList plain ++ text ++ more, c)
    else return (String.ofList plain, c)

/-- A tag, or the end of one, of at least one character. -/
def tagText (atEnd : DocumentError) (c : Cursor) : Except DocumentError (String × Cursor) :=
  if c.rest.head?.any fun a => isTagChar a || a == '%' then tagPieces atEnd (c.rest.length + 1) c
  else .error (c.failure atEnd)

/-- A tag as it is written: after a handle, or written out. -/
structure TagMark where
  handle : Option String
  suffix : String
deriving DecidableEq, Repr

def tagMark (atEnd : DocumentError) (c : Cursor) : Except DocumentError (TagMark × Cursor) := do
  let s := c.rest.tail
  let (mark, c) ←
    if s.head? = some '<' then do
      let (text, c) ← tagText atEnd (c.skip 2)
      if c.rest.head? ≠ some '>' then throw (c.failure atEnd)
      pure (⟨none, text⟩, c.next)
    else if startsApart s then pure (⟨none, "!"⟩, c.next)
    else do
      let (handle, c) ←
        if '!' ∈ s.takeWhile (fun a => a != ' ' && !isBreak a) then handleAt atEnd c
        else pure ("!", c.next)
      let (text, c) ← tagText atEnd c
      pure (⟨some handle, text⟩, c)
  if startsBare c.rest then return (mark, c) else throw .yamlToken

/-! ## Directives -/

inductive Directive where
  | version (major : Nat)
  /-- a handle and what it stands for -/
  | handle (name text : String)
  | other
deriving DecidableEq, Repr

/-- A number of at least one digit. -/
def numberAt (atEnd : DocumentError) (c : Cursor) : Except DocumentError (Nat × Cursor) :=
  match c.span Char.isDigit with
  | ([], c) => .error (c.failure atEnd)
  | (ds, c) => .ok (Decimal.digitsValue ds, c)

/-- The directive at a place and the place after its line. -/
def directive (atEnd : DocumentError) (c : Cursor) :
    Except DocumentError (Directive × Cursor) := do
  let (name, c) ← nameAt atEnd c.next
  if !startsBare c.rest then throw .yamlToken
  let blanks (c : Cursor) : Cursor := c.dropWhile (· == ' ')
  let (d, c) ←
    if name = "YAML" then do
      let (major, c) ← numberAt atEnd (blanks c)
      if c.rest.head? ≠ some '.' then throw (c.failure atEnd)
      let (_, c) ← numberAt atEnd c.next
      if !startsBare c.rest then throw .yamlToken
      pure (Directive.version major, c)
    else if name = "TAG" then do
      let (handle, c) ← handleAt atEnd (blanks c)
      if c.rest.head? ≠ some ' ' then throw (c.failure atEnd)
      let (text, c) ← tagText atEnd (blanks c)
      if !startsBare c.rest then throw .yamlToken
      pure (Directive.handle handle text, c)
    else pure (Directive.other, c.dropWhile (!isBreak ·))
  return (d, ← endLine c)

end ShapeCheck.Yaml
