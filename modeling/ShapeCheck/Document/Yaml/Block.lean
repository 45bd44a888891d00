import ShapeCheck.Document.Yaml.Text

/-
  Block scalars. A header says how the line breaks at the end are treated and, if it is given, how
  far the lines are indented beyond the block around them; otherwise the first line tells. Literal
  scalars keep their line breaks. In folded ones a single break between two lines that do not start
  with a blank is a space, and of several the first is dropped.
-/

namespace ShapeCheck.Yaml

/-- What becomes of the line breaks at the end. -/
inductive Chomping where
  | strip
  | clip
  | keep
deriving DecidableEq, Repr

/-- Whether a text is at its end, or starts with a space or a line break. -/
def startsBare : List Char → Bool
  | [] => true
  | c :: _ => c == ' ' || isBreak c

/-- The end of a line after a mark: blanks, perhaps a comment, and the line break. -/
def endLine (c : Cursor) : Except DocumentError Cursor :=
  let c := c.dropWhile (· == ' ')
  let c := if c.rest.head? = some '#' then c.dropWhile (!isBreak ·) else c
  if c.rest.head?.all isBreak then .ok c.next else .error .yamlToken

def chomping? (c : Char) : Option Chomping :=
  if c = '+' then some .keep else if c = '-' then some .strip else none

/-- The header of a block scalar: how it ends and how far it is indented, in either order. -/
def blockHeader (c : Cursor) : Except DocumentError (Chomping × Option Nat × Cursor) := do
  let ending (c : Cursor) : Option Chomping × Cursor :=
    match c.rest.head?.bind chomping? with
    | some e => (some e, c.next)
    | none => (none, c)
  let (first, c) := ending c
  let (step, c) ← match c.rest with
    | d :: _ =>
      if d = '0' then throw .yamlToken
      else if d.isDigit then pure (some (d.toNat - '0'.toNat), c.next)
      else pure (none, c)
    | [] => pure (none, c)
  let (second, c) := if first.isNone && step.isSome then ending c else (none, c)
  if !startsBare c.rest then throw .yamlToken
  return ((first.or second).getD .clip, step, ← endLine c)

/-- The empty lines before a block scalar, and the greatest column that a blank in them ends at. -/
def leadingBreaks (fuel : Nat) (c : Cursor) : List Char × Nat × Cursor :=
  match fuel, c.rest with
  | fuel + 1, b :: _ =>
    if b = ' ' then
      let (bs, n, d) := leadingBreaks fuel c.next
      (bs, max c.next.column n, d)
    else if isBreak b then
      let (bs, n, d) := leadingBreaks fuel c.next
      (breakOf b :: bs, n, d)
    else ([], 0, c)
  | _, _ => ([], 0, c)

/-- Moves to a column over blanks, as far as there are such. -/
def toColumn (column : Nat) (c : Cursor) : Cursor :=
  c.skip (min (column - c.column) (c.rest.takeWhile (· == ' ')).length)

/-- The empty lines between two lines of a block scalar, and the start of the second one. -/
def innerBreaks (column fuel : Nat) (c : Cursor) : List Char × Cursor :=
  let c := toColumn column c
  match fuel, c.rest with
  | fuel + 1, b :: _ =>
    if isBreak b then
      let (bs, d) := innerBreaks column fuel c.next
      (breakOf b :: bs, d)
    else ([], c)
  | _, _ => ([], c)

/-- A place at which a line of a block scalar starts. -/
def startsLine (column : Nat) (c : Cursor) : Bool := c.column == column && !c.rest.isEmpty

def startsBlank (c : Cursor) : Bool := c.rest.head?.any fun a => a == ' ' || a == '\t'

/-- The lines of a block scalar. -/
structure BlockLines where
  text : List Char
  /-- the break that ends the last line -/
  last : List Char
  /-- the breaks of the empty lines after it -/
  trailing : List Char
  stop : Cursor

/-- The lines from a place on; `breaks` are those of the empty lines before it. -/
def blockLines (folded : Bool) (column fuel : Nat) (breaks : List Char) (c : Cursor) :
    BlockLines :=
  match fuel with
  | 0 => ⟨[], [], breaks, c⟩
  | fuel + 1 =>
    if startsLine column c then
      let (line, d) := c.span (!isBreak ·)
      let ending := (d.rest.head?.map breakOf).toList
      let (bs, d) := innerBreaks column d.rest.length d.next
      if startsLine column d then
        let between :=
          if folded && ending == ['\n'] && !startsBlank c && !startsBlank d then
            if bs.isEmpty then [' '] else []
          else ending
        let more := blockLines folded column fuel bs d
        { more with text := breaks ++ line ++ between ++ more.text }
      else ⟨breaks ++ line, ending, bs, d⟩
    else ⟨[], [], breaks, c⟩

/-- The text of a block scalar after its mark, and the place after it. Its lines are indented at
least to the column `least`. -/
def blockScalar (folded : Bool) (least : Nat) (c : Cursor) :
    Except DocumentError (List Char × Cursor) := do
  let (ending, step, c) ← blockHeader c
  let (column, breaks, c) := match step with
    | some n =>
      let column := least + n - 1
      let (bs, d) := innerBreaks column c.rest.length c
      (column, bs, d)
    | none =>
      let (bs, n, d) := leadingBreaks c.rest.length c
      (max least n, bs, d)
  let lines := blockLines folded column (c.rest.length + 1) breaks c
  let tail := match ending with
    | .strip => []
    | .clip => lines.last
    | .keep => lines.last ++ lines.trailing
  return (lines.text ++ tail, lines.stop)

end ShapeCheck.Yaml
