/-
  Places in a text. Tabs are replaced by blanks up to the next multiple of eight columns, and all
  places refer to the text after that. Lines end at a line feed only; a carriage return begins a
  new column count for tabs but no new line.
-/

namespace ShapeCheck.Text

/-- The text with its tabs expanded, when `column` characters already stand on the line. -/
def expandTabs (column : Nat) : List Char → List Char
  | [] => []
  | c :: s =>
    if c = '\t' then
      let width := 8 - column % 8
      List.replicate width ' ' ++ expandTabs (column + width) s
    else if c = '\n' ∨ c = '\r' then c :: expandTabs 0 s
    else c :: expandTabs (column + 1) s

/-- A line and a column, both counted from one. -/
structure Position where
  line : Nat
  column : Nat
deriving DecidableEq, Repr

/-- The characters between the last line feed before the offset and the offset. -/
def lineBefore (text : List Char) (offset : Nat) : List Char :=
  ((text.take offset).reverse.takeWhile (· != '\n')).reverse

/-- The place of the character at an offset. -/
def positionAt (text : List Char) (offset : Nat) : Position where
  line := (text.take offset).count '\n' + 1
  column := (lineBefore text offset).length + 1

/-- The whole line that holds the offset, without its line feed. -/
def lineAt (text : List Char) (offset : Nat) : List Char :=
  lineBefore text offset ++ (text.drop offset).takeWhile (· != '\n')

end ShapeCheck.Text
