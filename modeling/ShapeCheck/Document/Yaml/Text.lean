import ShapeCheck.Document.Basic
import ShapeCheck.Text.HexDigit

/-
  The texts of plain and quoted YAML scalars. A plain scalar ends before a colon or comment that
  stands apart, and within brackets also before their marks; a quoted one at its quote. Both may go
  over several lines: a single line break between words is a space, and of several the first is
  dropped.
-/

namespace ShapeCheck.Yaml

open ShapeCheck.Text

def isBreak (c : Char) : Bool := c == '\n' || c == '\u0085' || c == '\u2028' || c == '\u2029'

/-- The line break that a character writes. -/
def breakOf (c : Char) : Char := if c = '\u0085' then '\n' else c

/-- Whether a text is at its end, or starts with a blank or a line break. -/
def startsApart : List Char → Bool
  | [] => true
  | c :: _ => c == ' ' || c == '\t' || isBreak c

/-- Whether a line starts with a mark between documents. -/
def isSeparator : List Char → Bool
  | '-' :: '-' :: '-' :: s => startsApart s
  | '.' :: '.' :: '.' :: s => startsApart s
  | _ => false

/-- What the line breaks between two words stand for. -/
def fold : List Char → List Char
  | [] => []
  | b :: bs => if b ≠ '\n' then b :: bs else if bs.isEmpty then [' '] else bs

/-- A place in a text. -/
structure Cursor where
  rest : List Char
  index : Nat := 0
  line : Nat := 0
  column : Nat := 0
deriving Inhabited

namespace Cursor

/-- The place after the next character. A byte order mark takes no column. -/
def next (c : Cursor) : Cursor :=
  match c.rest with
  | [] => c
  | a :: rest =>
    if isBreak a then ⟨rest, c.index + 1, c.line + 1, 0⟩
    else ⟨rest, c.index + 1, c.line, if a = '\ufeff' then c.column else c.column + 1⟩

def skip (c : Cursor) : Nat → Cursor
  | 0 => c
  | n + 1 => c.next.skip n

/-- The characters that pass a test, and the place after them. -/
def span (c : Cursor) (p : Char → Bool) : List Char × Cursor :=
  let s := c.rest.takeWhile p
  (s, c.skip s.length)

def dropWhile (c : Cursor) (p : Char → Bool) : Cursor := (c.span p).2

end Cursor

/-! ## Plain scalars -/

/-- Whether a character is a bracket, a brace or a comma. -/
def isFlowMark (c : Char) : Bool := [',', '[', ']', '\x7b', '\x7d'].contains c

/-- The length of a word of a plain scalar; `inFlow` within brackets. -/
def wordLength (inFlow : Bool) : List Char → Nat
  | [] => 0
  | c :: s =>
    if c = ' ' ∨ c = '\t' ∨ isBreak c then 0
    else if inFlow ∧ (c = '?' ∨ isFlowMark c) then 0
    else if c = ':' ∧ (startsApart s ∨ inFlow ∧ s.head?.any isFlowMark) then 0
    else wordLength inFlow s + 1

/-- The line breaks among the spaces and line breaks at the start of a text, the length of these,
and whether they end with a mark between documents. -/
def emptyLines : List Char → List Char × Nat × Bool
  | [] => ([], 0, false)
  | c :: s =>
    if c = ' ' then
      let (bs, n, separated) := emptyLines s
      (bs, n + 1, separated)
    else if isBreak c then
      if isSeparator s then ([breakOf c], 1, true)
      else
        let (bs, n, separated) := emptyLines s
        (breakOf c :: bs, n + 1, separated)
    else ([], 0, false)

/-- What stands between two words of a plain scalar. -/
structure WordGap where
  text : List Char
  length : Nat
  hasBreak : Bool

def wordGap (s : List Char) : WordGap :=
  let spaces := s.takeWhile (· == ' ')
  let rest := s.dropWhile (· == ' ')
  if rest.head?.any isBreak then
    let (bs, n, separated) := emptyLines rest
    ⟨if separated then [] else fold bs, spaces.length + n, true⟩
  else ⟨spaces, spaces.length, false⟩

/-- A plain scalar, the place after it and the gap that follows, and whether a line break is the
last thing before that place. The next line has to stand in column `least` or further on. -/
def plain (inFlow : Bool) (least fuel : Nat) (c : Cursor) : List Char × Cursor × Bool :=
  match fuel, wordLength inFlow c.rest with
  | 0, _ => ([], c, false)
  | _, 0 => ([], c, false)
  | fuel + 1, n =>
    let word := c.rest.take n
    let gap := wordGap (c.rest.drop n)
    let after := c.skip (n + gap.length)
    if gap.text.isEmpty ∨ after.rest.head? = some '#' ∨ (!inFlow ∧ after.column < least) then
      (word, after, gap.hasBreak)
    else
      match plain inFlow least fuel after with
      | ([], _, _) => (word, after, gap.hasBreak)
      | (text, result) => (word ++ gap.text ++ text, result)

/-! ## Quoted scalars -/

/-- The character of a short escape. -/
def escaped? : Char → Option Char
  | '0' => some '\x00'
  | 'a' => some '\x07'
  | 'b' => some '\x08'
  | 't' => some '\t'
  | '\t' => some '\t'
  | 'n' => some '\n'
  | 'v' => some '\x0b'
  | 'f' => some '\x0c'
  | 'r' => some '\r'
  | 'e' => some '\x1b'
  | ' ' => some ' '
  | '\x22' => some '\x22'
  | '\\' => some '\\'
  | '/' => some '/'
  | 'N' => some '\u0085'
  | '_' => some '\u00a0'
  | 'L' => some '\u2028'
  | 'P' => some '\u2029'
  | _ => none

/-- How many hexadecimal digits follow the letter of a long escape. -/
def escapeLength? : Char → Option Nat
  | 'x' => some 2
  | 'u' => some 4
  | 'U' => some 8
  | _ => none

/-- The character that hexadecimal digits name. -/
def namedChar (ds : List Nat) : Except DocumentError Char :=
  let n := ds.foldl (fun n d => 16 * n + d) 0
  if n < 0x110000 then .ok (Char.ofNat n)
  else if n < 0x80000000 then .error .yamlRange
  else .error .yamlOverflow

/-- So many hexadecimal digits at the start of a text, and the text after them; `atEnd` is what a
text that ends too soon means. -/
def someHexDigits (atEnd : DocumentError) : Nat → List Char →
    Except DocumentError (List Nat × List Char)
  | 0, s => .ok ([], s)
  | _ + 1, [] => .error atEnd
  | n + 1, c :: s =>
    match hexDigit? c with
    | none => .error .yamlToken
    | some d => (someHexDigits atEnd n s).map fun (ds, s) => (d :: ds, s)

/-- The line breaks at the start of a text with the blanks around them, and the text after them. -/
def quotedBreaks (atStart : Bool) : List Char → Except DocumentError (List Char × List Char)
  | [] => .ok ([], [])
  | c :: s =>
    if atStart ∧ isSeparator (c :: s) then .error .yamlToken
    else if c = ' ' ∨ c = '\t' then quotedBreaks false s
    else if isBreak c then (quotedBreaks true s).map fun (bs, t) => (breakOf c :: bs, t)
    else .ok ([], c :: s)

/-- What an escape stands for, and the text after it. -/
def escape (atEnd : DocumentError) (s : List Char) : Except DocumentError (List Char × List Char) :=
  match s with
  | [] => .error atEnd
  | c :: s =>
    match escaped? c, escapeLength? c with
    | some a, _ => .ok ([a], s)
    | none, some n => do
      let (ds, s) ← someHexDigits atEnd n s
      return ([← namedChar ds], s)
    | none, none => if isBreak c then quotedBreaks true s else .error .yamlToken

/-- The next piece of a quoted scalar and the text after it; no piece at the closing quote. -/
def quotedPiece (atEnd : DocumentError) (quote : Char) (s : List Char) :
    Except DocumentError (Option (List Char) × List Char) :=
  match s with
  | [] => .error atEnd
  | c :: t =>
    if c = quote then
      if quote = '\x27' ∧ t.head? = some quote then .ok (some [c], t.tail) else .ok (none, t)
    else if c = '\\' ∧ quote = '\x22' then
      (escape atEnd t).map fun (piece, t) => (some piece, t)
    else if c = ' ' ∨ c = '\t' ∨ isBreak c then
      let blanks := s.takeWhile fun a => a == ' ' || a == '\t'
      let rest := s.dropWhile fun a => a == ' ' || a == '\t'
      if rest.head?.any isBreak then
        (quotedBreaks false rest).map fun (bs, t) => (some (fold bs), t)
      else .ok (some blanks, rest)
    else .ok (some [c], t)

/-- The text of a quoted scalar up to its closing quote, and the text after that. Every piece takes
at least one character. -/
def quoted (atEnd : DocumentError) (quote : Char) (fuel : Nat) (s : List Char) :
    Except DocumentError (List Char × List Char) :=
  match fuel with
  | 0 => .error atEnd
  | fuel + 1 =>
    match quotedPiece atEnd quote s with
    | .error e => .error e
    | .ok (none, t) => .ok ([], t)
    | .ok (some piece, t) =>
      (quoted atEnd quote fuel t).map fun (text, t) => (piece ++ text, t)

end ShapeCheck.Yaml
