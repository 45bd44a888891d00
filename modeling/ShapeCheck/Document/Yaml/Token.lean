import ShapeCheck.Document.Yaml.Mark

/-
  The tokens of a YAML text. Columns open and close the blocks of lists and mappings. That something
  is a key shows only at the colon after it, so the places where a key may start are kept until
  then, and the marks for a key and its mapping are put in there. Such a place is given up at the
  end of its line, or 1024 characters on.

  A text is looked through for characters that no document may hold portion by portion, as its
  tokens are called for. Only what comes before a bad portion has tokens.
-/

namespace ShapeCheck.Yaml

inductive Token where
  | blockList
  | blockMap
  | blockEnd
  | listStart
  | listEnd
  | mapStart
  | mapEnd
  /-- the dash before an item of a block -/
  | item
  | comma
  | key
  /-- the colon before a value -/
  | value
  | documentStart
  | documentEnd
  | plain (text : String)
  /-- a quoted or a block scalar -/
  | quoted (text : String)
  | anchor (name : String)
  | alias (name : String)
  | tag (mark : TagMark)
  | directive (d : Directive)
  /-- no more tokens can be told from here on -/
  | broken (e : DocumentError)
deriving DecidableEq, Repr

/-- A place where a key may start. -/
structure KeyPlace where
  /-- how many brackets are open there -/
  level : Nat
  /-- the number of the token there -/
  number : Nat
  /-- whether only a key may stand there -/
  required : Bool
  start : Cursor

structure Lexer where
  cursor : Cursor
  /-- what the end of the text means to a token that goes beyond it -/
  atEnd : DocumentError := .yamlToken
  tokens : List Token := []
  /-- how many brackets are open -/
  level : Nat := 0
  /-- the columns of the open blocks, innermost first -/
  columns : List Nat := []
  keyAllowed : Bool := true
  places : List KeyPlace := []

namespace Lexer

/-- The least column that lies within the innermost open block. -/
def inside (l : Lexer) : Nat := (l.columns.head?.map (· + 1)).getD 0

def push (l : Lexer) (t : Token) : Lexer := { l with tokens := l.tokens ++ [t] }

def insert (l : Lexer) (number : Nat) (ts : List Token) : Lexer :=
  { l with tokens := l.tokens.take number ++ ts ++ l.tokens.drop number }

/-- Puts a token for the next `n` characters. -/
def take (l : Lexer) (n : Nat) (t : Token) : Lexer :=
  { l.push t with cursor := l.cursor.skip n }

/-- Gives up places for keys; one that only a key may take cannot be given up. -/
def giveUp (l : Lexer) (p : KeyPlace → Bool) : Except DocumentError Lexer :=
  if l.places.any fun k => p k && k.required then .error .yamlToken
  else .ok { l with places := l.places.filter (!p ·) }

/-- Gives up the places that are too far back. -/
def giveUpOld (l : Lexer) : Except DocumentError Lexer :=
  l.giveUp fun k => k.start.line != l.cursor.line || l.cursor.index > k.start.index + 1024

/-- Gives up the place among the brackets that are open now. -/
def giveUpHere (l : Lexer) : Except DocumentError Lexer := l.giveUp (·.level == l.level)

/-- Keeps the place at the cursor if a key may start there. -/
def keepPlace (l : Lexer) : Except DocumentError Lexer := do
  if l.keyAllowed then
    let number := l.tokens.length
    let required := l.level == 0 && l.inside == l.cursor.column + 1
    let l ← l.giveUpHere
    return { l with places := ⟨l.level, number, required, l.cursor⟩ :: l.places }
  else return l

/-- Closes the blocks that reach further than a column, or all. -/
def close (l : Lexer) (least : Nat) : Lexer :=
  if l.level = 0 then
    let closed := l.columns.takeWhile (least ≤ ·)
    { l with columns := l.columns.drop closed.length,
             tokens := l.tokens ++ closed.map fun _ => .blockEnd }
  else l

/-- Whether something at a column opens a block. -/
def opensAt (l : Lexer) (column : Nat) : Bool := l.level == 0 && l.inside ≤ column

/-- Opens a block at the cursor, if it lies further in than the open ones. -/
def openBlock (l : Lexer) (t : Token) : Lexer :=
  if l.opensAt l.cursor.column then
    { l.push t with columns := l.cursor.column :: l.columns }
  else l

/-- How many characters blanks, comments and line breaks take at the start of a text, and whether
there are line breaks among them. -/
def gap (inComment : Bool) : List Char → Nat × Bool
  | [] => (0, false)
  | c :: s =>
    if isBreak c then ((gap false s).1 + 1, true)
    else if inComment ∨ c = ' ' ∨ c = '#' then
      let (n, hasBreak) := gap (inComment || c == '#') s
      (n + 1, hasBreak)
    else (0, false)

/-- Moves on to the next token. After a line break outside of brackets a key may start. -/
def skipGap (l : Lexer) : Lexer :=
  let cursor := if l.cursor.index = 0 ∧ l.cursor.rest.head? = some '\ufeff' then l.cursor.next
    else l.cursor
  let (n, hasBreak) := gap false cursor.rest
  { l with cursor := cursor.skip n, keyAllowed := l.keyAllowed || (hasBreak && l.level == 0) }

def documentMark (l : Lexer) (t : Token) : Except DocumentError Lexer := do
  let l ← (l.close 0).giveUpHere
  return { l with keyAllowed := false }.take 3 t

def bracketOpen (l : Lexer) (t : Token) : Except DocumentError Lexer := do
  let l ← l.keepPlace
  return { l with level := l.level + 1, keyAllowed := true }.take 1 t

def bracketClose (l : Lexer) (t : Token) : Except DocumentError Lexer := do
  let l ← l.giveUpHere
  return { l with level := l.level - 1, keyAllowed := false }.take 1 t

def comma (l : Lexer) : Except DocumentError Lexer := do
  let l ← l.giveUpHere
  return { l with keyAllowed := true }.take 1 .comma

/-- The dash before an item, which outside of brackets stands where a key may start. -/
def item (l : Lexer) : Except DocumentError Lexer := do
  if l.level = 0 ∧ !l.keyAllowed then throw .yamlToken
  let l ← (l.openBlock .blockList).giveUpHere
  return { l with keyAllowed := true }.take 1 .item

/-- The mark before a key. -/
def key (l : Lexer) : Except DocumentError Lexer := do
  if l.level = 0 ∧ !l.keyAllowed then throw .yamlToken
  let l ← (l.openBlock .blockMap).giveUpHere
  return { l with keyAllowed := l.level == 0 }.take 1 .key

/-- The colon before a value. If there is a place for a key before it, the key starts there. -/
def value (l : Lexer) : Except DocumentError Lexer := do
  match l.places.find? (·.level == l.level) with
  | some k =>
    let opens := l.opensAt k.start.column
    let l := l.insert k.number (if opens then [.blockMap, .key] else [.key])
    return { l with
      columns := if opens then k.start.column :: l.columns else l.columns
      places := l.places.filter (·.level != l.level)
      keyAllowed := false }.take 1 .value
  | none =>
    if l.level = 0 ∧ !l.keyAllowed then throw .yamlToken
    let l ← (l.openBlock .blockMap).giveUpHere
    return { l with keyAllowed := l.level == 0 }.take 1 .value

def quotedScalar (l : Lexer) (quote : Char) : Except DocumentError Lexer := do
  let l ← l.keepPlace
  let s := l.cursor.rest.tail
  let (text, rest) ← quoted l.atEnd quote (s.length + 1) s
  return { l with keyAllowed := false }.take (l.cursor.rest.length - rest.length)
    (.quoted (String.ofList text))

def plainScalar (l : Lexer) : Except DocumentError Lexer := do
  let l ← l.keepPlace
  let (text, cursor, hasBreak) := plain (l.level != 0) l.inside l.cursor.rest.length l.cursor
  return { l.push (.plain (String.ofList text)) with cursor, keyAllowed := hasBreak }

def blockScalar (l : Lexer) (folded : Bool) : Except DocumentError Lexer := do
  let l ← l.giveUpHere
  let (text, cursor) ← Yaml.blockScalar folded (max 1 l.inside) l.cursor.next
  return { l.push (.quoted (String.ofList text)) with cursor, keyAllowed := true }

/-- A mark beside a value: its token and the place after it. A key may start with it. -/
def mark {α : Type} (l : Lexer) (token : α → Token)
    (read : DocumentError → Cursor → Except DocumentError (α × Cursor)) :
    Except DocumentError Lexer := do
  let l ← l.keepPlace
  let (a, cursor) ← read l.atEnd l.cursor
  return { l.push (token a) with cursor, keyAllowed := false }

def directive (l : Lexer) : Except DocumentError Lexer := do
  let l ← (l.close 0).giveUpHere
  let (d, cursor) ← Yaml.directive l.atEnd l.cursor
  return { l.push (.directive d) with cursor, keyAllowed := false }

/-- Characters that no plain scalar starts with, beside blanks and flow marks. -/
def indicators : List Char := ['#', '&', '*', '!', '|', '>', '\x27', '\x22', '%', '@', '\x60']

/-- Whether a text starts with a plain scalar. -/
def startsPlain (inFlow : Bool) : List Char → Bool
  | [] => false
  | c :: s =>
    if c = '-' then !startsApart s
    else if c = '?' ∨ c = ':' then !inFlow && !startsApart s
    else !startsApart [c] && !isFlowMark c && !indicators.contains c

/-- Whether the text goes on with characters that cannot be looked at. -/
def isBlocked (l : Lexer) : Bool := l.cursor.rest.isEmpty && l.atEnd == .yamlCharacter

/-- The token at the cursor, or the end of all blocks at the end of the text. -/
def fetch (l : Lexer) : Except DocumentError Lexer := do
  let l := l.skipGap
  if l.isBlocked then throw l.atEnd
  let l ← l.giveUpOld
  let l := l.close (l.cursor.column + 1)
  let inFlow := l.level != 0
  let s := l.cursor.rest
  match s with
  | [] => (l.close 0).giveUpHere
  | c :: t =>
    if l.cursor.column = 0 ∧ isSeparator s then
      l.documentMark (if c = '-' then .documentStart else .documentEnd)
    else if c = '%' ∧ l.cursor.column = 0 then l.directive
    else if c = '[' then l.bracketOpen .listStart
    else if c = '\x7b' then l.bracketOpen .mapStart
    else if c = ']' then l.bracketClose .listEnd
    else if c = '\x7d' then l.bracketClose .mapEnd
    else if c = ',' then l.comma
    else if c = '-' ∧ startsApart t then l.item
    else if c = '?' ∧ (inFlow ∨ startsApart t) then l.key
    else if c = ':' ∧ (inFlow ∨ startsApart t) then l.value
    else if c = '*' then l.mark .alias anchorName
    else if c = '&' then l.mark .anchor anchorName
    else if c = '!' then l.mark .tag tagMark
    else if (c = '|' ∨ c = '>') ∧ !inFlow then l.blockScalar (c == '>')
    else if c = '\x27' ∨ c = '\x22' then l.quotedScalar c
    else if startsPlain inFlow s then l.plainScalar
    else throw .yamlToken

/-- The number of the first token that may still become a key, or of the next token. -/
def firstOpen (l : Lexer) : Nat :=
  l.places.foldl (fun n k => min n k.number) l.tokens.length

/-- The tokens from here on. A token that may still become a key is known only with what decides
that, so a failure on the way takes its place. -/
def run (l : Lexer) (fuel : Nat) : List Token :=
  match fuel with
  | 0 => l.tokens
  | fuel + 1 =>
    match l.fetch with
    | .error e => l.tokens.take l.firstOpen ++ [.broken e]
    | .ok l' =>
      if l.cursor.rest.isEmpty then l'.tokens
      else if l'.isBlocked then l.tokens.take l.firstOpen ++ [.broken l'.atEnd]
      else match l'.giveUpOld with
        | .error e => l.tokens.take l.firstOpen ++ [.broken e]
        | .ok l' => l'.run fuel

end Lexer

/-- The tokens of a text, which may end before a bad portion. Each takes at least one character, but
for the end. -/
def Token.ofPortion (s : List Char) (isCut : Bool) : List Token :=
  Lexer.run { cursor := { rest := s }, atEnd := if isCut then .yamlCharacter else .yamlToken }
    (s.length + 2)

/-- Whether a character may stand in a YAML text. -/
def isAdmitted (c : Char) : Bool :=
  c == '\t' || c == '\n' || c == '\r' || (' ' ≤ c && c ≤ '~') || c == '\u0085' ||
    ('\u00a0' ≤ c && c ≤ '\ufffd') || 0x10000 ≤ c.toNat

/-- The number of characters in the portions before the first one that holds a character that may
not stand in it. The first portion has 8192 characters and any other 4096. -/
def admittedLength (s : List Char) : Option Nat :=
  (s.findIdx? (!isAdmitted ·)).map fun n => if n < 8192 then 0 else n / 4096 * 4096

/-- The tokens of a text. -/
def Token.ofText (s : List Char) : List Token :=
  match admittedLength s with
  | none => ofPortion s false
  | some n => ofPortion (s.take n) true

end ShapeCheck.Yaml
