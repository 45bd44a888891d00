import ShapeCheck.Document.Basic
import ShapeCheck.Text.HexDigit
import ShapeCheck.Value.Within

/-
  Reading JSON documents. Beside the standard's values the words for no number and for the
  infinities are numbers. A number with a fraction or an exponent is a binary floating-point
  number, any other an integer of a limited number of digits. Texts hold no control characters, and
  two escapes that make a surrogate pair stand for one character.
-/

namespace ShapeCheck.Json

open ShapeCheck.Text

def isSpace (c : Char) : Bool := c == ' ' || c == '\t' || c == '\n' || c == '\r'

def skipSpaces (s : List Char) : List Char := s.dropWhile isSpace

/-- The number that four hexadecimal digits write. -/
def hex4? : List Char → Option (Nat × List Char)
  | a :: b :: c :: d :: s => do
    let ns ← [a, b, c, d].mapM hexDigit?
    some (ns.foldl (fun n d => 16 * n + d) 0, s)
  | _ => none

/-- The character of a short escape. -/
def shortEscape? : Char → Option Char
  | '\x22' => some '\x22'
  | '\\' => some '\\'
  | '/' => some '/'
  | 'b' => some '\x08'
  | 'f' => some '\x0c'
  | 'n' => some '\n'
  | 'r' => some '\r'
  | 't' => some '\t'
  | _ => none

/-- The character after the letter of a long escape, which takes a second one if the first is the
first half of a pair. -/
def longEscape? (s : List Char) : Option (Char × List Char) := do
  let (n, s) ← hex4? s
  match s with
  | '\\' :: 'u' :: t =>
    match hex4? t with
    | some (m, t) =>
      if 0xD800 ≤ n ∧ n ≤ 0xDBFF ∧ 0xDC00 ≤ m ∧ m ≤ 0xDFFF then
        some (Char.ofNat (0x10000 + (n - 0xD800) * 0x400 + (m - 0xDC00)), t)
      else some (Char.ofNat n, s)
    | none => some (Char.ofNat n, s)
  | _ => some (Char.ofNat n, s)

/-- The text up to the closing mark. -/
def text? (fuel : Nat) (s : List Char) : Option (List Char × List Char) :=
  match fuel, s with
  | 0, _ => none
  | _, [] => none
  | fuel + 1, c :: s =>
    if c = '\x22' then some ([], s)
    else if c = '\\' then
      match s with
      | 'u' :: s => do
        let (c, s) ← longEscape? s
        let (cs, s) ← text? fuel s
        some (c :: cs, s)
      | e :: s => do
        let c ← shortEscape? e
        let (cs, s) ← text? fuel s
        some (c :: cs, s)
      | [] => none
    else if c.toNat < 0x20 then none
    else do
      let (cs, s) ← text? fuel s
      some (c :: cs, s)

/-- The digits of a whole number: a zero, or digits that do not start with one. -/
def whole? : List Char → Option (List Char × List Char)
  | '0' :: s => some (['0'], s)
  | s =>
    let ds := s.takeWhile Char.isDigit
    if ds.isEmpty then none else some (ds, s.dropWhile Char.isDigit)

/-- A fraction with its point, if there is one with a digit. -/
def fraction (s : List Char) : List Char × List Char :=
  match s with
  | '.' :: t =>
    let ds := t.takeWhile Char.isDigit
    if ds.isEmpty then ([], s) else ('.' :: ds, t.dropWhile Char.isDigit)
  | _ => ([], s)

/-- An exponent with its letter, if there is one with a digit. -/
def exponent (s : List Char) : List Char × List Char :=
  match s with
  | e :: t =>
    if e = 'e' ∨ e = 'E' then
      let (sign, t) := match t with
        | '-' :: t => (['-'], t)
        | '+' :: t => (['+'], t)
        | t => ([], t)
      let ds := t.takeWhile Char.isDigit
      if ds.isEmpty then ([], s) else (e :: sign ++ ds, t.dropWhile Char.isDigit)
    else ([], s)
  | [] => ([], s)

/-- The number at the start of a text. -/
def number (s : List Char) : Except DocumentError (Document × List Char) :=
  let (negative, t) := match s with
    | '-' :: t => (true, t)
    | t => (false, t)
  match whole? t with
  | none => .error .json
  | some (ds, t) =>
    let (fraction, t) := fraction t
    let (exponent, t) := exponent t
    if fraction.isEmpty ∧ exponent.isEmpty then
      if maxDigits < ds.length then .error .overlong
      else
        let n : Int := Decimal.digitsValue ds
        .ok (.int (if negative then -n else n), t)
    else
      match Decimal.readUnsigned? negative (ds ++ fraction ++ exponent) with
      | some d => .ok (.float (Double.ofDecimal d), t)
      | none => .error .json

/-- The words for values. -/
def words : List (String × Document) := [
  ("null", .null), ("true", .bool true), ("false", .bool false), ("NaN", .float .nan),
  ("Infinity", .float (.infinite false)), ("-Infinity", .float (.infinite true))]

/-- The rest of a text that starts with a word. -/
def afterWord? : (word : List Char) → List Char → Option (List Char)
  | [], s => some s
  | w :: word, c :: s => if w = c then afterWord? word s else none
  | _ :: _, [] => none

def word? (s : List Char) : Option (Document × List Char) :=
  words.findSome? fun (w, d) => (afterWord? w.toList s).map (d, ·)

/-- What an optional result is, or the error that there is none. -/
def required {α : Type} : Option α → Except DocumentError α
  | some a => .ok a
  | none => .error .json

mutual

/-- The value at the start of a text; every level and every member takes at least one character, so
the length of the text is fuel enough. -/
def value (fuel : Nat) (s : List Char) : Except DocumentError (Document × List Char) :=
  match fuel with
  | 0 => .error .json
  | fuel + 1 =>
    match s with
    | '\x22' :: t => do
      let (cs, t) ← required (text? (t.length + 1) t)
      .ok (.text (String.ofList cs), t)
    | '[' :: t =>
      match skipSpaces t with
      | ']' :: t => .ok (.list [], t)
      | t => do
        let (ds, t) ← items fuel t
        .ok (.list ds, t)
    | '\x7b' :: t =>
      match skipSpaces t with
      | '\x7d' :: t => .ok (.map [], t)
      | t => do
        let (es, t) ← members fuel t
        .ok (.map es, t)
    | s =>
      match word? s with
      | some r => .ok r
      | none => number s

/-- The items of a list up to its closing bracket. -/
def items (fuel : Nat) (s : List Char) : Except DocumentError (List Document × List Char) :=
  match fuel with
  | 0 => .error .json
  | fuel + 1 => do
    let (d, s) ← value fuel (skipSpaces s)
    match skipSpaces s with
    | ',' :: s =>
      let (ds, s) ← items fuel s
      .ok (d :: ds, s)
    | ']' :: s => .ok ([d], s)
    | _ => .error .json

/-- The members of an object up to its closing brace. -/
def members (fuel : Nat) (s : List Char) :
    Except DocumentError (List (String × Document) × List Char) :=
  match fuel with
  | 0 => .error .json
  | fuel + 1 =>
    match skipSpaces s with
    | '\x22' :: s => do
      let (k, s) ← required (text? (s.length + 1) s)
      match skipSpaces s with
      | ':' :: s =>
        let (d, s) ← value fuel (skipSpaces s)
        let e := (String.ofList k, d)
        match skipSpaces s with
        | ',' :: s =>
          let (es, s) ← members fuel s
          .ok (e :: es, s)
        | '\x7d' :: s => .ok ([e], s)
        | _ => .error .json
      | _ => .error .json
    | _ => .error .json

end

/-- The document that a whole text writes. -/
def read (text : String) : Except DocumentError Document :=
  let s := text.toList
  match value (2 * s.length + 2) (skipSpaces s) with
  | .ok (d, rest) => if (skipSpaces rest).isEmpty then .ok d else .error .json
  | .error e => .error e

end ShapeCheck.Json
