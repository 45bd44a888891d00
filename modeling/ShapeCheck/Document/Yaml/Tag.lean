import ShapeCheck.Number.Decimal

/-
  The kinds of YAML nodes. A tag names the kind of a node. A plain scalar without a tag has the
  first kind whose form its text has: nothing, a truth value, an integer, a number, a date or a
  moment, or one of the two marks for merging and for a value; any other is text.
-/

namespace ShapeCheck.Yaml

inductive Kind where
  | null
  | bool
  | int
  | float
  | binary
  | moment
  | text
  | list
  | map
  | set
  /-- a list of entries -/
  | entries
  /-- a key whose value is merged into the mapping around it -/
  | merge
  /-- a key whose value stands for the mapping around it -/
  | value
  | unknown
deriving DecidableEq, Repr

/-- What the common tags start with. -/
def commonTag : String := "tag:yaml.org,2002:"

/-- The common tags. -/
def kindsByTag : List (String × Kind) := [
  ("null", .null), ("bool", .bool), ("int", .int), ("float", .float), ("binary", .binary),
  ("timestamp", .moment), ("str", .text), ("seq", .list), ("map", .map), ("set", .set),
  ("omap", .entries), ("pairs", .entries), ("merge", .merge), ("value", .value)]

/-- The kind that a tag names. -/
def Kind.ofTag (tag : String) : Kind :=
  ((kindsByTag.find? fun (word, _) => commonTag ++ word == tag).map (·.2)).getD .unknown

/-! ## Forms of plain scalars -/

/-- The three letter cases in which a word is known: small, with a capital, and all capitals. -/
def casesOf (word : String) : List String :=
  match word.toList with
  | [] => [word]
  | c :: cs => [word, String.ofList (c.toUpper :: cs), String.ofList (word.toList.map Char.toUpper)]

def isNull (s : String) : Bool := s = "" ∨ s = "~" ∨ s ∈ casesOf "null"

/-- The words for the truth values. -/
def boolWords : List (String × Bool) := [
  ("yes", true), ("no", false), ("true", true), ("false", false), ("on", true), ("off", false)]

def isBool (s : String) : Bool := boolWords.any fun (word, _) => s ∈ casesOf word

/-- Whether all characters are underscores or meet the test, and there is one at all. -/
def areDigits (p : Char → Bool) (ds : List Char) : Bool :=
  !ds.isEmpty && ds.all fun c => p c || c == '_'

/-- The parts of a text between its colons. -/
def splitColons (s : List Char) : List (List Char) :=
  match s with
  | [] => [[]]
  | c :: s =>
    match splitColons s with
    | part :: parts => if c = ':' then [] :: part :: parts else (c :: part) :: parts
    | [] => [[c]]

/-- Whether a part may follow a colon in a number of base sixty. -/
def isSixtieth : List Char → Bool
  | [a] => a.isDigit
  | [a, b] => '0' ≤ a && a ≤ '5' && b.isDigit
  | _ => false

/-- Whether a text is an integer without its sign: binary, octal, decimal, hexadecimal or of base
sixty. -/
def isNatural (s : List Char) : Bool :=
  match s with
  | ['0'] => true
  | '0' :: 'b' :: ds => areDigits (fun c => c == '0' || c == '1') ds
  | '0' :: 'x' :: ds =>
    areDigits (fun c => c.isDigit || ('a' ≤ c.toLower && c.toLower ≤ 'f')) ds
  | '0' :: ds => areDigits (fun c => '0' ≤ c && c ≤ '7') ds
  | s =>
    match splitColons s with
    | [] => false
    | head :: parts =>
      head.head?.any (fun c => '1' ≤ c && c ≤ '9') && areDigits Char.isDigit head &&
        parts.all isSixtieth

def isInt (s : String) : Bool := isNatural (Decimal.splitSign s.toList).2

/-- Whether a text is an exponent with a sign, or no exponent at all. -/
def isExponent : List Char → Bool
  | [] => true
  | e :: sign :: ds =>
    (e == 'e' || e == 'E') && (sign == '-' || sign == '+') && !ds.isEmpty && ds.all Char.isDigit
  | _ => false

def isDigitOrLine (c : Char) : Bool := c.isDigit || c == '_'

/-- Whether a text is a number with a point, without its sign. Without digits before the point
there must be one after it, and no sign. -/
def isPointed (signed : Bool) (s : List Char) : Bool :=
  let whole := s.takeWhile isDigitOrLine
  match s.dropWhile isDigitOrLine with
  | '.' :: rest =>
    let places := rest.takeWhile isDigitOrLine
    let wholeFits :=
      if whole.isEmpty then !signed && places.head?.any Char.isDigit
      else whole.head?.any Char.isDigit
    wholeFits && isExponent (rest.dropWhile isDigitOrLine)
  | _ => false

/-- Whether a text is a number of base sixty with a point, without its sign. -/
def isPointedSixtieths (s : List Char) : Bool :=
  match s.dropWhile (· != '.') with
  | '.' :: places =>
    match splitColons (s.takeWhile (· != '.')) with
    | head :: part :: parts =>
      head.head?.any Char.isDigit && areDigits Char.isDigit head &&
        (part :: parts).all isSixtieth && places.all isDigitOrLine
    | _ => false
  | _ => false

def isFloat (s : String) : Bool :=
  let body := (Decimal.splitSign s.toList).2
  String.ofList body ∈ [".inf", ".Inf", ".INF"] || s ∈ [".nan", ".NaN", ".NAN"] ||
    isPointed (body.length != s.length) body || isPointedSixtieths body

/-! ## Dates -/

/-- A row of `least` to `most` digits at the start of a text, as many as there are. -/
def someDigits? (least most : Nat) (s : List Char) : Option (List Char × List Char) :=
  let ds := (s.take most).takeWhile Char.isDigit
  if ds.length < least then none else some (ds, s.drop ds.length)

def skip? (c : Char) : List Char → Option (List Char)
  | d :: s => if c = d then some s else none
  | [] => none

/-- The parts of a written moment, which need not exist. -/
structure WrittenMoment where
  year : List Char
  month : List Char
  day : List Char
  /-- hour, minute, second and the places after the point -/
  clock : Option (List Char × List Char × List Char × List Char) := none
  /-- sign, hours and minutes of an offset; universal time has none of them -/
  zone : Option (Option (Char × List Char × List Char)) := none

def isBlankMark (c : Char) : Bool := c == ' ' || c == '\t'

/-- The offset up to the end of a text. Blanks may stand before it. -/
def zone? (s : List Char) : Option (Option (Option (Char × List Char × List Char))) :=
  match s.dropWhile isBlankMark with
  | [] => if s.isEmpty then some none else none
  | ['Z'] => some (some none)
  | sign :: s => do
    let (hours, s) ← someDigits? 1 2 s
    let minutes ← match s with
      | [] => some []
      | s => do
        let (m, s) ← someDigits? 2 2 (← skip? ':' s)
        if s.isEmpty then some m else none
    if sign = '+' ∨ sign = '-' then some (some (some (sign, hours, minutes))) else none

/-- The parts of a date, or of a date and a time. -/
def writtenMoment? (s : List Char) : Option WrittenMoment := do
  let (year, s) ← someDigits? 4 4 s
  let (month, s) ← someDigits? 1 2 (← skip? '-' s)
  let (day, s) ← someDigits? 1 2 (← skip? '-' s)
  match s with
  | [] => some { year, month, day }
  | c :: t =>
    let s := if isBlankMark c then t.dropWhile isBlankMark else t
    if c ≠ 'T' ∧ c ≠ 't' ∧ !isBlankMark c then none
    else
      let (hour, s) ← someDigits? 1 2 s
      let (minute, s) ← someDigits? 2 2 (← skip? ':' s)
      let (second, s) ← someDigits? 2 2 (← skip? ':' s)
      let (places, s) := match s with
        | '.' :: s => (s.takeWhile Char.isDigit, s.dropWhile Char.isDigit)
        | s => ([], s)
      let zone ← zone? s
      some { year, month, day, clock := some (hour, minute, second, places), zone }

/-- Whether a text is a date or a moment. A date alone has two digits for month and day. -/
def isMoment (s : String) : Bool :=
  match writtenMoment? s.toList with
  | none => false
  | some m => m.clock.isSome || (m.month.length == 2 && m.day.length == 2)

/-- A text without a line break at its end. -/
def withoutBreak (s : String) : String :=
  match s.toList.reverse with
  | '\n' :: cs => String.ofList cs.reverse
  | _ => s

/-- The kind of a scalar without a tag. A line break at the end of its text counts for nothing. -/
def Kind.ofPlain (text : String) : Kind :=
  let s := withoutBreak text
  if text = "" ∨ (s ≠ "" ∧ isNull s) then .null
  else if isBool s then .bool
  else if isFloat s then .float
  else if isInt s then .int
  else if s = "<<" then .merge
  else if isMoment s then .moment
  else if s = "=" then .value
  else .text

end ShapeCheck.Yaml
