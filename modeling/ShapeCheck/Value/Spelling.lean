import ShapeCheck.Calendar.Text
import ShapeCheck.Number.Shortest
import ShapeCheck.Text.Quoted
import ShapeCheck.Value.Heap

/-
  The spelling of values in messages. Inside a container, or where a message quotes a value, texts
  stand between quotation marks (`quoted`); elsewhere a text, a date and a number stand for
  themselves (`plain`). A container, a tuple or a field error met inside itself is cut short.
-/

namespace ShapeCheck

open ShapeCheck.Calendar

/-- Members in a row with commas between them. -/
def commaList (items : List String) : String := ", ".intercalate items

/-- A row of values in round brackets; a single one is followed by a comma. -/
def spellRow : List String → String
  | [s] => "(" ++ s ++ ",)"
  | items => "(" ++ commaList items ++ ")"

def spellBool (b : Bool) : String := if b then "True" else "False"

/-- A call with its arguments. -/
def spellCall (name : String) (arguments : List String) : String :=
  name ++ "(" ++ commaList arguments ++ ")"

/-- The arguments of a time of day: a second and a microsecond only if they are needed. -/
def clockArguments (t : Clock) : List String :=
  [toString t.hour, toString t.minute] ++
    (if t.micro ≠ 0 then [toString t.second, toString t.micro]
      else if t.second ≠ 0 then [toString t.second] else [])

/-- An offset in microseconds, counted in days from below and in what is left of them. -/
def spellOffset (offset : Int) : String :=
  if offset = 0 then "datetime.timezone.utc"
  else
    let days := offset / dayMicros
    let left := offset % dayMicros
    let part (name : String) (n : Int) := if n = 0 then [] else [name ++ "=" ++ toString n]
    spellCall "datetime.timezone" [spellCall "datetime.timedelta"
      (part "days" days ++ part "seconds" (left / 1000000) ++ part "microseconds" (left % 1000000))]

def offsetArgument (offset : Option Int) : List String :=
  match offset with
  | none => []
  | some o => ["tzinfo=" ++ spellOffset o]

def spellOptionalText (s : Option String) : String :=
  match s with
  | none => "None"
  | some s => Text.quote s

def spellOptions (o : Options) : String :=
  spellCall "ValidatorConfig"
    ["custom_messages=\x7b" ++
        commaList (o.messages.map fun (k, m) => Text.quote k ++ ": " ++ Text.quote m) ++ "\x7d",
      "root_type=" ++ spellOptionalText o.rootType]

namespace Heap

mutual

/-- The spelling of a value inside a container. The containers around it are `opened`, the tuples
and field errors around it `around`. -/
def spell (h : Heap) (opened around : List Addr) (v : Value) : String :=
  match v with
  | .null => "None"
  | .bool b => spellBool b
  | .int n => toString n
  | .float x => x.toText
  | .str s => Text.quote s
  | .bytes bs => Text.quoteBytes bs
  | .date d => spellCall "datetime.date" [toString d.year, toString d.month, toString d.day]
  | .moment m => spellCall "datetime.datetime"
      ([toString m.date.year, toString m.date.month, toString m.date.day] ++
        clockArguments m.clock ++ offsetArgument m.offset)
  | .time t => spellCall "datetime.time" (clockArguments t.clock ++ offsetArgument t.offset)
  | .decimal d => spellCall "Decimal" [Text.quote d.toText]
  | .fraction q => spellCall "Fraction" [toString q.num, toString q.den]
  | .tuple a items =>
    if a ∈ around then "(...)" else spellRow (h.spellAll opened (a :: around) items)
  | .set items =>
    if items.isEmpty then "set()"
    else "\x7b" ++ commaList (h.spellAll opened around items) ++ "\x7d"
  | .object a =>
    match hc : h.cell? a with
    | some (.options o) => spellOptions o
    | some (.list items) =>
      if ho : a ∈ opened then "[...]"
      else
        have := unvisited_cons_lt (lt_size_of_cell? hc) ho
        "[" ++ commaList (h.spellAll (a :: opened) around items) ++ "]"
    | some (.mapping es) =>
      if ho : a ∈ opened then "\x7b...\x7d"
      else
        have := unvisited_cons_lt (lt_size_of_cell? hc) ho
        "\x7b" ++ commaList (h.spellEntries (a :: opened) around es) ++ "\x7d"
    | some (.view t) =>
      match ht : h.cell? t with
      | some (.mapping es) =>
        if ho : t ∈ opened then "mappingproxy(\x7b...\x7d)"
        else
          have := unvisited_cons_lt (lt_size_of_cell? ht) ho
          "mappingproxy(\x7b" ++ commaList (h.spellEntries (t :: opened) around es) ++ "\x7d)"
      | _ => "None"
    | _ => "None"
  | .report a e => if a ∈ around then "..." else h.spellError opened (a :: around) e
termination_by (h.unvisited opened, sizeOf v)

def spellAll (h : Heap) (opened around : List Addr) (vs : List Value) : List String :=
  match vs with
  | [] => []
  | v :: vs => h.spell opened around v :: h.spellAll opened around vs
termination_by (h.unvisited opened, sizeOf vs)

def spellEntries (h : Heap) (opened around : List Addr) (es : List (Value × Value)) :
    List String :=
  match es with
  | [] => []
  | (k, v) :: es =>
    (h.spell opened around k ++ ": " ++ h.spell opened around v) ::
      h.spellEntries opened around es
termination_by (h.unvisited opened, sizeOf es)

def spellError (h : Heap) (opened around : List Addr) (e : FieldError) : String :=
  match e with
  | ⟨name, message, typeName, details⟩ =>
    spellCall "FieldError" ["name=" ++ h.spell opened around name,
      "message=" ++ h.spell opened around message,
      "type_name=" ++ spellOptionalText typeName,
      "details=" ++ spellRow (h.spellErrors opened around details)]
termination_by (h.unvisited opened, sizeOf e)

def spellErrors (h : Heap) (opened around : List Addr) (es : List FieldError) : List String :=
  match es with
  | [] => []
  | e :: es => h.spellError opened around e :: h.spellErrors opened around es
termination_by (h.unvisited opened, sizeOf es)

end

/-- A value as a message quotes it. -/
def quoted (h : Heap) (v : Value) : String := h.spell [] [] v

/-- A value as a message names it. -/
def plain (h : Heap) : Value → String
  | .str s => s
  | .date d => d.isoText
  | .moment m => m.isoText ' '
  | .time t => t.isoText
  | .decimal d => d.toText
  | .fraction q => if q.den = 1 then toString q.num else toString q.num ++ "/" ++ toString q.den
  | v => h.quoted v

end Heap

end ShapeCheck
