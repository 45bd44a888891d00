import ShapeCheck.Value.Key
import ShapeCheck.Value.Misuse

/-
  Equality of values by content. A view equals what it views, mappings are equal whatever the order
  of their entries, and a container that is met inside itself equals nothing. Parts are compared in
  order up to the first that differ, and comparing a decimal that signals with a number is a slip.
-/

namespace ShapeCheck

/-- Whether two sets of options are equal, whatever the order of their messages. -/
def Options.same (o p : Options) : Bool :=
  o.rootType == p.rootType && o.messages.length == p.messages.length &&
    o.messages.all fun (k, m) => p.messages.get? k == some m

namespace Value

def isNumber (v : Value) : Bool := v.numberForm?.isSome

/-- Whether a value is a decimal that no operation takes silently. -/
def isSignaling : Value → Bool
  | .decimal (.nan _ signaling _) => signaling
  | _ => false

/-- Whether two values without parts are equal. Of the offset of a time only whole seconds
count. -/
def equalPlain (v w : Value) : Except Misuse Bool :=
  match v, w with
  | .time s, .time t => .ok (s.offset.isSome == t.offset.isSome && s.seconds == t.seconds &&
      s.clock.micro == t.clock.micro)
  | v, w =>
    if v.isNumber && w.isNumber && (v.isSignaling || w.isSignaling) then .error .notNumber
    else .ok (v.sameKey w)

end Value

namespace Heap

mutual

/-- Whether two values have equal content; `opened` are the containers around the first one. -/
def equal (h : Heap) (opened : List Addr) (v w : Value) : Except Misuse Bool :=
  match v with
  | .tuple _ vs => match w with
    | .tuple _ ws => h.equalAll opened vs ws
    | _ => .ok false
  | .set vs => match w with
    | .set ws => .ok (vs.length == ws.length && vs.all fun v => ws.any v.sameKey)
    | _ => .ok false
  | .report _ e => match w with
    | .report _ f => h.equalError opened e f
    | _ => .ok false
  | .object a =>
    match hm : h.mapping? (.object a), h.mapping? w with
    | some (b, es), some (_, fs) =>
      if ho : b ∈ opened then .ok false
      else
        have := unvisited_cons_lt (lt_size_of_mapping? hm) ho
        if es.length = fs.length then h.equalEntries (b :: opened) es fs else .ok false
    | none, none =>
      match hc : h.cell? a with
      | some (.list vs) => match w with
        | .object b => match h.cell? b with
          | some (.list ws) =>
            if ho : a ∈ opened then .ok false
            else
              have := unvisited_cons_lt (lt_size_of_cell? hc) ho
              if vs.length = ws.length then h.equalAll (a :: opened) vs ws else .ok false
          | _ => .ok false
        | _ => .ok false
      | some (.options o) => .ok ((h.options? w).any o.same)
      | _ => .ok false
    | _, _ => .ok false
  | v => v.equalPlain w
termination_by (h.unvisited opened, sizeOf v)

def equalAll (h : Heap) (opened : List Addr) (vs ws : List Value) : Except Misuse Bool :=
  match vs, ws with
  | [], [] => .ok true
  | v :: vs, w :: ws => do
    if ← h.equal opened v w then h.equalAll opened vs ws else return false
  | _, _ => .ok false
termination_by (h.unvisited opened, sizeOf vs)

/-- Whether each entry has a counterpart among the others. -/
def equalEntries (h : Heap) (opened : List Addr) (es fs : List (Value × Value)) :
    Except Misuse Bool :=
  match es with
  | [] => .ok true
  | (k, v) :: es =>
    match fs.find? fun f => f.1.sameKey k with
    | some f => do
      if ← h.equal opened v f.2 then h.equalEntries opened es fs else return false
    | none => .ok false
termination_by (h.unvisited opened, sizeOf es)

def equalError (h : Heap) (opened : List Addr) (e f : FieldError) : Except Misuse Bool :=
  match e with
  | ⟨name, message, typeName, details⟩ => do
    if !(← h.equal opened name f.name) then return false
    if !(← h.equal opened message f.message) then return false
    if typeName == f.typeName then h.equalErrors opened details f.details else return false
termination_by (h.unvisited opened, sizeOf e)

def equalErrors (h : Heap) (opened : List Addr) (es fs : List FieldError) :
    Except Misuse Bool :=
  match es, fs with
  | [], [] => .ok true
  | e :: es, f :: fs => do
    if ← h.equalError opened e f then h.equalErrors opened es fs else return false
  | _, _ => .ok false
termination_by (h.unvisited opened, sizeOf es)

end

end Heap

end ShapeCheck
