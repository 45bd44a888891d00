import ShapeCheck.Fault

/-
  Checking values against the fields of a schema. A failure of a nested object carries the failures
  inside it, each under the path that leads to it. Objects may contain themselves: an object that is
  met inside itself is a failure of its own and is not entered again, which bounds the depth of the
  check by the number of objects.
-/

namespace ShapeCheck

/-- What to say at a path in place of the default message. -/
abbrev Overrides := String → Option Value

/-- The overrides that entries give; an entry without a message gives none. -/
def Overrides.ofEntries (es : Entries) : Overrides := fun path =>
  match es.field? path with
  | some .null => none
  | message => message

/-- What is wrong with a value. -/
inductive Complaint where
  | required
  | mismatch (s : Scalar)
  | notObject (type : String)
  | circular
  | invalid (type : String)
deriving DecidableEq, Repr

/-- The default message about the value at a path. -/
def Complaint.message (path : String) : Complaint → String
  | required => path ++ " is required"
  | mismatch s => s.message path
  | notObject type => path ++ " must be an object of type " ++ type
  | circular => path ++ " contains a circular reference"
  | invalid type => path ++ " is not a valid " ++ type

/-- The path of a field of the object at a path; the root object has the empty path. -/
def joinPath (parent name : String) : String :=
  if parent = "" then name else parent ++ "." ++ name

/-- The failure of a field. -/
def Field.failure (f : Field) (m : Overrides) (path : String) (c : Complaint)
    (details : List FieldError) : FieldError where
  name := .str path
  message := (m path).getD (.str (c.message path))
  typeName := f.typeRef
  details := details

/-- The failures that a check finds in a row of fields. -/
def collect {ε α β : Type} (check : α → Except ε (Option β)) : List α → Except ε (List β)
  | [] => .ok []
  | a :: as =>
    match check a with
    | .error e => .error e
    | .ok none => collect check as
    | .ok (some b) => (collect check as).map (b :: ·)

namespace Schema

/-- Checks the value of a field, if there is one, at a path. `active` are the objects around it. -/
def checkValue (s : Schema) (h : Heap) (m : Overrides) (active : List Addr) (f : Field)
    (value : Option Value) (path : String) : Except Fault (Option FieldError) :=
  match value with
  | none => .ok (some (f.failure m path .required []))
  | some .null => .ok (some (f.failure m path .required []))
  | some v =>
    match f.scalar with
    | some k =>
      match k.run v with
      | .error e => .error (.misuse e)
      | .ok good => .ok (if good then none else some (f.failure m path (.mismatch k) []))
    | none =>
      match s.type? f.typeRef with
      | none => .error (.resolution (.undeclared (.str f.typeRef)))
      | some t =>
        match hm : h.mapping? v with
        | none => .ok (some (f.failure m path (.notObject t.name) []))
        | some (a, es) =>
          if ha : a ∈ active then .ok (some (f.failure m path .circular []))
          else
            have := Heap.unvisited_cons_lt (Heap.lt_size_of_mapping? hm) ha
            match collect (fun g => checkValue s h m (a :: active) g (es.field? g.name)
              (joinPath path g.name)) t.fields with
            | .error e => .error e
            | .ok [] => .ok none
            | .ok details => .ok (some (f.failure m path (.invalid t.name) details))
termination_by h.unvisited active

/-- The failures of the fields of an object type, in the order of the type. -/
def checkFields (s : Schema) (h : Heap) (m : Overrides) (active : List Addr) (t : ObjectType)
    (es : Entries) (parent : String) : Except Fault (List FieldError) :=
  collect (fun f => s.checkValue h m active f (es.field? f.name) (joinPath parent f.name)) t.fields

end Schema

end ShapeCheck
