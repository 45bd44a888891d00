import ShapeCheck.Value.Convert

/-
  Faults put together by hand, from a family, a message and arguments by name. Each family takes
  arguments of its own and makes its circumstances from them.
-/

namespace ShapeCheck

structure RaisedFault where
  family : Family
  message : String
  /-- a mapping, or whatever was given in its place -/
  context : Value
  /-- what a family keeps apart from its circumstances -/
  attributes : Assoc String Value

namespace Family

/-- The names of the arguments that a family takes. -/
def arguments : Family → List String
  | schemaText => ["line", "column", "context"]
  | resolution => ["type_ref", "field_name", "type_name"]
  | _ => ["context", "details"]

/-- The arguments that a family keeps apart. -/
def attributeNames : Family → List String
  | schemaText => ["line", "column"]
  | resolution => ["type_ref", "field_name", "type_name"]
  | _ => []

end Family

/-- Enters what is not nothing, unless the key is there. -/
def Entries.insertDefault (es : Entries) (name : String) (v : Value) : Entries :=
  match v with
  | .null => es
  | v => if (es.field? name).isSome then es else es.insert (.str name) v

/-- Puts a fault together. Circumstances that are not given as they are make a new mapping. -/
def raiseFault (h : Heap) (family : Family) (message : String) (arguments : Assoc String Value) :
    Except Misuse (Heap × RaisedFault) :=
  let argument (name : String) : Value := (arguments.get? name).getD .null
  let attributes := family.attributeNames.map fun n => (n, argument n)
  let withEntries (es : Entries) : Heap × RaisedFault :=
    let (h, a) := h.alloc (.mapping es)
    (h, ⟨family, message, .object a, attributes⟩)
  if arguments.any fun (n, _) => !family.arguments.contains n then .error .unknownArgument
  else match family with
    | .schemaText => do
      let es ← h.entriesOf (argument "context")
      .ok (withEntries (attributes.foldl (fun es (n, v) => es.insertDefault n v) es))
    | .resolution =>
      .ok (withEntries (attributes.foldl (fun es (n, v) => es.insertDefault n v) []))
    | _ =>
      if h.isTruthy (argument "details") then
        .ok (h, ⟨family, message, argument "details", []⟩)
      else if h.isTruthy (argument "context") then
        .ok (h, ⟨family, message, argument "context", []⟩)
      else .ok (withEntries [])

end ShapeCheck
