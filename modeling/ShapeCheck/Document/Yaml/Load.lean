import ShapeCheck.Document.Yaml.Node
import ShapeCheck.Document.Yaml.Scalar
import ShapeCheck.Value.Scatter

/-
  Entering the nodes of a YAML document into a heap. A container is entered empty when it is met and
  filled when all that was met before it has been filled, so a node can be its own item, and of two
  faults the one further out is found first. Of entries under one key the last counts, in the place
  of the first; entries that are merged into a mapping come before its own.
-/

namespace ShapeCheck.Yaml

/-- The nodes with what has become of them. -/
structure Loading where
  heap : Heap
  nodes : Array Node
  values : List (NodeId × Value) := []
  /-- the containers that are still to be filled -/
  waiting : List (NodeId × Value) := []

abbrev LoadM := StateT Loading (Except DocumentError)

namespace LoadM

def node (id : NodeId) : LoadM Node :=
  return (← get).nodes.getD id ⟨.unknown, .scalar ""⟩

def entriesOf (id : NodeId) : LoadM (List (NodeId × NodeId)) := do
  match (← node id).content with
  | .map es => return es
  | _ => throw .yamlValue

def kindOf (id : NodeId) : LoadM Kind := return (← node id).kind

def setNode (id : NodeId) (n : Node) : LoadM Unit :=
  modify fun l => { l with nodes := l.nodes.setIfInBounds id n }

/-! ## Merging -/

mutual

/-- Puts what is merged into a mapping in front of its own entries. A mark for a value that is a key
is a text from then on. A mapping that is met again has nothing left to be merged into it. -/
def flatten (fuel : Nat) (id : NodeId) : LoadM Unit := do
  match fuel with
  | 0 => throw .yamlValue
  | fuel + 1 =>
    let n ← node id
    let es ← entriesOf id
    let kinds ← es.mapM fun e => kindOf e.1
    for (e, k) in es.zip kinds do
      if k == .value then setNode e.1 { ← node e.1 with kind := .text }
    let marked := (es.zip kinds).filter (·.2 == .merge)
    let own := ((es.zip kinds).filter (·.2 != .merge)).map (·.1)
    setNode id { n with content := .map own }
    let merged ← mergedAll fuel (marked.map fun e => e.1.2)
    let own ← entriesOf id
    setNode id { n with content := .map (merged ++ own) }

/-- The entries that the values of merging keys give: those of a mapping, or those of the mappings
of a list, of which the first wins and therefore comes last. -/
def mergedAll (fuel : Nat) (ids : List NodeId) : LoadM (List (NodeId × NodeId)) := do
  match ids with
  | [] => return []
  | id :: ids =>
    let es ← match (← node id).content with
      | .scalar _ => throw .yamlValue
      | .map _ =>
        flatten fuel id
        entriesOf id
      | .list items =>
        let parts ← items.mapM fun item => do
          let _ ← entriesOf item
          flatten fuel item
          entriesOf item
        pure parts.reverse.flatten
    return es ++ (← mergedAll fuel ids)

end

/-! ## Values -/

/-- The text of a scalar. A mapping with a mark for a value has the text of that. -/
def textOf (fuel : Nat) (id : NodeId) : LoadM String := do
  match fuel, (← node id).content with
  | _, .scalar text => return text
  | fuel + 1, .map es =>
    let kinds ← es.mapM fun e => kindOf e.1
    match (es.zip kinds).find? (·.2 == .value) with
    | some ((_, v), _) => textOf fuel v
    | none => throw .yamlValue
  | _, _ => throw .yamlValue

/-- A container that is to be filled later. -/
def await (id : NodeId) (v : Value) : LoadM Value := do
  modify fun l => { l with waiting := l.waiting ++ [(id, v)] }
  return v

/-- A fresh container that is to be filled later. -/
def container (id : NodeId) (c : Cell) : LoadM Value := do
  let a ← modifyGet fun l => let (h, a) := l.heap.alloc c; (a, { l with heap := h })
  await id (.object a)

/-- The value of a scalar. -/
def scalar (id : NodeId) (kind : Kind) : LoadM Value := do
  let text ← textOf (← get).nodes.size id
  liftExcept (scalarValue kind text)
where
  liftExcept (r : Except DocumentError Value) : LoadM Value := StateT.lift r

def isNan : Value → Bool
  | .float .nan => true
  | _ => false

/-- Enters a value under a key. What is no number is one key here. -/
def enter (es : Entries) (e : Value × Value) : Entries :=
  match isNan e.1, es.findIdx? fun f => isNan f.1 with
  | true, some i => es.modify i fun f => (f.1, e.2)
  | true, none => es ++ [e]
  | false, _ => es.insert e.1 e.2

/-- A set, as far as its members can be told before they are met. -/
def setOf (id : NodeId) : LoadM Value := do
  flatten ((← get).nodes.size + 2) id
  let keys ← (← entriesOf id).mapM fun (k, _) => do scalar k (← kindOf k)
  return Value.setOfKeys (keys.foldl (fun es k => enter es (k, .null)) []).keys

/-- The value of a node, which is the same each time. -/
def value (id : NodeId) : LoadM Value := do
  match (← get).values.lookup id with
  | some v => return v
  | none =>
    let v ← match ← kindOf id with
      | .list | .entries => container id (.list [])
      | .map => container id (.mapping [])
      | .set =>
        match (setOf id).run' (← get) with
        | .ok v => await id v
        | .error _ => await id (.set [])
      | kind => scalar id kind
    modify fun l => { l with values := (id, v) :: l.values }
    return v

/-- The entries of a mapping. -/
def fullEntries (id : NodeId) : LoadM Entries := do
  flatten ((← get).nodes.size + 2) id
  let es ← (← entriesOf id).mapM fun (k, v) => do
    let k ← value k
    if !k.isKey then throw .yamlValue
    return (k, ← value v)
  return es.foldl enter []

/-- The items of a list. -/
def itemsOf (id : NodeId) : LoadM (List NodeId) := do
  match (← node id).content with
  | .list items => return items
  | _ => throw .yamlValue

/-- The single entry of a mapping as a tuple. -/
def entryOf (id : NodeId) : LoadM Value := do
  match ← entriesOf id with
  | [(k, v)] =>
    let k ← value k
    let v ← value v
    modifyGet fun l => let (h, a) := l.heap.alloc .taken; (.tuple a [k, v], { l with heap := h })
  | _ => throw .yamlValue

/-- Fills a container. -/
def fill (id : NodeId) (v : Value) : LoadM Unit := do
  let cell ← match ← kindOf id with
    | .list => pure (Cell.list (← (← itemsOf id).mapM value))
    | .entries => pure (Cell.list (← (← itemsOf id).mapM entryOf))
    | _ => pure (Cell.mapping (← fullEntries id))
  match v with
  | .object a => modify fun l => { l with heap := l.heap.write a cell }
  | _ => return ()

/-- Fills the containers that wait. Every node waits at most once. -/
def fillAll (fuel : Nat) : LoadM Unit := do
  match fuel, (← get).waiting with
  | fuel + 1, (id, v) :: rest =>
    modify fun l => { l with waiting := rest }
    fill id v
    fillAll fuel
  | _, _ => return ()

end LoadM

/-- Makes every line end in a line feed alone. -/
def plainLines : List Char → List Char
  | '\r' :: '\n' :: s => '\n' :: plainLines s
  | '\r' :: s => '\n' :: plainLines s
  | c :: s => c :: plainLines s
  | [] => []

/-- Enters the document that a whole text writes; an empty text writes nothing. -/
def load (h : Heap) (text : String) : Except DocumentError (Heap × Value) := do
  match ← Node.ofText (plainLines text.toList) with
  | (none, _) => return (h, .null)
  | (some root, nodes) =>
    let build : LoadM Value := do
      let v ← LoadM.value root
      LoadM.fillAll nodes.size
      return v
    let (v, l) ← build.run { heap := h, nodes }
    return (l.heap, v)

end ShapeCheck.Yaml
