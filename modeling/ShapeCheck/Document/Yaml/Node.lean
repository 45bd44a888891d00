import ShapeCheck.Assoc
import ShapeCheck.Document.Yaml.Tag
import ShapeCheck.Document.Yaml.Token

/-
  The nodes of a YAML document. A node may be met several times, through aliases, and even inside
  itself, so nodes are numbered and refer to each other by number. Where a node may be missing, it
  is the empty plain scalar, which stands for nothing.
-/

namespace ShapeCheck.Yaml

abbrev NodeId := Nat

inductive Content where
  | scalar (text : String)
  | list (items : List NodeId)
  | map (entries : List (NodeId × NodeId))
deriving Inhabited

structure Node where
  kind : Kind
  content : Content

/-- The nodes read so far, and what the text has said about names. -/
structure Reading where
  tokens : List Token
  nodes : Array Node := #[]
  anchors : Assoc String NodeId := []
  /-- what the handles of tags stand for -/
  handles : Assoc String String := []

abbrev ReadM := StateT Reading (Except DocumentError)

namespace ReadM

/-- The next token, if there is one. -/
def peek : ReadM (Option Token) := do
  match (← get).tokens with
  | .broken e :: _ => throw e
  | t :: _ => return some t
  | [] => return none

def advance : ReadM Unit := modify fun r => { r with tokens := r.tokens.tail }

/-- Whether the next token is one of these. -/
def isNext (ts : List Token) : ReadM Bool := return (← peek).any ts.contains

/-- Passes the token if it is there. -/
def accept (t : Token) : ReadM Bool := do
  if ← isNext [t] then
    advance
    return true
  else return false

/-- Passes the token, which has to be there. -/
def expect (t : Token) : ReadM Unit := do
  if !(← accept t) then throw .yamlStructure

/-- Numbers a new node, under a name if it has an anchor. -/
def add (anchor : Option String) (n : Node) : ReadM NodeId :=
  modifyGet fun r => (r.nodes.size, { r with
    nodes := r.nodes.push n
    anchors := match anchor with
      | some a => r.anchors.insert a r.nodes.size
      | none => r.anchors })

def setContent (id : NodeId) (c : Content) : ReadM Unit :=
  modify fun r => { r with nodes := r.nodes.modify id ({ · with content := c }) }

/-- The node of an empty plain scalar. -/
def addMissing : ReadM NodeId := add none ⟨.null, .scalar ""⟩

/-! ## Anchors and tags -/

def anchor? : ReadM (Option String) := do
  match ← peek with
  | some (.anchor a) =>
    advance
    return some a
  | _ => return none

def tag? : ReadM (Option TagMark) := do
  match ← peek with
  | some (.tag t) =>
    advance
    return some t
  | _ => return none

/-- The whole of a tag, its handle replaced by what that stands for. -/
def tagText (t : TagMark) : ReadM String := do
  match t.handle with
  | none => return t.suffix
  | some handle =>
    match (← get).handles.get? handle with
    | some text => return text ++ t.suffix
    | none => throw .yamlStructure

/-- The anchor and the tag before a node, in either order. -/
def properties : ReadM (Option String × Option String) := do
  let a ← anchor?
  let t ← tag?
  let a ← if a.isNone && t.isSome then anchor? else pure a
  match t with
  | none => return (a, none)
  | some t => return (a, some (← tagText t))

/-- An anchor must not be there already. -/
def checkAnchor (anchor : Option String) : ReadM Unit := do
  if anchor.any (← get).anchors.contains then throw .yamlComposition

/-- The kind of a node that is no scalar. -/
def collectionKind (default : Kind) (tag : Option String) : Kind :=
  match tag with
  | none | some "!" => default
  | some t => .ofTag t

/-- The kind of a scalar. The tag of an exclamation mark has it read like a plain one. -/
def scalarKind (isPlain : Bool) (tag : Option String) (text : String) : Kind :=
  match tag with
  | none => if isPlain then .ofPlain text else .text
  | some "!" => .ofPlain text
  | some t => .ofTag t

/-! ## Nodes -/

mutual

/-- Reads a node. Without `block` it must not be a block; with `level` it may be a list whose dashes
stand in the column of the mapping around it. -/
def node (fuel : Nat) (block level : Bool) : ReadM NodeId := do
  match fuel, ← peek with
  | 0, _ => throw .yamlStructure
  | _ + 1, some (.alias a) =>
    advance
    match (← get).anchors.get? a with
    | some id => return id
    | none => throw .yamlComposition
  | fuel + 1, _ =>
    let (anchor, tag) ← properties
    let scalar (isPlain : Bool) (text : String) : ReadM NodeId := do
      checkAnchor anchor
      add anchor ⟨scalarKind isPlain tag text, .scalar text⟩
    let list (read : ReadM (List NodeId)) : ReadM NodeId := do
      checkAnchor anchor
      let id ← add anchor ⟨collectionKind .list tag, .list []⟩
      setContent id (.list (← read))
      return id
    let map (read : ReadM (List (NodeId × NodeId))) : ReadM NodeId := do
      checkAnchor anchor
      let id ← add anchor ⟨collectionKind .map tag, .map []⟩
      setContent id (.map (← read))
      return id
    match ← peek, block, level with
    | some .item, _, true => list (blockItems fuel [.item, .key, .value, .blockEnd])
    | some (.plain s), _, _ =>
      advance
      scalar true s
    | some (.quoted s), _, _ =>
      advance
      scalar false s
    | some .listStart, _, _ =>
      list do
        advance
        flowItems fuel true
    | some .mapStart, _, _ =>
      map do
        advance
        flowEntries fuel true
    | some .blockList, true, _ =>
      list do
        advance
        let items ← blockItems fuel [.item, .blockEnd]
        expect .blockEnd
        return items
    | some .blockMap, true, _ =>
      map do
        advance
        let entries ← blockEntries fuel
        expect .blockEnd
        return entries
    | _, _, _ => if anchor.isSome || tag.isSome then scalar true "" else throw .yamlStructure

/-- A node, unless it is missing before one of these tokens. -/
def nodeUnless (fuel : Nat) (stops : List Token) (block level : Bool) : ReadM NodeId := do
  match fuel with
  | 0 => throw .yamlStructure
  | fuel + 1 => if ← isNext stops then addMissing else node fuel block level

/-- The node after a mark, unless the mark or the node is missing. -/
def nodeAfter (fuel : Nat) (mark : Token) (stops : List Token) (block level : Bool) :
    ReadM NodeId := do
  match fuel with
  | 0 => throw .yamlStructure
  | fuel + 1 => if ← accept mark then nodeUnless fuel stops block level else addMissing

/-- The items of a list after their dashes. -/
def blockItems (fuel : Nat) (stops : List Token) : ReadM (List NodeId) := do
  match fuel with
  | 0 => throw .yamlStructure
  | fuel + 1 =>
    if ← accept .item then
      let n ← nodeUnless fuel stops true false
      return n :: (← blockItems fuel stops)
    else return []

/-- The entries of a mapping that is a block. Each starts as a key. -/
def blockEntries (fuel : Nat) : ReadM (List (NodeId × NodeId)) := do
  match fuel with
  | 0 => throw .yamlStructure
  | fuel + 1 =>
    let stops : List Token := [.key, .value, .blockEnd]
    if ← accept .key then
      let k ← nodeUnless fuel stops true true
      let v ← nodeAfter fuel .value stops true true
      return (k, v) :: (← blockEntries fuel)
    else return []

/-- The items of a list within brackets, up to the closing one. An item that starts as a key is a
mapping of one entry. -/
def flowItems (fuel : Nat) (first : Bool) : ReadM (List NodeId) := do
  match fuel with
  | 0 => throw .yamlStructure
  | fuel + 1 =>
    if ← accept .listEnd then return []
    if !first then expect .comma
    if ← accept .listEnd then return []
    if ← accept .key then
      let id ← add none ⟨.map, .map []⟩
      let k ← nodeUnless fuel [.value, .comma, .listEnd] false false
      let v ← nodeAfter fuel .value [.comma, .listEnd] false false
      setContent id (.map [(k, v)])
      return id :: (← flowItems fuel false)
    let n ← node fuel false false
    return n :: (← flowItems fuel false)

/-- The entries of a mapping within braces, up to the closing one. -/
def flowEntries (fuel : Nat) (first : Bool) : ReadM (List (NodeId × NodeId)) := do
  match fuel with
  | 0 => throw .yamlStructure
  | fuel + 1 =>
    if ← accept .mapEnd then return []
    if !first then expect .comma
    if ← accept .mapEnd then return []
    if ← accept .key then
      let k ← nodeUnless fuel [.value, .comma, .mapEnd] false false
      let v ← nodeAfter fuel .value [.comma, .mapEnd] false false
      return (k, v) :: (← flowEntries fuel false)
    let k ← node fuel false false
    let v ← addMissing
    return (k, v) :: (← flowEntries fuel false)

end

/-! ## Documents -/

/-- The handles that every document has. -/
def commonHandles : Assoc String String := [("!", "!"), ("!!", commonTag)]

/-- Reads the directives before a document. There is at most one of a version, which must be one of
the first, and at most one for each handle. -/
def directives (fuel : Nat) (hasVersion : Bool) : ReadM Unit := do
  match fuel, ← peek with
  | fuel + 1, some (.directive d) =>
    advance
    match d with
    | .version major =>
      if hasVersion || major != 1 then throw .yamlStructure
      directives fuel true
    | .handle name text =>
      if (← get).handles.contains name then throw .yamlStructure
      modify fun r => { r with handles := r.handles.insert name text }
      directives fuel hasVersion
    | .other => directives fuel hasVersion
  | _, _ => return ()

/-- Reads the directives of a document and its first mark. -/
def documentStart : ReadM Unit := do
  modify ({ · with handles := [] })
  directives (← get).tokens.length false
  modify fun r => { r with
    handles := r.handles ++ commonHandles.filter fun (name, _) => !r.handles.contains name }
  expect .documentStart

/-- Passes the marks at the end of a document. -/
def documentEnds (fuel : Nat) : ReadM Unit := do
  match fuel with
  | 0 => return ()
  | fuel + 1 => if ← accept .documentEnd then documentEnds fuel

/-- The root of the single document, unless there is none. A call without a token of its own leads
to one with at least one, within three. -/
def root? : ReadM (Option NodeId) := do
  let size := (← get).tokens.length
  let fuel := 4 * size + 4
  let root ← match ← peek with
    | none => return none
    | some .documentStart | some (.directive _) => do
      documentStart
      match ← peek with
      | none | some .documentStart | some .documentEnd | some (.directive _) => addMissing
      | _ => node fuel true false
    | _ => do
      modify ({ · with handles := commonHandles })
      node fuel true false
  documentEnds size
  if (← peek).isSome then
    documentStart
    throw .yamlComposition
  return some root

end ReadM

/-- The nodes of a text and the root among them, if there is a document. -/
def Node.ofText (s : List Char) : Except DocumentError (Option NodeId × Array Node) := do
  let (root, r) ← ReadM.root?.run { tokens := Token.ofText s }
  return (root, r.nodes)

end ShapeCheck.Yaml
