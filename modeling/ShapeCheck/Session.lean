import ShapeCheck.Context

/-
  Sessions: a compiled schema with its options, the heap, and contexts by name. The first context
  is the validator itself; further ones are made from a context or on another root type.
-/

namespace ShapeCheck

/-- The declarations of a value, which has to be schema text. -/
def readSource (source : Value) : Except Fault (List SourceDeclaration) :=
  match source with
  | .str text =>
    match parseSchema text with
    | .error e => .error (.text e)
    | .ok ds => .ok ds
  | v => .error (.usage (.sourceNotText v))

/-- The schema that a value describes, fields being resolved against the built-in types. -/
def compile (source : Value) : Except Fault Schema :=
  match readSource source with
  | .error e => .error e
  | .ok ds =>
    match Schema.resolve Scalar.library (ds.map SourceDeclaration.plain) with
    | .error e => .error (.resolution e)
    | .ok s => .ok s

/-- A compiled schema with its options and its own context. -/
structure Validator where
  options : Options
  context : Context

namespace Validator

/-- The type to validate against: the configured one, unless its name is empty, or else the first
input declaration. -/
def rootName? (o : Options) (s : Schema) : Option String :=
  match o.rootType with
  | some "" => s.primaryInput?
  | none => s.primaryInput?
  | some t => some t

/-- A validator with ready options. -/
def ofOptions (source : Value) (o : Options) : Except Fault Validator :=
  match compile source with
  | .error e => .error e
  | .ok s =>
    match rootName? o s with
    | none => .error (.resolution .noRoot)
    | some root =>
      match s.typeNamed (.str root) with
      | .error e => .error e
      | .ok t => .ok ⟨o, { schema := s, root := t, messages := o.entries }⟩

/-- A validator from schema text, options and further overrides. The options are read first. -/
def make (h : Heap) (source options messages : Value) : Except Fault Validator :=
  match Options.coerce h options with
  | .error e => .error e
  | .ok o =>
    match o.withMessages h messages with
    | .error e => .error e
    | .ok o => ofOptions source o

end Validator

structure Session where
  heap : Heap
  contexts : Assoc String Context

/-- A step of a session. -/
inductive Step where
  /-- a request to a context -/
  | ask (context : String) (r : Request)
  /-- a new context from the one of a name -/
  | renew (context name : String) (messages : Value)
  /-- a new context on the schema of another one, with a root type of its own -/
  | make (context name : String) (root messages : Value)

namespace Session

/-- Adds a context if it could be made. -/
def add (s : Session) (name : String) : Except Fault Context → Session × Except Fault Reply
  | .error e => (s, .error e)
  | .ok c => ({ s with contexts := s.contexts.insert name c }, .ok .done)

/-- Takes a step; a step on a context that does not exist does nothing. -/
def step (s : Session) : Step → Session × Except Fault Reply
  | .ask context r =>
    match s.contexts.get? context with
    | none => (s, .ok .done)
    | some c =>
      let (h, c, reply) := c.perform s.heap r
      (⟨h, s.contexts.insert context c⟩, reply)
  | .renew context name messages =>
    match s.contexts.get? context with
    | none => (s, .ok .done)
    | some c => s.add name (c.renew s.heap messages)
  | .make context name root messages =>
    match s.contexts.get? context with
    | none => (s, .ok .done)
    | some c => s.add name (Context.make s.heap c.schema root messages)

end Session

end ShapeCheck
