import ShapeCheck.Check
import ShapeCheck.Options
import ShapeCheck.Outcome
import ShapeCheck.Value.Convert

/-
  Validation contexts: a schema, one of its types as root, message overrides, and the failures
  recorded so far. Contexts share nothing but the schema and the heap, and only cleaning changes
  the heap. Of the failures handed in from outside, those before the first refused one are recorded.
  Failures and removed keys are written to the log in passing. What cannot be written out stops a
  request there, with what it has changed by then: a validation that has recorded some fields, and a
  cleaning that is done.
-/

namespace ShapeCheck

structure Context where
  schema : Schema
  root : ObjectType
  messages : Entries
  outcome : Outcome := {}

/-- A request to a context. An object or a key may be left out. -/
inductive Request where
  | validate (object : Option Value)
  | validateOne (object key : Option Value)
  | clean (object : Option Value)
  | addInvalid (errors : Value)
  | reset
  | keyErrorMessage (key : Value)
  | keyIsInvalid (key : Value)
  | invalidKeys
  | isValid

inductive Reply where
  | done
  | verdict (b : Bool)
  | cleaned (object : Value)
  | message (m : Option Value)
  | failures (es : List FieldError)

/-- The declared type that a value names; a container names none. -/
def Schema.typeNamed (s : Schema) (name : Value) : Except Fault ObjectType :=
  if !name.isKey then .error (.misuse .notKey)
  else match s.getType name with
    | .ok t => .ok t
    | .error e => .error (.resolution e)

/-- The field that a value names, if it is one; a container names none. -/
def ObjectType.fieldNamed? (t : ObjectType) (name : Value) : Except Fault (Option Field) :=
  match name with
  | .str n => .ok (t.field? n)
  | v => if v.isKey then .ok none else .error (.misuse .notKey)

/-- Whether a key is the name of a field. -/
def ObjectType.declares (t : ObjectType) : Value → Bool
  | .str n => t.hasField n
  | _ => false

/-- Looks for what is wrong with one field of an object, the object being the outermost one. -/
def Schema.findFailure (s : Schema) (h : Heap) (m : Overrides) (t : ObjectType)
    (key object : Value) : Except Fault (Option FieldError) :=
  match t.fieldNamed? key with
  | .error e => .error e
  | .ok none => .error (.usage (.undeclaredKey key t.name t.fieldNames))
  | .ok (some f) =>
    match h.mapping? object with
    | none => .error (.misuse .noOperation)
    | some (a, es) => s.checkValue h m [a] f (es.field? f.name) f.name

/-- Whether the message of a failure, if there is one, can be written out. -/
def Heap.canNote (h : Heap) : Option FieldError → Bool
  | none => true
  | some e => h.canSpell e.message

/-- Checks one field of an object against its type. The message of a failure is written to the log
before the failure is handed on, which is a slip for an override that cannot be written out. -/
def Schema.checkField (s : Schema) (h : Heap) (m : Overrides) (t : ObjectType)
    (key object : Value) : Except Fault (Option FieldError) :=
  match s.findFailure h m t key object with
  | .error e => .error e
  | .ok e => if h.canNote e then .ok e else .error (.misuse .overlong)

namespace Heap

/-- Removes the entry under a key from the mapping at an address. -/
def removeKey (h : Heap) (a : Addr) (key : Value) : Heap :=
  match h.mappingAt? a with
  | none => h
  | some es => h.write a (.mapping (es.remove key))

/-- Removes the entries of an object that its type does not declare. Their keys are collected first
and then removed one after the other. At last they are written to the log, which is a slip for keys
that cannot be written out; what was removed is removed then. -/
def clean (h : Heap) (object : Value) (t : ObjectType) : Heap × Except Fault Unit :=
  match h.mutable? object with
  | none => (h, .error (.usage (.notMutable object)))
  | some (a, es) =>
    let extra := es.keys.filter fun k => !t.declares k
    let h' := extra.foldl (·.removeKey a) h
    (h', if extra.all h'.canSpell then .ok () else .error (.misuse .overlong))

end Heap

namespace Context

/-- A context on the declared type that a value names. The type is looked up before the overrides
are taken from their value. -/
def make (h : Heap) (s : Schema) (root messages : Value) : Except Fault Context :=
  match s.typeNamed root with
  | .error e => .error e
  | .ok t =>
    match h.entriesOf messages with
    | .error e => .error (.misuse e)
    | .ok es => .ok { schema := s, root := t, messages := es }

/-- A context on the same schema and type, with overrides of its own and no failures. -/
def renew (h : Heap) (c : Context) (messages : Value) : Except Fault Context :=
  make h c.schema (.str c.root.name) messages

def overrides (c : Context) : Overrides := .ofEntries c.messages

def isValid (c : Context) : Bool := c.outcome.isValid

/-- The recorded failures in the order of the fields. -/
def invalidKeys (c : Context) : List FieldError := c.outcome.ordered c.root.fieldNames

/-- The mapping that an operation is to work on. -/
def requireObject (h : Heap) (operation : String) (object : Option Value) :
    Except UsageError Value :=
  match object with
  | none => .error (.objectMissing operation)
  | some .null => .error (.objectMissing operation)
  | some v => if (h.mapping? v).isSome then .ok v else .error (.objectNotMapping operation v)

/-- The outcome of one field of an object. -/
def check (h : Heap) (c : Context) (object key : Value) : Except Fault (Option FieldError) :=
  c.schema.checkField h c.overrides c.root key object

/-- Records the outcomes of the named fields one after the other. -/
def recordFields (h : Heap) (c : Context) (object : Value) :
    List String → Outcome → Outcome × Except Fault Unit
  | [], o => (o, .ok ())
  | name :: names, o =>
    match c.check h object (.str name) with
    | .error e => (o, .error e)
    | .ok e => recordFields h c object names (o.record name e)

/-- Checks every field of the object and records the outcomes in place of those before. -/
def validate (h : Heap) (c : Context) (object : Option Value) : Outcome × Except Fault Bool :=
  match requireObject h "validate" object with
  | .error e => (c.outcome, .error (.usage e))
  | .ok v =>
    match recordFields h c v c.root.fieldNames c.outcome.reset with
    | (o, .ok ()) => (o, .ok o.isValid)
    | (o, .error e) => (o, .error e)

/-- Checks one field of the object and records its outcome. -/
def validateOne (h : Heap) (c : Context) (object key : Option Value) :
    Outcome × Except Fault Bool :=
  match requireObject h "validate_one" object with
  | .error e => (c.outcome, .error (.usage e))
  | .ok v =>
    match key with
    | none => (c.outcome, .error (.usage (.keyMissing c.root.name)))
    | some k =>
      match c.check h v k, k with
      | .ok e, .str name => (c.outcome.record name e, .ok e.isNone)
      | .ok e, _ => (c.outcome, .ok e.isNone)
      | .error e, _ => (c.outcome, .error e)

/-- The field error that an entry gives: one made outside, or a mapping with a name and a
message, which gets the type of the field that it names. -/
def entryError (h : Heap) (c : Context) (entry : Value) : Except Fault FieldError :=
  match entry with
  | .report _ e => .ok e
  | entry =>
    match h.mapping? entry with
    | none => .error (.usage (.badEntry entry))
    | some (_, es) =>
      match es.field? "name", es.field? "message" with
      | some name, some message =>
        match c.root.fieldNamed? name with
        | .error e => .error e
        | .ok f => .ok { name, message, typeName := f.map Field.typeRef }
      | _, _ => .error (.usage (.badEntry entry))

/-- The field that an entry is for, and the failure to record. -/
def readEntry (h : Heap) (c : Context) (entry : Value) : Except Fault (String × FieldError) :=
  match c.entryError h entry with
  | .error e => .error e
  | .ok e =>
    match c.root.fieldNamed? e.name with
    | .error f => .error f
    | .ok (some f) => .ok (f.name, e)
    | .ok none => .error (.usage (.undeclaredEntry e.name c.root.name))

/-- Records the failures of entries one after the other, up to the first that is refused. -/
def recordEntries (h : Heap) (c : Context) : List Value → Outcome → Outcome × Except Fault Unit
  | [], o => (o, .ok ())
  | entry :: entries, o =>
    match c.readEntry h entry with
    | .error e => (o, .error e)
    | .ok (name, e) => recordEntries h c entries (o.record name (some e))

/-- Records failures that were found outside. -/
def addInvalid (h : Heap) (c : Context) (errors : Value) : Outcome × Except Fault Unit :=
  match h.members? errors with
  | none => (c.outcome, .error (.misuse .notIterable))
  | some entries => recordEntries h c entries c.outcome

/-- Removes what the root type does not declare from an object. -/
def clean (h : Heap) (c : Context) (object : Option Value) : Heap × Except Fault Value :=
  match object with
  | none => (h, .error (.usage .nothingToClean))
  | some .null => (h, .error (.usage .nothingToClean))
  | some v =>
    let (h', r) := h.clean v c.root
    (h', r.map fun _ => v)

/-- The failure recorded for the field that a value names. -/
def failure? (c : Context) (key : Value) : Except Fault (Option FieldError) :=
  match key with
  | .str name => .ok (c.outcome.get? name)
  | v => if v.isKey then .ok none else .error (.misuse .notKey)

/-- The message of the failure recorded for a field; one without a message counts as none. -/
def keyErrorMessage (c : Context) (key : Value) : Except Fault (Option Value) :=
  (c.failure? key).map fun e =>
    match e.map FieldError.message with
    | some .null => none
    | m => m

def keyIsInvalid (c : Context) (key : Value) : Except Fault Bool :=
  (c.failure? key).map (·.isSome)

/-- Carries out a request. -/
def perform (h : Heap) (c : Context) : Request → Heap × Context × Except Fault Reply
  | .validate object =>
    let (o, r) := c.validate h object
    (h, { c with outcome := o }, r.map .verdict)
  | .validateOne object key =>
    let (o, r) := c.validateOne h object key
    (h, { c with outcome := o }, r.map .verdict)
  | .clean object =>
    let (h', r) := c.clean h object
    (h', c, r.map .cleaned)
  | .addInvalid errors =>
    let (o, r) := c.addInvalid h errors
    (h, { c with outcome := o }, r.map fun _ => .done)
  | .reset => (h, { c with outcome := c.outcome.reset }, .ok .done)
  | .keyErrorMessage key => (h, c, (c.keyErrorMessage key).map .message)
  | .keyIsInvalid key => (h, c, (c.keyIsInvalid key).map .verdict)
  | .invalidKeys => (h, c, .ok (.failures c.invalidKeys))
  | .isValid => (h, c, .ok (.verdict c.isValid))

/-- The spelling of a context: its word, its root type and the names of the failed fields. -/
def spell (h : Heap) (word : String) (c : Context) : String :=
  spellCall word ["root_type=" ++ Text.quote c.root.name,
    "invalid_keys=[" ++ commaList (c.invalidKeys.map fun e => h.quoted e.name) ++ "]"]

end Context

end ShapeCheck
