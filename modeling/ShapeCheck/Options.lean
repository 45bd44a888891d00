import ShapeCheck.Fault
import ShapeCheck.Value.Order

/-
  Options from values: message overrides from texts to texts, and the name of the type to validate
  against. Options may also be merged with further overrides, which win over those they have.
-/

namespace ShapeCheck.Options

/-- The overrides that entries give, all of whose keys and messages have to be texts. -/
def textMessages : Entries → Except OptionsError (List (String × String))
  | [] => .ok []
  | (.str k, .str m) :: es => (textMessages es).map ((k, m) :: ·)
  | (k, m) :: _ => .error (.badMessage k m)

/-- The overrides that a value gives, if it is given at all. -/
def messagesOf (h : Heap) : Option Value → Except OptionsError (List (String × String))
  | none => .ok []
  | some v =>
    match h.mapping? v with
    | none => .error (.messagesNotMapping v)
    | some (_, es) => textMessages es

/-- The name of a root type, which may be nothing. -/
def rootOf : Value → Except OptionsError (Option String)
  | .null => .ok none
  | .str t => .ok (some t)
  | v => .error (.rootNotText v)

/-- Options with the given overrides and root type. -/
def make (h : Heap) (messages : Option Value) (root : Value) : Except Fault Options :=
  match messagesOf h messages with
  | .error e => .error (.options e)
  | .ok messages =>
    match rootOf root with
    | .error e => .error (.options e)
    | .ok root => .ok ⟨messages, root⟩

/-- Options from arguments by name. -/
def ofArguments (h : Heap) (arguments : Assoc String Value) : Except Fault Options :=
  if arguments.any fun a => !knownOptions.contains a.1 then .error (.misuse .unknownArgument)
  else make h (arguments.get? "custom_messages") ((arguments.get? "root_type").getD .null)

/-- The keys of a mapping that name no option. -/
def unknownKeys (es : Entries) : List Value :=
  es.keys.filter fun k => !knownOptions.any fun n => k == .str n

/-- Options from a mapping of options. Overrides that count as false are none at all. -/
def ofValue (h : Heap) (data : Value) : Except Fault Options :=
  match h.mapping? data with
  | none => .error (.options (.notOptions data))
  | some (_, es) =>
    match unknownKeys es with
    | [] =>
      make h ((es.field? "custom_messages").filter h.isTruthy)
        ((es.field? "root_type").getD .null)
    | unknown =>
      match Value.sort unknown with
      | .error e => .error (.misuse e)
      | .ok keys => .error (.options (.unknownOptions keys))

/-- Options from options, from a mapping, or from nothing. -/
def coerce (h : Heap) (data : Value) : Except Fault Options :=
  match data, h.options? data with
  | .null, _ => .ok {}
  | _, some o => .ok o
  | _, none => ofValue h data

/-- The overrides as entries of a mapping. -/
def entries (o : Options) : Entries := o.messages.map fun (k, m) => (.str k, .str m)

/-- The options with further overrides; nothing new if these count as false. -/
def merge? (o : Options) (h : Heap) (messages : Value) : Except Fault (Option Options) :=
  if !h.isTruthy messages then .ok none
  else match h.mapping? messages with
    | none => .error (.misuse .notMapping)
    | some (_, es) =>
      match textMessages (o.entries.insertAll es) with
      | .error e => .error (.options e)
      | .ok merged => .ok (some { o with messages := merged })

def withMessages (o : Options) (h : Heap) (messages : Value) : Except Fault Options :=
  (o.merge? h messages).map (·.getD o)

/-- Merges further overrides with the options at an address. The result is at a fresh address, or at
the same one if there is nothing new. -/
def mergeAt (h : Heap) (a : Addr) (messages : Value) : Except Fault (Heap × Addr) :=
  match h.options? (.object a) with
  | none => .error (.misuse .noOperation)
  | some o =>
    match o.merge? h messages with
    | .error e => .error e
    | .ok none => .ok (h, a)
    | .ok (some merged) => .ok (h.alloc (.options merged))

end ShapeCheck.Options
