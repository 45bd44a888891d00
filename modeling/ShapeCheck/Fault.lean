import ShapeCheck.Document.Basic
import ShapeCheck.Schema.Parser
import ShapeCheck.Schema.Resolve
import ShapeCheck.Value.Misuse
import ShapeCheck.Value.Spelling
import ShapeCheck.Value.Within

/-
  Faults: why a request is refused. A fault of this library belongs to a family and can be put as a
  notice with a message and its circumstances. Other faults are slips in the use of a value, such
  as a container given as a key, and documents that cannot be read. A notice that would have to
  spell what cannot be spelled is a slip itself (`Fault.settled`).
-/

namespace ShapeCheck

open ShapeCheck.Text

/-- The spelling of a registry: its name, the number of its items, and whether it is frozen. -/
def Registry.spell {α : Type} (r : Registry α) : String :=
  spellCall "Registry" ["name=" ++ Text.quote r.name, "items=" ++ toString r.size,
    "frozen=" ++ spellBool r.frozen]

/-- The spelling of a schema: the names of its types. -/
def Schema.spell (s : Schema) : String :=
  spellCall "Schema" ["types=[" ++ commaList (s.typeNames.map Text.quote) ++ "]"]

/-- The families of faults. Each lies within its parent. -/
inductive Family where
  | general
  | schema
  | schemaText
  | resolution
  | usage
  | configuration
  | notFound
  | operation
deriving DecidableEq, Repr

namespace Family

def all : List Family :=
  [general, schema, schemaText, resolution, usage, configuration, notFound, operation]

def parent? : Family → Option Family
  | general => none
  | schemaText => some schema
  | resolution => some schema
  | _ => some general

/-- Whether a fault of family `f` is also one of family `g`. No family has more than two others
above it. -/
def within (f g : Family) : Bool :=
  f == g || f.parent? == some g || (f.parent?.bind parent?) == some g

end Family

/-- A wrong call of a validator. -/
inductive UsageError where
  /-- the schema text is no text -/
  | sourceNotText (source : Value)
  | objectMissing (operation : String)
  | objectNotMapping (operation : String) (object : Value)
  | keyMissing (type : String)
  | nothingToClean
  | notMutable (object : Value)
  /-- the key is no field of the type; `fields` are those that are -/
  | undeclaredKey (key : Value) (type : String) (fields : List String)
  | badEntry (entry : Value)
  /-- an error was handed in for a field that the type lacks -/
  | undeclaredEntry (name : Value) (type : String)

/-- Why options are refused. -/
inductive OptionsError where
  | messagesNotMapping (messages : Value)
  | badMessage (key message : Value)
  | rootNotText (root : Value)
  | notOptions (options : Value)
  | unknownOptions (keys : List Value)
  | fileMissing (path : String)
  | fileFormat (suffix path : String)

inductive Fault where
  | text (e : SchemaTextError)
  | resolution (e : ResolutionError)
  | usage (e : UsageError)
  | options (e : OptionsError)
  | registry (e : RegistryError) (name : String)
  | misuse (m : Misuse)
  | document (e : DocumentError)

/-- A circumstance of a fault. -/
inductive Detail where
  | value (v : Value)
  | values (vs : List Value)

def Detail.text (s : String) : Detail := .value (.str s)

def Detail.texts (l : List String) : Detail := .values (l.map .str)

/-- What a fault shows to the outside. -/
structure Notice where
  family : Family
  message : String
  context : Assoc String Detail := []

def Wanted.message : Wanted → String
  | .endOfText => "Expected end of text"
  | .identifier => "Expected identifier"
  | .openBrace => "Expected '\x7b'"
  | .closeBrace => "Expected '\x7d'"

def positionContext (p : Position) : Assoc String Detail :=
  [("line", .value (.int p.line)), ("column", .value (.int p.column))]

def SchemaTextError.notice : SchemaTextError → Notice
  | .unexpected wanted p line => ⟨.schemaText,
      "Invalid schema syntax at line " ++ toString p.line ++ ", column " ++ toString p.column ++
        ": " ++ wanted.message,
      ("source_line", .text line) :: positionContext p⟩
  | .empty => ⟨.schemaText, "Schema source declares no types", []⟩
  | .duplicateType name p first => ⟨.schemaText,
      "Duplicate type name '" ++ name ++ "' (first declared on line " ++ toString first ++ ")",
      ("type_name", .text name) :: positionContext p⟩
  | .duplicateField name kind owner p => ⟨.schemaText,
      "Duplicate field '" ++ name ++ "' in " ++ kind.word ++ " '" ++ owner ++ "'",
      ("type_name", .text owner) :: ("field_name", .text name) :: positionContext p⟩

def ResolutionError.notice (h : Heap) : ResolutionError → Notice
  | .shadowsScalar name => ⟨.resolution,
      "Type '" ++ name ++ "' shadows the built-in scalar of the same name",
      [("type_ref", .text name), ("type_name", .text name)]⟩
  | .unknownType ref field kind owner => ⟨.resolution,
      "Unknown type '" ++ ref ++ "' for field '" ++ field ++ "' in " ++ kind.word ++
        " '" ++ owner ++ "'",
      [("type_ref", .text ref), ("field_name", .text field), ("type_name", .text owner)]⟩
  | .undeclared name => ⟨.resolution,
      "Type '" ++ h.plain name ++ "' is not declared in this schema",
      match name with
      | .null => []
      | v => [("type_ref", .value v)]⟩
  | .noRoot => ⟨.resolution,
      "Schema declares no input type and no root_type was configured", []⟩

def UsageError.notice (h : Heap) : UsageError → Notice
  | .sourceNotText v => ⟨.usage,
      "Schema source must be a string, got " ++ h.kindName v,
      [("source_type", .text (h.kindName v))]⟩
  | .objectMissing operation => ⟨.usage,
      operation ++ "() requires the object to validate", [("operation", .text operation)]⟩
  | .objectNotMapping operation v => ⟨.usage,
      operation ++ "() requires a mapping, got " ++ h.kindName v,
      [("operation", .text operation), ("object_type", .text (h.kindName v))]⟩
  | .keyMissing type => ⟨.usage,
      "validate_one() requires the key to validate", [("type_name", .text type)]⟩
  | .nothingToClean => ⟨.usage,
      "clean() requires the object to clean", [("operation", .text "clean")]⟩
  | .notMutable v => ⟨.usage,
      "clean() requires a mutable mapping, got " ++ h.kindName v,
      [("object_type", .text (h.kindName v))]⟩
  | .undeclaredKey key type fields => ⟨.usage,
      "Field '" ++ h.plain key ++ "' is not declared on '" ++ type ++ "'",
      [("field_name", .value key), ("type_name", .text type), ("fields", .texts fields)]⟩
  | .badEntry v => ⟨.usage,
      "Invalid error entry: " ++ h.quoted v,
      [("expected", .text "FieldError or mapping with name and message")]⟩
  | .undeclaredEntry name type => ⟨.usage,
      "Field '" ++ h.plain name ++ "' is not declared on '" ++ type ++ "'",
      [("field_name", .value name), ("type_name", .text type)]⟩

/-- The names of the options. -/
def knownOptions : List String := ["custom_messages", "root_type"]

def OptionsError.notice (h : Heap) : OptionsError → Notice
  | .messagesNotMapping v => ⟨.configuration,
      "custom_messages must be a mapping of field name to message",
      [("custom_messages", .text (h.kindName v))]⟩
  | .badMessage key message => ⟨.configuration,
      "Invalid custom message entry: " ++ h.quoted key ++ ": " ++ h.quoted message,
      [("key", .value key)]⟩
  | .rootNotText v => ⟨.configuration,
      "root_type must be a string, got " ++ h.kindName v, [("root_type", .value v)]⟩
  | .notOptions v => ⟨.configuration, "Invalid options type: " ++ h.kindName v, []⟩
  | .unknownOptions keys => ⟨.configuration,
      "Unknown validator options: [" ++ commaList (keys.map h.quoted) ++ "]",
      [("unknown_keys", .values keys), ("known_keys", .texts knownOptions)]⟩
  | .fileMissing path => ⟨.configuration,
      "Configuration file not found: " ++ path, [("path", .text path)]⟩
  | .fileFormat suffix path => ⟨.configuration,
      "Unsupported file format: " ++ suffix, [("path", .text path)]⟩

/-- The notice of a refusal by the registry of a name; a slip gives none. -/
def RegistryError.notice? (h : Heap) (name : String) : RegistryError → Option Notice
  | .frozen key => some ⟨.operation, "Registry " ++ name ++ " is frozen", about key⟩
  | .taken key => some ⟨.operation,
      "Item '" ++ h.plain key ++ "' already registered in " ++ name, about key⟩
  | .absent key => some ⟨.notFound, "Item not found: " ++ h.plain key, about key⟩
  | .notFound key available => some ⟨.notFound, "Item not found: " ++ h.plain key,
      about key ++ [("available_keys", .values available)]⟩
  | .notKey => none
where
  about (key : Value) : Assoc String Detail := [("key", .value key), ("registry", .text name)]

/-- The notice of a fault of this library. -/
def Fault.notice? (h : Heap) : Fault → Option Notice
  | text e => some e.notice
  | resolution e => some (e.notice h)
  | usage e => some (e.notice h)
  | options e => some (e.notice h)
  | registry e name => e.notice? h name
  | misuse _ => none
  | document _ => none

/-- The values that the message of a fault spells. -/
def Fault.spelled : Fault → List Value
  | resolution (.undeclared name) => [name]
  | usage (.undeclaredKey key _ _) => [key]
  | usage (.badEntry entry) => [entry]
  | usage (.undeclaredEntry name _) => [name]
  | options (.badMessage key message) => [key, message]
  | options (.unknownOptions keys) => keys
  | registry (.taken key) _ => [key]
  | registry (.absent key) _ => [key]
  | registry (.notFound key _) _ => [key]
  | _ => []

/-- The fault itself, or the slip that it becomes if its message cannot be spelled. -/
def Fault.settled (h : Heap) (f : Fault) : Fault :=
  if f.spelled.all h.canSpell then f else .misuse .overlong

end ShapeCheck
