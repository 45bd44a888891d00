import ShapeCheck.Value.Key

/-
  Documents: what a text in a data format holds, and why it may hold nothing. Entering a document
  into a heap makes a fresh container for each of its lists and mappings; of entries under one key
  the last counts, in the place of the first.
-/

namespace ShapeCheck

/-- Why a document cannot be read. -/
inductive DocumentError where
  | json
  /-- an integer of too many digits -/
  | overlong
  /-- a character that no document may hold -/
  | yamlCharacter
  /-- characters that make no token -/
  | yamlToken
  /-- tokens that make no document -/
  | yamlStructure
  /-- several documents in one text, or names that nodes do not have or have twice -/
  | yamlComposition
  /-- a value that cannot be built, such as a container as a key -/
  | yamlValue
  /-- a date, a number or a character that does not exist -/
  | yamlRange
  /-- a number that is too large for its kind -/
  | yamlOverflow
  /-- a number of no characters -/
  | yamlEmpty
  /-- a truth value that is none of the known words -/
  | yamlWord
  /-- a date that does not have the form of one -/
  | yamlForm
  /-- a folder, which holds no text -/
  | folder
  /-- a name that no file can have -/
  | badName
  /-- a name of too many bytes -/
  | longName
deriving DecidableEq, Repr

inductive Document where
  | null
  | bool (b : Bool)
  | int (n : Int)
  | float (x : Double)
  | text (s : String)
  | list (items : List Document)
  | map (entries : List (String × Document))
deriving Inhabited

namespace Document

mutual

/-- Enters a document into a heap. -/
def load (h : Heap) : Document → Heap × Value
  | null => (h, .null)
  | bool b => (h, .bool b)
  | int n => (h, .int n)
  | float x => (h, .float x)
  | text s => (h, .str s)
  | list items =>
    let (h, vs) := loadAll h items
    let (h, a) := h.alloc (.list vs)
    (h, .object a)
  | map entries =>
    let (h, es) := loadEntries h entries
    let (h, a) := h.alloc (.mapping (.ofList es))
    (h, .object a)

def loadAll (h : Heap) : List Document → Heap × List Value
  | [] => (h, [])
  | d :: ds =>
    let (h, v) := load h d
    let (h, vs) := loadAll h ds
    (h, v :: vs)

def loadEntries (h : Heap) : List (String × Document) → Heap × List (Value × Value)
  | [] => (h, [])
  | (k, d) :: ds =>
    let (h, v) := load h d
    let (h, es) := loadEntries h ds
    (h, (.str k, v) :: es)

end

end Document

end ShapeCheck
