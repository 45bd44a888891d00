import ShapeCheck.Document.Json
import ShapeCheck.Document.Yaml.Load
import ShapeCheck.Options
import ShapeCheck.Text.LowerCase

/-
  Options from files. A path leads to a file from a folder. The suffix of the file's name, in either
  letter case, tells the format of the document in it. A document that counts as false holds no
  options.
-/

namespace ShapeCheck.Options

/-- The parts of a path, without those that lead nowhere. -/
def partsOf (path : String) : List String :=
  (path.splitOn "/").foldl (fun parts part =>
    if part = "" ∨ part = "." then parts
    else if part = ".." then parts.dropLast
    else parts ++ [part]) []

/-- The greatest number of bytes of a name in a folder. -/
def maxNameBytes : Nat := 255

/-- The parts of a path to a file, each of which can be a name. -/
def fileParts (path : String) : Except DocumentError (List String) := do
  if path.any (· == '\x00') then throw .badName
  if (path.splitOn "/").any (maxNameBytes < ·.utf8ByteSize) then throw .longName
  let parts := partsOf path
  if parts.isEmpty then throw .folder
  return parts

/-- The suffix of a file name: from its last dot on, unless that comes first or last. -/
def suffixOf (name : String) : String :=
  let after := (name.toList.reverse.takeWhile (· != '.')).reverse
  if after.isEmpty ∨ name.length < after.length + 2 then "" else String.ofList ('.' :: after)

/-- How the documents in files with a suffix are entered into a heap. -/
def reader? (suffix : String) :
    Option (Heap → String → Except DocumentError (Heap × Value)) :=
  if suffix = ".yaml" ∨ suffix = ".yml" then some Yaml.load
  else if suffix = ".json" then some fun h text => (Json.read text).map fun d => d.load h
  else none

/-- Options from the document of a file. -/
def ofDocument (h : Heap) (v : Value) : Except Fault Options :=
  if h.isTruthy v then ofValue h v else .ok {}

/-- Options from the file that a path leads to from a folder, if there is such a file. The document
in it is entered into the heap. -/
def ofFile (h : Heap) (folder path : String) (content : Option String) :
    Heap × Except Fault Options :=
  match fileParts path with
  | .error e => (h, .error (.document e))
  | .ok parts =>
    let place := "/".intercalate (folder :: parts)
    match content with
    | none => (h, .error (.options (.fileMissing place)))
    | some text =>
      let suffix := Text.lower (suffixOf (parts.getLastD ""))
      match reader? suffix with
      | none => (h, .error (.options (.fileFormat suffix place)))
      | some read =>
        match read h text with
        | .error e => (h, .error (.document e))
        | .ok (h, v) => (h, ofDocument h v)

end ShapeCheck.Options
