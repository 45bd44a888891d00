import ShapeCheck.Unseen
import ShapeCheck.Value.Basic

/-
  The heap of containers. A mapping and a read-only view of it are two containers with one
  content. An address may also be taken by a value that is kept elsewhere. The number of addresses
  that a walk has not entered yet bounds how deep it can go (`unvisited_cons_lt`).
-/

namespace ShapeCheck

inductive Cell where
  | mapping (entries : Entries)
  | list (items : List Value)
  /-- a read-only view of the mapping at an address -/
  | view (target : Addr)
  | options (o : Options)
  /-- nothing but the address of a tuple or of a field error -/
  | taken

structure Heap where
  cells : Array Cell := #[]

namespace Heap

def cell? (h : Heap) (a : Addr) : Option Cell := h.cells[a]?

/-- Adds a container at a fresh address. -/
def alloc (h : Heap) (c : Cell) : Heap × Addr := (⟨h.cells.push c⟩, h.cells.size)

/-- Replaces the container at an address. -/
def write (h : Heap) (a : Addr) (c : Cell) : Heap := ⟨h.cells.setIfInBounds a c⟩

/-- The entries of the mapping at an address, if a mapping is there. -/
def mappingAt? (h : Heap) (a : Addr) : Option Entries :=
  match h.cell? a with
  | some (.mapping es) => some es
  | _ => none

/-- The address and the entries of a mapping, which may be a view. -/
def mapping? (h : Heap) : Value → Option (Addr × Entries)
  | .object a =>
    match h.cell? a with
    | some (.mapping es) => some (a, es)
    | some (.view t) => (h.mappingAt? t).map (a, ·)
    | _ => none
  | _ => none

/-- The address and the entries of a mapping that may be changed. -/
def mutable? (h : Heap) : Value → Option (Addr × Entries)
  | .object a => (h.mappingAt? a).map (a, ·)
  | _ => none

/-- The options that a value refers to. -/
def options? (h : Heap) : Value → Option Options
  | .object a =>
    match h.cell? a with
    | some (.options o) => some o
    | _ => none
  | _ => none

/-- The members met when a value is walked through: the keys of a mapping, the characters of a
text, the numbers of a byte string. Nothing if a value has no members. -/
def members? (h : Heap) : Value → Option (List Value)
  | .str s => some (s.toList.map fun c => .str c.toString)
  | .bytes bs => some (bs.map fun b => .int b.toNat)
  | .tuple _ items => some items
  | .set items => some items
  | .object a =>
    match h.cell? a with
    | some (.list items) => some items
    | _ => (h.mapping? (.object a)).map fun (_, es) => es.map (·.1)
  | _ => none

/-- Whether a value counts as true: nothing, zero and what is empty do not. -/
def isTruthy (h : Heap) : Value → Bool
  | .null => false
  | .bool b => b
  | .int n => n != 0
  | .float x => !x.isZero
  | .decimal d => !d.isZero
  | .fraction q => q != 0
  | v =>
    match h.members? v with
    | some items => !items.isEmpty
    | none => true

/-- A mapping counts as true unless it is empty. -/
theorem isTruthy_of_mapping? {h : Heap} {v : Value} {a : Addr} {es : Entries}
    (hv : h.mapping? v = some (a, es)) : h.isTruthy v = !es.isEmpty := by
  cases v with
  | object b =>
    have hcell : ∀ items, h.cell? b ≠ some (.list items) := by
      intro items hl
      rw [mapping?, hl] at hv
      contradiction
    have hmembers : h.members? (.object b) = some (es.map (·.1)) := by
      rw [members?]
      split
      · rename_i items hl
        exact absurd hl (hcell items)
      · rw [hv]
        rfl
    unfold isTruthy
    dsimp only
    rw [hmembers]
    cases es <;> rfl
  | _ => contradiction

/-- The word for the kind of a value. -/
def kindName (h : Heap) : Value → String
  | .null => "NoneType"
  | .bool _ => "bool"
  | .int _ => "int"
  | .float _ => "float"
  | .str _ => "str"
  | .bytes _ => "bytes"
  | .date _ => "date"
  | .moment _ => "datetime"
  | .time _ => "time"
  | .decimal _ => "Decimal"
  | .fraction _ => "Fraction"
  | .tuple .. => "tuple"
  | .set _ => "set"
  | .object a =>
    match h.cell? a with
    | some (.list _) => "list"
    | some (.view _) => "mappingproxy"
    | some (.options _) => "ValidatorConfig"
    | _ => "dict"
  | .report .. => "FieldError"

/-! ## Reading and writing -/

theorem mappingAt?_eq_some_iff {h : Heap} {a : Addr} {es : Entries} :
    h.mappingAt? a = some es ↔ h.cell? a = some (.mapping es) := by
  unfold mappingAt?
  split
  · rename_i hc
    rw [hc, Option.some.injEq, Option.some.injEq, Cell.mapping.injEq]
  · rename_i hc
    exact iff_of_false nofun (hc es)

theorem mutable?_eq_some_iff {h : Heap} {v : Value} {a : Addr} {es : Entries} :
    h.mutable? v = some (a, es) ↔ v = .object a ∧ h.cell? a = some (.mapping es) := by
  cases v with
  | object b =>
    rw [mutable?, Option.map_eq_some_iff, Value.object.injEq]
    constructor
    · rintro ⟨fs, hb, he⟩
      cases he
      exact ⟨rfl, mappingAt?_eq_some_iff.1 hb⟩
    · rintro ⟨rfl, hb⟩
      exact ⟨es, mappingAt?_eq_some_iff.2 hb, rfl⟩
  | _ => exact iff_of_false nofun fun h => nomatch h.1

theorem cell?_write_self {h : Heap} {a : Addr} {c : Cell} (hc : h.cell? a = some c) (d : Cell) :
    (h.write a d).cell? a = some d := by
  obtain ⟨ha, -⟩ := Array.getElem?_eq_some_iff.1 hc
  simp only [cell?, write, Array.getElem?_setIfInBounds_self_of_lt ha]

theorem cell?_write_of_ne {a b : Addr} (hb : b ≠ a) (h : Heap) (c : Cell) :
    (h.write a c).cell? b = h.cell? b := by
  simp only [cell?, write, Array.getElem?_setIfInBounds_ne hb.symm]

/-! ## Addresses not entered yet -/

/-- The number of addresses of the heap that are not among the given ones. -/
def unvisited (h : Heap) (seen : List Addr) : Nat :=
  (unseen (List.range h.cells.size) seen).length

theorem unvisited_cons_lt {h : Heap} {seen : List Addr} {a : Addr} (ha : a < h.cells.size)
    (hs : a ∉ seen) : h.unvisited (a :: seen) < h.unvisited seen :=
  length_unseen_cons_lt (List.mem_range.2 ha) hs

theorem lt_size_of_cell? {h : Heap} {a : Addr} {c : Cell} (hc : h.cell? a = some c) :
    a < h.cells.size := by
  simp only [cell?] at hc
  exact (Array.getElem?_eq_some_iff.1 hc).1

theorem eq_object_of_mapping? {h : Heap} {v : Value} {a : Addr} {es : Entries}
    (hm : h.mapping? v = some (a, es)) : v = .object a := by
  cases v with
  | object b =>
    unfold mapping? at hm
    dsimp only at hm
    split at hm
    · cases hm
      rfl
    · obtain ⟨_, -, he⟩ := Option.map_eq_some_iff.1 hm
      cases he
      rfl
    · contradiction
  | _ => contradiction

theorem lt_size_of_mapping? {h : Heap} {v : Value} {a : Addr} {es : Entries}
    (hm : h.mapping? v = some (a, es)) : a < h.cells.size := by
  obtain rfl := eq_object_of_mapping? hm
  unfold mapping? at hm
  dsimp only at hm
  split at hm
  · rename_i hc
    exact lt_size_of_cell? hc
  · rename_i hc
    exact lt_size_of_cell? hc
  · contradiction

end Heap

end ShapeCheck
