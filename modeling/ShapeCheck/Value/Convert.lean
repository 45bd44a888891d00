import ShapeCheck.Fault

/-
  Entries from any value. A mapping gives its entries; any other value is walked through, and each
  of its members has to be walkable too and give a key and a value.
-/

namespace ShapeCheck.Heap

/-- The key and the value that a member gives. -/
def pairOf (h : Heap) (v : Value) : Except Misuse (Value × Value) :=
  match h.members? v with
  | none => .error .notIterable
  | some [k, w] => if k.isKey then .ok (k, w) else .error .notKey
  | some _ => .error .notPair

/-- Entries from a value. What counts as false gives none. -/
def entriesOf (h : Heap) (v : Value) : Except Misuse Entries :=
  if !h.isTruthy v then .ok []
  else match h.mapping? v with
    | some (_, es) => .ok es
    | none =>
      match h.members? v with
      | none => .error .notIterable
      | some vs => (vs.mapM h.pairOf).map Assoc.ofList

end ShapeCheck.Heap
