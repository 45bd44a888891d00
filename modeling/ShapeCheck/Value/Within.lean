import ShapeCheck.Number.Power
import ShapeCheck.Value.Heap

/-
  What is met inside a value. A walk enters the parts of a value and of its containers, each
  container once on a path. By it values are known that cannot be spelled: a number of more than
  4300 digits is not written out.
-/

namespace ShapeCheck

namespace Heap

mutual

/-- Whether a value or one that is met inside it passes a test; the containers around it are
`opened`. -/
def anyWithin (h : Heap) (p : Value → Bool) (opened : List Addr) (v : Value) : Bool :=
  match v with
  | .tuple _ items => h.anyWithinAll p opened items
  | .set items => h.anyWithinAll p opened items
  | .report _ e => h.anyWithinError p opened e
  | .object a =>
    match hm : h.mapping? (.object a) with
    | some (b, es) =>
      if ho : b ∈ opened then false
      else
        have := unvisited_cons_lt (lt_size_of_mapping? hm) ho
        h.anyWithinEntries p (b :: opened) es
    | none =>
      match hc : h.cell? a with
      | some (.list items) =>
        if ho : a ∈ opened then false
        else
          have := unvisited_cons_lt (lt_size_of_cell? hc) ho
          h.anyWithinAll p (a :: opened) items
      | _ => false
  | v => p v
termination_by (h.unvisited opened, sizeOf v)

def anyWithinAll (h : Heap) (p : Value → Bool) (opened : List Addr) (vs : List Value) : Bool :=
  match vs with
  | [] => false
  | v :: vs => h.anyWithin p opened v || h.anyWithinAll p opened vs
termination_by (h.unvisited opened, sizeOf vs)

def anyWithinEntries (h : Heap) (p : Value → Bool) (opened : List Addr)
    (es : List (Value × Value)) : Bool :=
  match es with
  | [] => false
  | (k, v) :: es =>
    h.anyWithin p opened k || h.anyWithin p opened v || h.anyWithinEntries p opened es
termination_by (h.unvisited opened, sizeOf es)

def anyWithinError (h : Heap) (p : Value → Bool) (opened : List Addr) (e : FieldError) : Bool :=
  match e with
  | ⟨name, message, _, details⟩ =>
    h.anyWithin p opened name || h.anyWithin p opened message ||
      h.anyWithinErrors p opened details
termination_by (h.unvisited opened, sizeOf e)

def anyWithinErrors (h : Heap) (p : Value → Bool) (opened : List Addr) (es : List FieldError) :
    Bool :=
  match es with
  | [] => false
  | e :: es => h.anyWithinError p opened e || h.anyWithinErrors p opened es
termination_by (h.unvisited opened, sizeOf es)

end

end Heap

/-- The most digits that a number may have to be written out or to be read. -/
def maxDigits : Nat := 4300

/-- Whether a number has too many digits to be written out. -/
def isOverlong : Value → Bool
  | .int n => pow10 maxDigits ≤ n.natAbs
  | .fraction q => pow10 maxDigits ≤ q.num.natAbs || pow10 maxDigits ≤ q.den
  | _ => false

namespace Heap

/-- Whether a value can be spelled. -/
def canSpell (h : Heap) (v : Value) : Bool := !h.anyWithin isOverlong [] v

/-- Every text can be spelled. -/
@[simp] theorem canSpell_str (h : Heap) (s : String) : h.canSpell (.str s) = true := by
  simp [canSpell, anyWithin, isOverlong]

end Heap

end ShapeCheck
