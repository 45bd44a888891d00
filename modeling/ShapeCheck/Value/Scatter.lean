import ShapeCheck.Value.Key

/-
  The order in which a set gives its members. A set of numbers keeps them in a row of slots, each
  number near the slot that its residue modulo a prime points to; the row is made longer when three
  fifths of it are taken. Members of other kinds stay in the order in which they came.
-/

namespace ShapeCheck

/-- The prime `2^61 - 1`. -/
def scatterPrime : Nat := pow2 61 - 1

/-- A power modulo the prime. -/
def powerResidue (b e : Nat) : Nat :=
  if h : e = 0 then 1
  else
    have : e / 2 < e := Nat.div_lt_self (Nat.pos_of_ne_zero h) (by decide)
    let half := powerResidue (b * b % scatterPrime) (e / 2)
    if e % 2 = 1 then b * half % scatterPrime else half
termination_by e

namespace Factored

/-- A residue of 64 bits that the sign complements. -/
def signed (negative : Bool) (r : Nat) : Nat :=
  if negative then pow2 64 - (if r = 1 then 2 else r) else r

/-- The residue of a number. Exponents count modulo one less than the prime. -/
def residue (q : Factored) : Nat :=
  let power (b : Nat) (e : Int) : Nat := powerResidue b (e % (scatterPrime - 1 : Nat)).toNat
  if q.num = 0 then 0
  else
    let r := if q.den % scatterPrime = 0 then 314159
      else q.num % scatterPrime * power (q.den % scatterPrime) (-1) * power 2 q.twos *
        power 5 q.fives % scatterPrime
    if r = 0 then 0 else signed q.negative r

end Factored

namespace Value

/-- The residue of a number that a set can keep in a slot. -/
def residue? (v : Value) : Option Nat :=
  match v.numberForm? with
  | some (.number q) => some q.residue
  | some (.infinite negative) => some (Factored.signed negative 314159)
  | _ => none

abbrev Slots := Array (Option (Nat × Value))

/-- The first free slot from `i` on, at most `more` slots further. -/
def freeNear? (slots : Slots) (i more : Nat) : Option Nat :=
  ((List.range (more + 1)).map (i + ·)).find? fun j => (slots.getD j none).isNone

/-- The slot for a residue, whose higher bits `rest` decide where to look on. -/
def freeSlot (slots : Slots) (fuel i rest : Nat) : Nat :=
  match fuel with
  | 0 => i
  | fuel + 1 =>
    match freeNear? slots i (if i + 9 < slots.size then 9 else 0) with
    | some j => j
    | none => freeSlot slots fuel ((5 * i + 1 + rest / 32) % slots.size) (rest / 32)

/-- Puts a member into its slot. -/
def place (slots : Slots) (e : Nat × Value) : Slots :=
  slots.setIfInBounds (freeSlot slots (64 + slots.size) (e.1 % slots.size) e.1) (some e)

/-- The least row of slots for more than `n`: eight, or a greater power of two. -/
def emptySlots (n : Nat) : Slots :=
  Array.replicate (if n < 8 then 8 else pow2 (Nat.log2 n + 1)) none

/-- Puts a member into its slot, and all of them into more slots if there are few left. -/
def scatter (slots : Slots) (e : Nat × Value) : Slots :=
  let slots := place slots e
  let used := slots.toList.filterMap id
  if used.length * 5 < (slots.size - 1) * 3 then slots
  else used.foldl place (emptySlots (4 * used.length))

/-- The members of a set in their order; the row of slots is first one for more than `n`. -/
def scattered (n : Nat) (vs : List Value) : List Value :=
  match vs.mapM fun v => v.residue?.map (·, v) with
  | some es => ((es.foldl scatter (emptySlots n)).toList.filterMap id).map (·.2)
  | none => vs

/-- A set of values, which come one by one. -/
def setOf (vs : List Value) : Value := .set (scattered 0 (distinct vs))

/-- A set of the keys of a mapping, which all come at once. -/
def setOfKeys (ks : List Value) : Value :=
  .set (scattered (if ks.length < 5 then 0 else 2 * ks.length) ks)

end Value

end ShapeCheck
