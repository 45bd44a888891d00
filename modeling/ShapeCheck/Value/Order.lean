import ShapeCheck.Value.Misuse
import ShapeCheck.Value.Key

/-
  The order of values. Numbers are ordered by their exact value, texts by code points, and rows by
  their first members that differ. Values of different kinds have no order, and a decimal cannot be
  ordered with what is no number.
-/

namespace ShapeCheck

open ShapeCheck.Calendar

namespace Value

/-- How two numbers are ordered. What is no number lies nowhere and is taken to be level with every
other. -/
def compareNumbers : KeyPart → KeyPart → Ordering
  | .nan, _ => .eq
  | _, .nan => .eq
  | .infinite a, .infinite b => compare b a
  | .infinite a, _ => if a then .lt else .gt
  | _, .infinite b => if b then .gt else .lt
  | .number p, .number q => p.compare q
  | _, _ => .eq

def isDecimal : Value → Bool
  | .decimal _ => true
  | _ => false

mutual

/-- How two values are ordered, if they are. -/
def compare? : Value → Value → Except Misuse Ordering
  | .str s, .str t => .ok (compare s t)
  | .bytes s, .bytes t => .ok (compare (s.map (·.toNat)) (t.map (·.toNat)))
  | .date d, .date e => .ok (compare d.dayNumber e.dayNumber)
  | .moment m, .moment n =>
    if m.offset.isSome = n.offset.isSome then .ok (compare m.micros n.micros)
    else .error .unordered
  | .time s, .time t =>
    if s.offset.isSome = t.offset.isSome then
      .ok ((compare s.seconds t.seconds).then (compare s.clock.micro t.clock.micro))
    else .error .unordered
  | .tuple _ vs, .tuple _ ws => compareRows? vs ws
  | v, w =>
    match v.numberForm?, w.numberForm? with
    | some p, some q =>
      if (v.isDecimal || w.isDecimal) && (p == .nan || q == .nan) then .error .notNumber
      else .ok (compareNumbers p q)
    | _, _ => .error .unordered

def compareRows? : List Value → List Value → Except Misuse Ordering
  | [], [] => .ok .eq
  | [], _ => .ok .lt
  | _, [] => .ok .gt
  | v :: vs, w :: ws => if v.sameKey w then compareRows? vs ws else v.compare? w

end

/-- Why two members of a row cannot be ordered, if there are such. -/
def disorder? : List Value → Option Misuse
  | [] => none
  | v :: vs =>
    (vs.findSome? fun w =>
      match v.compare? w with
      | .error e => some e
      | .ok _ => none).or (disorder? vs)

/-- The values in ascending order, if any two of them have an order. -/
def sort (vs : List Value) : Except Misuse (List Value) :=
  match disorder? vs with
  | some e => .error e
  | none => .ok (vs.mergeSort fun v w =>
      match v.compare? w with
      | .ok o => o != .gt
      | .error _ => true)

/-- Whether two values have an order. -/
def Comparable (v w : Value) : Prop := ∃ o, v.compare? w = .ok o

theorem disorder?_eq_none_iff {vs : List Value} :
    disorder? vs = none ↔ vs.Pairwise Comparable := by
  induction vs with
  | nil => exact iff_of_true rfl .nil
  | cons v vs ih =>
    rw [disorder?, Option.or_eq_none_iff, List.findSome?_eq_none_iff, ih, List.pairwise_cons]
    refine and_congr_left' (forall₂_congr fun w _ => ?_)
    rw [Comparable]
    cases v.compare? w with
    | error e => exact iff_of_false (Option.some_ne_none _) fun ⟨_, ho⟩ => nomatch ho
    | ok o => exact iff_of_true rfl ⟨o, rfl⟩

/-- Values are sorted exactly if any two of them have an order. -/
theorem exists_sort_eq_ok_iff {vs : List Value} :
    (∃ ws, sort vs = .ok ws) ↔ vs.Pairwise Comparable := by
  rw [← disorder?_eq_none_iff, sort]
  cases disorder? vs with
  | some e => exact iff_of_false (fun ⟨_, hs⟩ => nomatch hs) (Option.some_ne_none e)
  | none => exact iff_of_true ⟨_, rfl⟩ rfl

end Value

end ShapeCheck
