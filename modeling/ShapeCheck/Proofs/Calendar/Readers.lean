import ShapeCheck.Calendar.Reader

/-
  What the readers of moments read, how else they fail being left aside. A reader written with
  failures is one that reads something or nothing as soon as its binds are taken through
  (`toOption_bind`), so the lemmas about the ISO forms can speak of what is read alone; which
  failures there are is in Proofs/Calendar/Failure.
-/

namespace ShapeCheck.Calendar

variable {ε α β : Type}

theorem toOption_bind (x : Except ε α) (f : α → Except ε β) :
    (x >>= f).toOption = x.toOption.bind fun a => (f a).toOption := by
  cases x <;> rfl

theorem toOption_eq_some_iff {x : Except ε α} {a : α} : x.toOption = some a ↔ x = .ok a := by
  cases x with
  | error e => exact iff_of_false nofun nofun
  | ok b =>
    constructor <;>
      · intro h
        cases h
        rfl

namespace Iso

@[simp] theorem toOption_formed (o : Option α) : (formed o).toOption = o := by
  cases o <;> rfl

@[simp] theorem toOption_inRange (o : Option α) : (inRange o).toOption = o := by
  cases o <;> rfl

theorem formed_bind_ok_iff {o : Option α} {f : α → Except Misuse β} {b : β} :
    (formed o >>= f) = .ok b ↔ ∃ a, o = some a ∧ f a = .ok b := by
  cases o with
  | none => exact iff_of_false nofun (by rintro ⟨a, ha, -⟩; cases ha)
  | some a => exact ⟨fun h => ⟨a, rfl, h⟩, by rintro ⟨c, hc, h⟩; cases hc; exact h⟩

theorem inRange_ok_iff {o : Option α} {a : α} : inRange o = .ok a ↔ o = some a := by
  rw [← toOption_eq_some_iff, toOption_inRange]

def calendarDate? (year month day : List Byte) : Option Date :=
  (calendarDate year month day).toOption

def date? (bs : List Byte) : Option Date := (date bs).toOption

def offset? (negative : Bool) (t : Clock) : Option Int := (offset negative t).toOption

def offsetAfter? (sign : Byte) (rest : List Byte) : Option Int := (offsetAfter sign rest).toOption

def time? (bs : List Byte) : Option Time := (time bs).toOption

def moment? (bs : List Byte) : Option Moment := (moment bs).toOption

theorem calendarDate?_eq (year month day : List Byte) : calendarDate? year month day =
    (number? year).bind fun y => (number? month).bind fun m => (number? day).bind fun d =>
      if Date.Valid ⟨y, m, d⟩ then some ⟨y, m, d⟩ else none := by
  simp only [calendarDate?, calendarDate, toOption_bind, toOption_formed, toOption_inRange]

theorem offset?_eq (negative : Bool) (t : Clock) : offset? negative t =
    if t.hour = 0 ∧ t.minute = 0 ∧ t.second = 0 then some 0
    else if t.micros < dayMicros then some (if negative then -(t.micros : Int) else t.micros)
    else none := by
  unfold offset? offset
  split
  · rfl
  · split <;> rfl

theorem offsetAfter?_eq (sign : Byte) (rest : List Byte) : offsetAfter? sign rest =
    if sign = byte 'Z' then if rest.headD 0 = 0 then some 0 else none
    else (clock? rest 0).bind fun o => (offset? (sign == byte '-') o.clock).bind fun n =>
      if o.leftOver then none else some n := by
  unfold offsetAfter? offsetAfter
  split
  · split <;> rfl
  · rw [toOption_bind, toOption_formed]
    refine Option.bind_congr fun o _ => ?_
    rw [toOption_bind]
    refine Option.bind_congr fun n _ => ?_
    split <;> rfl

theorem time?_eq (bs : List Byte) : time? bs =
    match bs.dropWhile (!isSign ·) with
    | [] => (clock? bs 0).bind fun r =>
        if r.leftOver ∨ ¬r.clock.Valid then none else some ⟨r.clock, none⟩
    | sign :: rest => (clock? (bs.takeWhile (!isSign ·)) sign).bind fun r =>
        (offsetAfter? sign rest).bind fun n =>
          if ¬r.clock.Valid then none else some ⟨r.clock, some n⟩ := by
  unfold time? time
  cases bs.dropWhile (!isSign ·) with
  | nil =>
    dsimp only
    rw [toOption_bind, toOption_formed]
    refine Option.bind_congr fun r _ => ?_
    by_cases hleft : r.leftOver = true
    · rw [if_pos hleft, if_pos (.inl hleft)]
      rfl
    · rw [if_neg hleft, existing, toOption_inRange]
      simp only [hleft, Bool.false_eq_true, false_or, ite_not]
  | cons sign rest =>
    dsimp only
    rw [toOption_bind, toOption_formed]
    refine Option.bind_congr fun r _ => ?_
    rw [toOption_bind]
    refine Option.bind_congr fun n _ => ?_
    rw [existing, toOption_inRange, ite_not]

/-- Reads what follows a date. -/
def withTime? (d : Date) : List Byte → Option Moment
  | [] => some { date := d }
  | b :: rest => do
    let t ← time? (rest.drop (charLength b - 1))
    some ⟨d, t.clock, t.offset⟩

theorem moment?_eq (bs : List Byte) : moment? bs =
    (dateLength? bs).bind fun n => (date? (bs.take n)).bind fun d => withTime? d (bs.drop n) := by
  unfold moment? moment
  rw [toOption_bind, toOption_formed]
  refine Option.bind_congr fun n _ => ?_
  rw [toOption_bind]
  refine Option.bind_congr fun d _ => ?_
  cases bs.drop n with
  | nil => rfl
  | cons b rest =>
    dsimp only
    rw [toOption_bind]
    rfl

end Iso

end ShapeCheck.Calendar
