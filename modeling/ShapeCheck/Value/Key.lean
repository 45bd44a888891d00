import ShapeCheck.Number.Factored
import ShapeCheck.Value.Heap

/-
  Values as keys. Two values are one key if they have the same form: numbers are compared by their
  exact value whatever their kind, and moments with an offset by the instant they name. Field
  errors have the form of their parts. Keys are taken as separate objects, which shows where they
  hold something that is no number: it is one key with nothing, while a key that is the very same
  object would be found again. Containers cannot be keys, nor can anything that holds one.
-/

namespace ShapeCheck

open ShapeCheck.Calendar

/-- A part of the form of a key. -/
inductive KeyPart where
  | null
  | number (q : Factored)
  | infinite (negative : Bool)
  | nan
  | text (s : String)
  | bytes (bs : List UInt8)
  | date (d : Date)
  /-- microseconds, and whether they are counted in universal time -/
  | moment (universal : Bool) (micros : Int)
  /-- microseconds of a time of day, and the seconds of it that are shown -/
  | time (universal : Bool) (micros seconds : Int)
  /-- a row of so many members, whose forms follow -/
  | row (size : Nat)
  | object (a : Addr)
  /-- a field error of a type, whose name, message and details follow -/
  | report (typeName : Option String)
deriving DecidableEq

/-- The seconds of a time of day, the whole seconds of its offset taken off. -/
def Calendar.Time.seconds (t : Time) : Int :=
  (t.clock.micros / 1000000 : Nat) - t.offset.getD 0 / 1000000

/-- The microseconds of a time of day, its offset taken off. -/
def Calendar.Time.micros (t : Time) : Int := t.clock.micros - t.offset.getD 0

namespace Value

/-- The form of a number, if a value is one. -/
def numberForm? : Value → Option KeyPart
  | .bool b => some (.number (.ofInt (if b then 1 else 0)))
  | .int n => some (.number (.ofInt n))
  | .float .nan => some .nan
  | .float (.infinite negative) => some (.infinite negative)
  | .float x => (Factored.ofDouble? x).map .number
  | .decimal (.nan ..) => some .nan
  | .decimal (.infinite negative) => some (.infinite negative)
  | .decimal d => (Factored.ofDecimal? d).map .number
  | .fraction q => some (.number (.ofRat q))
  | _ => none

end Value

mutual

/-- The form of a key. -/
def Value.keyForm : Value → List KeyPart
  | .null => [.null]
  | .str s => [.text s]
  | .bytes bs => [.bytes bs]
  | .date d => [.date d]
  | .moment m => [.moment m.offset.isSome m.micros]
  | .time t => [.time t.offset.isSome t.micros t.seconds]
  | .tuple _ items => .row items.length :: Value.keyForms items
  | .set items => .row items.length :: Value.keyForms items
  | .object a => [.object a]
  | .report _ e => e.keyForm
  | v => v.numberForm?.toList

def Value.keyForms : List Value → List KeyPart
  | [] => []
  | v :: vs => v.keyForm ++ Value.keyForms vs

def FieldError.keyForm : FieldError → List KeyPart
  | ⟨name, message, typeName, details⟩ =>
    .report typeName :: name.keyForm ++ message.keyForm ++
      .row details.length :: FieldError.keyForms details

def FieldError.keyForms : List FieldError → List KeyPart
  | [] => []
  | e :: es => e.keyForm ++ FieldError.keyForms es

end

mutual

/-- Whether a value can be a key at all. -/
def Value.isKey : Value → Bool
  | .decimal (.nan _ signaling _) => !signaling
  | .set _ => false
  | .object _ => false
  | .tuple _ items => Value.areKeys items
  | .report _ e => e.isKey
  | _ => true

def Value.areKeys : List Value → Bool
  | [] => true
  | v :: vs => v.isKey && Value.areKeys vs

def FieldError.isKey : FieldError → Bool
  | ⟨name, message, _, details⟩ => name.isKey && message.isKey && FieldError.areKeys details

def FieldError.areKeys : List FieldError → Bool
  | [] => true
  | e :: es => e.isKey && FieldError.areKeys es

end

namespace Value

/-- Whether two values are one key. -/
def sameKey (v w : Value) : Bool := v.keyForm == w.keyForm && !v.keyForm.contains .nan

theorem sameKey_symm {v w : Value} (h : v.sameKey w = true) : w.sameKey v = true := by
  simp only [sameKey, Bool.and_eq_true, beq_iff_eq] at h ⊢
  exact ⟨h.1.symm, h.1 ▸ h.2⟩

theorem sameKey_trans {u v w : Value} (h : u.sameKey v = true) (k : v.sameKey w = true) :
    u.sameKey w = true := by
  simp only [sameKey, Bool.and_eq_true, beq_iff_eq] at h k ⊢
  exact ⟨h.1.trans k.1, h.2⟩

/-- No number has the form of a text. -/
theorem toList_numberForm?_ne_text (v : Value) (n : String) :
    v.numberForm?.toList ≠ [.text n] := by
  intro he
  have hv : v.numberForm? = some (.text n) := Option.toList_eq_singleton_iff.1 he
  unfold numberForm? at hv
  split at hv <;> simp at hv

/-- Only a text has the form of a text. -/
theorem eq_str_of_keyForm {v : Value} {n : String} (hv : v.keyForm = [.text n]) :
    v = .str n := by
  have hnumber := v.toList_numberForm?_ne_text n
  cases v with
  | str s =>
    rw [keyForm] at hv
    cases hv
    rfl
  | report a e =>
    cases e
    rw [keyForm, FieldError.keyForm] at hv
    cases hv
  | bool b => exact absurd hv hnumber
  | int m => exact absurd hv hnumber
  | float x => exact absurd hv hnumber
  | decimal d => exact absurd hv hnumber
  | fraction q => exact absurd hv hnumber
  | _ =>
    rw [keyForm] at hv
    cases hv

end Value

/-- Values are compared as keys. -/
instance : BEq Value := ⟨Value.sameKey⟩

instance : PartialEquivBEq Value where
  symm := Value.sameKey_symm
  trans := Value.sameKey_trans

/-- Only a text is one key with a text. -/
theorem Value.beq_str_iff {v : Value} {n : String} : (v == .str n) = true ↔ v = .str n := by
  constructor
  · intro hv
    exact eq_str_of_keyForm (eq_of_beq (Bool.and_eq_true_iff.1 hv).1)
  · rintro rfl
    exact Bool.and_eq_true_iff.2 ⟨beq_self_eq_true _, rfl⟩

/-- The entries without the first one that stands under a key. A key is found again by its form, also
one that is no number. -/
def Entries.remove (es : Entries) (key : Value) : Entries :=
  es.eraseP fun p => p.1.keyForm == key.keyForm

/-- The values without those that are one key with an earlier one. -/
def Value.distinct (vs : List Value) : List Value :=
  vs.foldl (fun ws v => if ws.any (· == v) then ws else ws ++ [v]) []

end ShapeCheck
