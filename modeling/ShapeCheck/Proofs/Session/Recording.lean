import Mathlib.Data.List.TakeWhile
import ShapeCheck.Proofs.Check.Place

/-
  What a request to a context records. What is wrong with a declared field of an object can always
  be found out (`Closed.findFailure_eq`), but a message that cannot be written out stops the request
  before anything is recorded for the field (`check_eq`). So a validation that is not refused at
  once records the fields before the first such message (`validate_eq`), all of them if the
  overrides are legible, as texts are (`validate_ok`); and one of a single field records that field
  and nothing else (`validateOne_cases`). Of failures handed in, those before the first refused one
  are recorded (`addInvalid_fst`). Whatever is recorded is the failure of a declared field under its
  own name.
-/

namespace ShapeCheck

/-! ## Several outcomes -/

namespace Outcome

/-- Records outcomes of fields one after the other. -/
def recordAll (o : Outcome) (l : List (String × Option FieldError)) : Outcome :=
  l.foldl (fun o (name, e) => o.record name e) o

/-- What the last of several outcomes for a field is, if there is any. -/
def last? (l : List (String × Option FieldError)) (k : String) : Option (Option FieldError) :=
  ((l.filter (·.1 = k)).getLast?).map (·.2)

variable {o : Outcome} {l : List (String × Option FieldError)}

theorem recordAll_cons (o : Outcome) (name : String) (e : Option FieldError)
    (l : List (String × Option FieldError)) :
    o.recordAll ((name, e) :: l) = (o.record name e).recordAll l := rfl

theorem last?_cons_of_ne {name k : String} (h : name ≠ k) (e : Option FieldError) :
    last? ((name, e) :: l) k = last? l k := by
  have hd : ¬decide (name = k) = true := fun hd => h (of_decide_eq_true hd)
  rw [last?, last?, List.filter_cons, if_neg hd]

theorem last?_cons_self (k : String) (e : Option FieldError) :
    last? ((k, e) :: l) k = some ((last? l k).getD e) := by
  have hd : decide (k = k) = true := decide_eq_true rfl
  rw [last?, last?, List.filter_cons, if_pos hd, List.getLast?_cons]
  cases (l.filter (·.1 = k)).getLast? <;> rfl

theorem last?_append (l l' : List (String × Option FieldError)) (k : String) :
    last? (l ++ l') k = (last? l' k).or (last? l k) := by
  rw [last?, last?, last?, List.filter_append, List.getLast?_append, Option.map_or]

theorem last?_map (f : String → Option FieldError) (names : List String) (k : String) :
    last? (names.map fun n => (n, f n)) k = if k ∈ names then some (f k) else none := by
  induction names with
  | nil => rfl
  | cons n names ih =>
    rw [List.map_cons]
    by_cases hn : n = k
    · rw [hn, last?_cons_self, ih, if_pos (List.mem_cons_self ..)]
      split <;> rfl
    · rw [last?_cons_of_ne hn, ih]
      simp only [List.mem_cons, Ne.symm hn, false_or]

theorem Distinct.recordAll (ho : o.Distinct) : (o.recordAll l).Distinct := by
  induction l generalizing o with
  | nil => exact ho
  | cons p l ih => exact ih (ho.record p.1 p.2)

/-- The last outcome recorded for a field counts. -/
theorem get?_recordAll (ho : o.Distinct) (l : List (String × Option FieldError)) (k : String) :
    (o.recordAll l).get? k = (last? l k).getD (o.get? k) := by
  induction l generalizing o with
  | nil => rfl
  | cons p l ih =>
    obtain ⟨name, e⟩ := p
    rw [recordAll_cons, ih (ho.record name e)]
    by_cases h : name = k
    · rw [← h, last?_cons_self, get?_record_self ho]
      rfl
    · rw [last?_cons_of_ne h, get?_record_of_ne h]

/-- Every recorded failure is one of a field of the type and stands under its own name. -/
structure On (t : ObjectType) (o : Outcome) : Prop where
  distinct : o.Distinct
  named : ∀ {k : String} {e : FieldError}, o.get? k = some e → k ∈ t.fieldNames ∧ e.name = .str k

variable {t : ObjectType}

theorem on_reset (t : ObjectType) (o : Outcome) : o.reset.On t := by
  refine ⟨distinct_reset o, fun {k e} hk => ?_⟩
  rw [get?_reset] at hk
  contradiction

theorem On.record (ho : o.On t) {name : String} {e : Option FieldError}
    (he : ∀ e', e = some e' → name ∈ t.fieldNames ∧ e'.name = .str name) :
    (o.record name e).On t := by
  refine ⟨ho.distinct.record name e, fun {k e'} hk => ?_⟩
  by_cases h : name = k
  · rw [← h, get?_record_self ho.distinct] at hk
    exact h ▸ he e' hk
  · rw [get?_record_of_ne h] at hk
    exact ho.named hk

theorem On.recordAll (ho : o.On t)
    (hl : ∀ p ∈ l, ∀ e, p.2 = some e → p.1 ∈ t.fieldNames ∧ e.name = .str p.1) :
    (o.recordAll l).On t := by
  induction l generalizing o with
  | nil => exact ho
  | cons p l ih =>
    obtain ⟨hp, hl⟩ := List.forall_mem_cons.1 hl
    exact ih (ho.record hp) hl

end Outcome

/-! ## Messages that can be written out -/

/-- Every override can be written out, whatever the data are. -/
def Overrides.Legible (m : Overrides) : Prop :=
  ∀ path w, m path = some w → ∀ h : Heap, h.canSpell w = true

theorem Overrides.field?_of_ofEntries {es : Entries} {path : String} {w : Value}
    (hw : Overrides.ofEntries es path = some w) : es.field? path = some w := by
  unfold ofEntries at hw
  split at hw
  · contradiction
  · exact hw

/-- Texts can be written out. -/
theorem Overrides.legible_of_texts {es : Entries} (hes : ∀ p ∈ es, ∃ text, p.2 = .str text) :
    (Overrides.ofEntries es).Legible := by
  intro path w hw h
  obtain ⟨text, rfl⟩ := hes _ (Entries.mem_of_field? (field?_of_ofEntries hw))
  exact h.canSpell_str text

theorem Overrides.legible_none : Overrides.Legible fun _ => none := nofun

theorem Overrides.legible_nil : (Overrides.ofEntries []).Legible := nofun

/-- A number of too many digits to be written out. -/
def hugeNumber : Value := .fraction (pow10 maxDigits : Nat)

theorem canSpell_hugeNumber (h : Heap) : h.canSpell hugeNumber = false := by
  have hwithin : h.anyWithin isOverlong [] hugeNumber = isOverlong hugeNumber := by
    unfold hugeNumber
    rw [Heap.anyWithin] <;> (intros; contradiction)
  have hlong : isOverlong hugeNumber = true := by
    have hle : pow10 maxDigits ≤ ((pow10 maxDigits : Nat) : Rat).num.natAbs := by
      rw [Rat.num_natCast, Int.natAbs_natCast]
    rw [hugeNumber, isOverlong, decide_eq_true hle, Bool.true_or]
  rw [Heap.canSpell, hwithin, hlong]
  rfl

/-- Defaults are texts, so if the message of a failure at a place cannot be written out it is an
override. -/
theorem Place.canNote_failure?_eq_false_iff {s : Schema} (hs : s.Closed) {x : Place}
    (hx : x.Resolved s) (h : Heap) (m : Overrides) (path : String) :
    h.canNote (x.failure? s h m path) = false ↔
      (∃ e, x.failure? s h m path = some e) ∧ ∃ w, m path = some w ∧ h.canSpell w = false := by
  cases he : x.failure? s h m path with
  | none => simp [Heap.canNote]
  | some e =>
    obtain ⟨c, rfl, -⟩ := Place.exists_of_failure? hs hx he
    have hmessage : h.canNote (some (x.field.failure m path c (x.details s h m path))) =
        h.canSpell ((m path).getD (.str (c.message path))) := rfl
    rw [hmessage]
    cases hw : m path with
    | none => simp
    | some w => simp

theorem Overrides.Legible.canNote_failure? {m : Overrides} (hm : m.Legible) {s : Schema}
    (hs : s.Closed) {x : Place} (hx : x.Resolved s) (h : Heap) (path : String) :
    h.canNote (x.failure? s h m path) = true := by
  by_contra hnote
  obtain ⟨-, w, hw, hspell⟩ :=
    (Place.canNote_failure?_eq_false_iff hs hx h m path).1 (Bool.eq_false_iff.2 hnote)
  rw [hm path w hw h] at hspell
  contradiction

/-! ## Objects of a closed schema -/

/-- In a closed schema what is wrong with a declared field of an object is found at its place, the
object being around it. -/
theorem Schema.Closed.findFailure_eq {s : Schema} (hs : s.Closed) {n : String} {t : ObjectType}
    (ht : s.type? n = some t) {h : Heap} (m : Overrides) {v : Value} {a : Addr} {es : Entries}
    (hm : h.mapping? v = some (a, es)) {k : String} {f : Field} (hf : t.field? k = some f) :
    s.findFailure h m t (.str k) v =
      .ok (Place.failure? s h m ⟨f, es.field? f.name, [a]⟩ f.name) := by
  have hx : Place.Resolved s ⟨f, es.field? f.name, [a]⟩ :=
    hs.resolved ht f (ObjectType.mem_of_field? hf).1
  have hok : s.checkValue h m [a] f (es.field? f.name) f.name =
      .ok (Place.failure? s h m ⟨f, es.field? f.name, [a]⟩ f.name) :=
    Place.check_eq_ok hs hx f.name
  rw [findFailure, ObjectType.fieldNamed?, hf]
  dsimp only
  rw [hm]
  dsimp only
  rw [hok]

theorem Schema.checkField_of_findFailure {s : Schema} {h : Heap} {m : Overrides} {t : ObjectType}
    {key v : Value} {e : Option FieldError} (he : s.findFailure h m t key v = .ok e) :
    s.checkField h m t key v = if h.canNote e then .ok e else .error (.misuse .overlong) := by
  rw [checkField, he]

/-- With legible overrides the check of a field of an object is that of its place. -/
theorem Schema.Compiled.checkField_eq {s : Schema} (hs : s.Compiled) {n : String} {t : ObjectType}
    (ht : s.type? n = some t) {h : Heap} {m : Overrides} (hw : m.Legible) {v : Value} {a : Addr}
    {es : Entries} (hm : h.mapping? v = some (a, es)) {f : Field} (hf : f ∈ t.fields) :
    s.checkField h m t (.str f.name) v =
      .ok (Place.failure? s h m ⟨f, es.field? f.name, [a]⟩ f.name) := by
  have hfind := hs.toClosed.findFailure_eq ht m hm (hs.field?_of_mem ht hf)
  have hx : Place.Resolved s ⟨f, es.field? f.name, [a]⟩ := hs.resolved ht f hf
  rw [checkField_of_findFailure hfind, if_pos (hw.canNote_failure? hs.toClosed hx h f.name)]

namespace Context

variable {h : Heap} {c : Context} {v : Value} {k : String}

/-! ## One field -/

/-- The failure that a check finds for a field of an object. -/
def found? (h : Heap) (c : Context) (object : Value) (k : String) : Option FieldError :=
  match c.schema.findFailure h c.overrides c.root (.str k) object with
  | .ok e => e
  | .error _ => none

/-- A context whose root is a type of its schema, where every reference leads somewhere. -/
structure Closed (c : Context) : Prop where
  schema : c.schema.Closed
  root : ∃ n, c.schema.type? n = some c.root

theorem Compiled.closed (hc : c.Compiled) : c.Closed := ⟨hc.schema.toClosed, _, hc.root⟩

theorem Closed.found?_eq (hc : c.Closed) {a : Addr} {es : Entries}
    (hm : h.mapping? v = some (a, es)) {f : Field} (hf : c.root.field? k = some f) :
    c.found? h v k =
      Place.failure? c.schema h c.overrides ⟨f, es.field? f.name, [a]⟩ f.name := by
  rw [found?, hc.schema.findFailure_eq hc.root.choose_spec c.overrides hm hf]

theorem found?_field (hc : c.Compiled) {a : Addr} {es : Entries}
    (hm : h.mapping? v = some (a, es)) {f : Field} (hf : f ∈ c.root.fields) :
    c.found? h v f.name =
      Place.failure? c.schema h c.overrides ⟨f, es.field? f.name, [a]⟩ f.name :=
  hc.closed.found?_eq hm (hc.schema.field?_of_mem hc.root hf)

/-- A declared field of an object has an outcome, even if its name is declared twice. Only its
message may be in the way. -/
theorem Closed.check_eq (hc : c.Closed) (hm : (h.mapping? v).isSome)
    (hk : k ∈ c.root.fieldNames) : c.check h v (.str k) =
      if h.canNote (c.found? h v k) then .ok (c.found? h v k) else .error (.misuse .overlong) := by
  obtain ⟨⟨a, es⟩, hm⟩ := Option.isSome_iff_exists.1 hm
  obtain ⟨f, hf⟩ := Option.isSome_iff_exists.1 (ObjectType.hasField_iff.2 hk)
  refine Schema.checkField_of_findFailure ?_
  rw [hc.found?_eq hm hf]
  exact hc.schema.findFailure_eq hc.root.choose_spec c.overrides hm hf

theorem Closed.canNote_found? (hc : c.Closed) (hw : c.overrides.Legible)
    (hm : (h.mapping? v).isSome) (hk : k ∈ c.root.fieldNames) :
    h.canNote (c.found? h v k) = true := by
  obtain ⟨⟨a, es⟩, hm⟩ := Option.isSome_iff_exists.1 hm
  obtain ⟨f, hf⟩ := Option.isSome_iff_exists.1 (ObjectType.hasField_iff.2 hk)
  have hx : Place.Resolved c.schema ⟨f, es.field? f.name, [a]⟩ :=
    hc.schema.resolved hc.root.choose_spec f (ObjectType.mem_of_field? hf).1
  rw [hc.found?_eq hm hf]
  exact hw.canNote_failure? hc.schema hx h f.name

theorem mem_of_fieldNamed? {t : ObjectType} {key : Value} {f : Field}
    (hf : t.fieldNamed? key = .ok (some f)) :
    ∃ k, key = .str k ∧ k ∈ t.fieldNames ∧ f.name = k := by
  unfold ObjectType.fieldNamed? at hf
  split at hf
  · rename_i n
    obtain ⟨hmem, hn⟩ := ObjectType.mem_of_field? (Except.ok.inj hf)
    exact ⟨n, rfl, hn ▸ ObjectType.mem_fieldNames hmem, hn⟩
  · split at hf <;> cases hf

theorem mem_of_check_ok {key : Value} {e : Option FieldError} (hk : c.check h v key = .ok e) :
    ∃ k, key = .str k ∧ k ∈ c.root.fieldNames := by
  unfold check Schema.checkField Schema.findFailure at hk
  cases hf : c.root.fieldNamed? key with
  | error e =>
    rw [hf] at hk
    contradiction
  | ok f =>
    cases f with
    | none =>
      rw [hf] at hk
      contradiction
    | some f =>
      obtain ⟨k, hk, hmem, -⟩ := mem_of_fieldNamed? hf
      exact ⟨k, hk, hmem⟩

theorem name_of_found? (hc : c.Compiled) (hm : (h.mapping? v).isSome)
    (hk : k ∈ c.root.fieldNames) {e : FieldError} (he : c.found? h v k = some e) :
    e.name = .str k := by
  obtain ⟨⟨a, es⟩, hm⟩ := Option.isSome_iff_exists.1 hm
  obtain ⟨f, hf, rfl⟩ := List.mem_map.1 hk
  have hx : Place.Resolved c.schema ⟨f, es.field? f.name, [a]⟩ := hc.schema.resolved hc.root f hf
  rw [found?_field hc hm hf] at he
  exact (Place.failure?_eq_some hc.schema.toClosed hx he).1

/-! ## Validation -/

theorem requireObject_ok_iff {operation : String} {object : Option Value} :
    requireObject h operation object = .ok v ↔ object = some v ∧ (h.mapping? v).isSome := by
  constructor
  · intro hr
    unfold requireObject at hr
    split at hr
    · contradiction
    · contradiction
    · split at hr
      · rename_i hm
        cases hr
        exact ⟨rfl, hm⟩
      · contradiction
  · rintro ⟨rfl, hm⟩
    have hn : v ≠ .null := by
      rintro rfl
      contradiction
    unfold requireObject
    split
    · contradiction
    · rename_i he
      exact absurd (Option.some.inj he) hn
    · rename_i he
      cases he
      rw [if_pos hm]

/-- The outcomes of the named fields of an object. -/
def outcomes (h : Heap) (c : Context) (object : Value) (names : List String) :
    List (String × Option FieldError) :=
  names.map fun k => (k, c.found? h object k)

/-- The fields that a validation of an object records: those before the first whose message cannot
be written out. -/
def noted (h : Heap) (c : Context) (object : Value) : List String :=
  c.root.fieldNames.takeWhile fun k => h.canNote (c.found? h object k)

theorem noted_eq_iff : c.noted h v = c.root.fieldNames ↔
    c.root.fieldNames.all (fun k => h.canNote (c.found? h v k)) = true := by
  rw [noted, List.takeWhile_eq_self_iff, List.all_eq_true]

/-- Fields are recorded up to the first message that cannot be written out. -/
theorem Closed.recordFields_eq (hc : c.Closed) (hm : (h.mapping? v).isSome) {names : List String}
    (hn : ∀ k ∈ names, k ∈ c.root.fieldNames) (o : Outcome) :
    c.recordFields h v names o =
      (o.recordAll (c.outcomes h v (names.takeWhile fun k => h.canNote (c.found? h v k))),
        if names.all fun k => h.canNote (c.found? h v k) then .ok ()
        else .error (.misuse .overlong)) := by
  induction names generalizing o with
  | nil => rfl
  | cons k names ih =>
    obtain ⟨hk, hn⟩ := List.forall_mem_cons.1 hn
    rw [recordFields, hc.check_eq hm hk, List.takeWhile_cons, List.all_cons]
    cases hnote : h.canNote (c.found? h v k) with
    | true =>
      rw [if_pos rfl, if_pos rfl, Bool.true_and]
      exact ih hn _
    | false => rfl

theorem Closed.validate_eq (hc : c.Closed) (hm : (h.mapping? v).isSome) :
    c.validate h (some v) = (c.outcome.reset.recordAll (c.outcomes h v (c.noted h v)),
      if c.noted h v = c.root.fieldNames then
        .ok (c.outcome.reset.recordAll (c.outcomes h v (c.noted h v))).isValid
      else .error (.misuse .overlong)) := by
  rw [validate, requireObject_ok_iff.2 ⟨rfl, hm⟩]
  dsimp only
  rw [hc.recordFields_eq hm fun _ hk => hk]
  by_cases hall : c.root.fieldNames.all (fun k => h.canNote (c.found? h v k)) = true
  · rw [if_pos hall, if_pos (noted_eq_iff.2 hall)]
    rfl
  · rw [if_neg hall, if_neg (mt noted_eq_iff.1 hall)]
    rfl

theorem Closed.noted_eq (hc : c.Closed) (hw : c.overrides.Legible) (hm : (h.mapping? v).isSome) :
    c.noted h v = c.root.fieldNames :=
  noted_eq_iff.2 (List.all_eq_true.2 fun _ hk => hc.canNote_found? hw hm hk)

/-- With overrides that can be written out a validation goes through all fields. -/
theorem validate_ok (hc : c.Compiled) (hw : c.overrides.Legible) (hm : (h.mapping? v).isSome) :
    c.validate h (some v) =
      (c.outcome.reset.recordAll (c.outcomes h v c.root.fieldNames),
        .ok (c.outcome.reset.recordAll (c.outcomes h v c.root.fieldNames)).isValid) := by
  have hall := hc.closed.noted_eq hw hm
  rw [hc.closed.validate_eq hm, if_pos hall, hall]

theorem mem_of_mem_noted (hk : k ∈ c.noted h v) : k ∈ c.root.fieldNames :=
  (List.takeWhile_subset _) hk

theorem canNote_of_mem_noted (hk : k ∈ c.noted h v) : h.canNote (c.found? h v k) = true := by
  rw [noted] at hk
  exact List.mem_takeWhile_imp (p := fun k => h.canNote (c.found? h v k)) hk

theorem validateOne_ok (hc : c.Compiled) (hm : (h.mapping? v).isSome)
    (hk : k ∈ c.root.fieldNames) (hnote : h.canNote (c.found? h v k)) :
    c.validateOne h (some v) (some (.str k)) =
      (c.outcome.record k (c.found? h v k), .ok (c.found? h v k).isNone) := by
  rw [validateOne, requireObject_ok_iff.2 ⟨rfl, hm⟩]
  dsimp only
  rw [hc.closed.check_eq hm hk, if_pos hnote]

theorem last?_outcomes (h : Heap) (c : Context) (v : Value) (names : List String) (k : String) :
    Outcome.last? (c.outcomes h v names) k =
      if k ∈ names then some (c.found? h v k) else none :=
  Outcome.last?_map _ names k

/-- What is recorded after a validation, if it had an object. -/
theorem get?_validate (hc : c.Compiled) (hm : (h.mapping? v).isSome) (k : String) :
    (c.validate h (some v)).1.get? k = if k ∈ c.noted h v then c.found? h v k else none := by
  rw [hc.closed.validate_eq hm, Outcome.get?_recordAll (Outcome.distinct_reset _), last?_outcomes,
    Outcome.get?_reset]
  split <;> rfl

/-- A validation is refused and changes nothing, or it has an object. -/
theorem validate_cases (object : Option Value) :
    (∃ e, c.validate h object = (c.outcome, .error e)) ∨
      ∃ v, object = some v ∧ (h.mapping? v).isSome := by
  cases hr : requireObject h "validate" object with
  | error e =>
    refine .inl ⟨.usage e, ?_⟩
    rw [validate, hr]
  | ok v => exact .inr ⟨v, requireObject_ok_iff.1 hr⟩

/-- A validation that is not refused has an object. -/
theorem object_of_validate_ok {object : Option Value} {valid : Bool}
    (hv : (c.validate h object).2 = .ok valid) :
    ∃ v, object = some v ∧ (h.mapping? v).isSome := by
  rcases validate_cases (h := h) (c := c) object with ⟨e, he⟩ | hv
  · rw [he] at hv
    contradiction
  · exact hv

/-- A validation that is not refused goes through all fields. -/
theorem noted_eq_of_validate_ok (hc : c.Compiled) {valid : Bool}
    (hv : (c.validate h (some v)).2 = .ok valid) : c.noted h v = c.root.fieldNames := by
  obtain ⟨w, hw, hm⟩ := object_of_validate_ok hv
  cases hw
  by_contra hall
  rw [hc.closed.validate_eq hm, if_neg hall] at hv
  contradiction

/-- A validation of one field is refused and changes nothing, or it has an object and a field whose
outcome can be noted. -/
theorem validateOne_cases (hc : c.Compiled) (object key : Option Value) :
    (∃ e, c.validateOne h object key = (c.outcome, .error e)) ∨
      ∃ v k, object = some v ∧ (h.mapping? v).isSome ∧ key = some (.str k) ∧
        k ∈ c.root.fieldNames ∧ h.canNote (c.found? h v k) = true := by
  cases hr : requireObject h "validate_one" object with
  | error e =>
    refine .inl ⟨.usage e, ?_⟩
    rw [validateOne, hr]
  | ok v =>
    obtain ⟨rfl, hm⟩ := requireObject_ok_iff.1 hr
    cases key with
    | none =>
      refine .inl ⟨.usage (.keyMissing c.root.name), ?_⟩
      rw [validateOne, hr]
    | some key =>
      cases hk : c.check h v key with
      | error e =>
        refine .inl ⟨e, ?_⟩
        rw [validateOne, hr]
        dsimp only
        rw [hk]
      | ok e =>
        obtain ⟨k, rfl, hmem⟩ := mem_of_check_ok hk
        refine .inr ⟨v, k, rfl, hm, rfl, hmem, ?_⟩
        rw [hc.closed.check_eq hm hmem] at hk
        by_contra hnote
        rw [if_neg hnote] at hk
        contradiction

/-! ## Failures handed in -/

/-- The entries before the first that is refused. -/
def acceptedOf (h : Heap) (c : Context) : List Value → List (String × FieldError)
  | [] => []
  | entry :: entries =>
    match c.readEntry h entry with
    | .error _ => []
    | .ok p => p :: acceptedOf h c entries

/-- The entries that are recorded when some are handed in. -/
def accepted (h : Heap) (c : Context) (errors : Value) : List (String × FieldError) :=
  match h.members? errors with
  | none => []
  | some entries => c.acceptedOf h entries

theorem readEntry_ok {entry : Value} {name : String} {e : FieldError}
    (hr : c.readEntry h entry = .ok (name, e)) :
    name ∈ c.root.fieldNames ∧ e.name = .str name := by
  unfold readEntry at hr
  split at hr
  · contradiction
  · split at hr
    · contradiction
    · rename_i f hf
      cases hr
      obtain ⟨k, hk, hmem, rfl⟩ := mem_of_fieldNamed? hf
      exact ⟨hmem, hk⟩
    · contradiction

theorem readEntry_of_mem_acceptedOf {entries : List Value} {p : String × FieldError}
    (hp : p ∈ c.acceptedOf h entries) : ∃ entry ∈ entries, c.readEntry h entry = .ok p := by
  induction entries with
  | nil => contradiction
  | cons entry entries ih =>
    rw [acceptedOf] at hp
    split at hp
    · contradiction
    · rename_i q hr
      rcases List.mem_cons.1 hp with rfl | hp
      · exact ⟨entry, List.mem_cons_self .., hr⟩
      · obtain ⟨entry', he, hr⟩ := ih hp
        exact ⟨entry', List.mem_cons_of_mem _ he, hr⟩

theorem named_of_mem_accepted {errors : Value} {p : String × FieldError}
    (hp : p ∈ c.accepted h errors) : p.1 ∈ c.root.fieldNames ∧ p.2.name = .str p.1 := by
  unfold accepted at hp
  split at hp
  · contradiction
  · obtain ⟨entry, -, hr⟩ := readEntry_of_mem_acceptedOf hp
    exact readEntry_ok hr

theorem recordEntries_fst (entries : List Value) (o : Outcome) :
    (c.recordEntries h entries o).1 =
      o.recordAll ((c.acceptedOf h entries).map fun (k, e) => (k, some e)) := by
  induction entries generalizing o with
  | nil => rfl
  | cons entry entries ih =>
    rw [recordEntries, acceptedOf]
    cases c.readEntry h entry with
    | error e => rfl
    | ok p => exact ih _

theorem addInvalid_fst (errors : Value) :
    (c.addInvalid h errors).1 =
      c.outcome.recordAll ((c.accepted h errors).map fun (k, e) => (k, some e)) := by
  rw [addInvalid, accepted]
  cases h.members? errors with
  | none => rfl
  | some entries => exact recordEntries_fst entries c.outcome

end Context

end ShapeCheck
