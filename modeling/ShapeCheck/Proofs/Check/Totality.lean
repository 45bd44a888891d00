import ShapeCheck.Proofs.Session.Recording

/-
  What a check can fail for. In a schema that was resolved, with any library of built-in types,
  every reference leads to a type, so no check of a field ever asks for a type that is not there,
  whatever the data and the overrides; and a text that one way of reading dates refuses is left to
  the next way, as each refuses it by a failure of the kind of values. What remains is that a
  failure is found whose message, an override that is no text, cannot be written out
  (`Schema.Untold`), and that a validation is called without an object to validate.
  `checks_fail_only_for_messages` says all of this.
-/

namespace ShapeCheck

open ShapeCheck.Calendar ShapeCheck.Text

/-! ## Fields of a closed schema -/

namespace Schema.Closed

variable {s : Schema} {n : String} {t : ObjectType} {f : Field}

/-- The type of a field that is not built in can be had from the schema. -/
theorem getType_ok (hs : s.Closed) (ht : s.type? n = some t) (hf : f ∈ t.fields)
    (hscalar : f.scalar = none) : ∃ u, s.getType (.str f.typeRef) = .ok u := by
  obtain ⟨u, hu⟩ := hs.resolved ht f hf hscalar
  refine ⟨u, ?_⟩
  unfold getType
  dsimp only
  rw [hu]

theorem checkValue_ok (hs : s.Closed) (ht : s.type? n = some t) (hf : f ∈ t.fields) (h : Heap)
    (m : Overrides) (active : List Addr) (value : Option Value) (path : String) :
    ∃ e, s.checkValue h m active f value path = .ok e := by
  have hx : Place.Resolved s ⟨f, value, active⟩ := hs.resolved ht f hf
  exact ⟨_, Place.check_eq_ok hs hx path⟩

theorem checkFields_ok (hs : s.Closed) (ht : s.type? n = some t) (h : Heap) (m : Overrides)
    (active : List Addr) (es : Entries) (parent : String) :
    ∃ errors, s.checkFields h m active t es parent = .ok errors := by
  have hrow : ∀ f ∈ t.fields, s.checkValue h m active f (es.field? f.name)
      (joinPath parent f.name) =
        .ok (Place.failure? s h m ⟨f, es.field? f.name, active⟩ (joinPath parent f.name)) := by
    intro f hf
    have hx : Place.Resolved s ⟨f, es.field? f.name, active⟩ := hs.resolved ht f hf
    exact Place.check_eq_ok hs hx _
  exact ⟨_, collect_ok hrow⟩

end Schema.Closed

/-! ## Messages that cannot be written out -/

/-- A failure is found for a field of an object, and the override for it cannot be written out. -/
def Schema.Untold (s : Schema) (h : Heap) (m : Overrides) (t : ObjectType) (object : Value)
    (k : String) : Prop :=
  (∃ e, s.findFailure h m t (.str k) object = .ok (some e)) ∧
    ∃ w, m k = some w ∧ h.canSpell w = false

/-- No override that is a text is in the way. -/
theorem Schema.not_untold_of_texts {m : Overrides}
    (hm : ∀ path w, m path = some w → ∃ text, w = .str text) (s : Schema) (h : Heap)
    (t : ObjectType) (object : Value) (k : String) : ¬s.Untold h m t object k := by
  rintro ⟨-, w, hw, hspell⟩
  obtain ⟨text, rfl⟩ := hm k w hw
  rw [h.canSpell_str] at hspell
  contradiction

namespace Schema.Closed

variable {s : Schema} {n k : String} {t : ObjectType} {h : Heap} {m : Overrides} {v : Value}

/-- A declared field of an object has an outcome, and its message is in the way if the field is
untold. -/
theorem exists_findFailure (hs : s.Closed) (ht : s.type? n = some t) (m : Overrides)
    (hm : (h.mapping? v).isSome) (hk : k ∈ t.fieldNames) :
    ∃ e, s.findFailure h m t (.str k) v = .ok e ∧
      (h.canNote e = false ↔ s.Untold h m t v k) := by
  obtain ⟨⟨a, es⟩, hm⟩ := Option.isSome_iff_exists.1 hm
  obtain ⟨f, hf⟩ := Option.isSome_iff_exists.1 (ObjectType.hasField_iff.2 hk)
  have hx : Place.Resolved s ⟨f, es.field? f.name, [a]⟩ :=
    hs.resolved ht f (ObjectType.mem_of_field? hf).1
  have hfind := hs.findFailure_eq ht m hm hf
  refine ⟨_, hfind, ?_⟩
  obtain rfl := (ObjectType.mem_of_field? hf).2
  rw [Place.canNote_failure?_eq_false_iff hs hx, Untold, hfind]
  simp only [Except.ok.injEq]

theorem checkField_error_iff (hs : s.Closed) (ht : s.type? n = some t)
    (hm : (h.mapping? v).isSome) (hk : k ∈ t.fieldNames) {e : Fault} :
    s.checkField h m t (.str k) v = .error e ↔ e = .misuse .overlong ∧ s.Untold h m t v k := by
  obtain ⟨d, hfind, hnote⟩ := hs.exists_findFailure ht m hm hk
  rw [checkField_of_findFailure hfind, ← hnote]
  cases h.canNote d <;> simp [eq_comm]

theorem exists_checkField_iff (hs : s.Closed) (ht : s.type? n = some t)
    (hm : (h.mapping? v).isSome) (hk : k ∈ t.fieldNames) :
    (∃ e, s.checkField h m t (.str k) v = .ok e) ↔ ¬s.Untold h m t v k := by
  obtain ⟨d, hfind, hnote⟩ := hs.exists_findFailure ht m hm hk
  rw [checkField_of_findFailure hfind, ← hnote]
  cases h.canNote d <;> simp

end Schema.Closed

/-! ## Dates -/

/-- A text is a date if one of the layouts or the ISO forms reads it: where one of them refuses a
text, for its form or because the date does not exist, the others still have their turn. -/
theorem date_test_iff (text : String) : Scalar.date.test (.str text) = true ↔
    strip text.toList ≠ [] ∧
      ((∃ l ∈ Layout.all, ∃ moment, l.read? (strip text.toList) = some moment) ∨
        ∃ moment, isoMoment? (strip text.toList) = some moment) := by
  rw [Scalar.test_date_str, readMoment?_eq]
  by_cases hblank : strip text.toList = []
  · simp [hblank]
  · have hne : ¬(strip text.toList).isEmpty = true := by simpa using hblank
    rw [if_neg hne, Option.isSome_or, Bool.or_eq_true, List.findSome?_isSome_iff,
      Option.isSome_iff_exists]
    simp only [Option.isSome_iff_exists, ne_eq, hblank, not_false_eq_true, true_and]

/-! ## Validations -/

namespace Context

variable {h : Heap} {c : Context} {object : Option Value}

theorem requireObject_error_iff {operation : String} {u : UsageError} :
    requireObject h operation object = .error u ↔
      ((object = none ∨ object = some .null) ∧ u = .objectMissing operation) ∨
      ∃ v, object = some v ∧ v ≠ .null ∧ h.mapping? v = none ∧
        u = .objectNotMapping operation v := by
  unfold requireObject
  split
  · simp [eq_comm]
  · simp [eq_comm]
  · rename_i v hnull
    have hv : v ≠ .null := hnull
    cases hm : h.mapping? v with
    | some p => simp [hv, hm]
    | none => simp [hv, hm, eq_comm]

theorem Closed.noted_eq_iff_untold (hc : c.Closed) {v : Value} (hm : (h.mapping? v).isSome) :
    c.noted h v = c.root.fieldNames ↔
      ∀ k ∈ c.root.fieldNames, ¬c.schema.Untold h c.overrides c.root v k := by
  rw [noted_eq_iff, List.all_eq_true]
  refine forall₂_congr fun k hk => ?_
  obtain ⟨d, hfind, hnote⟩ :=
    hc.schema.exists_findFailure hc.root.choose_spec c.overrides hm hk
  rw [found?, hfind, ← hnote, Bool.not_eq_false]

/-- Over a closed schema a validation is refused for its object, or stopped by the message for a
field. -/
theorem Closed.validate_error_iff (hc : c.Closed) {e : Fault} :
    (c.validate h object).2 = .error e ↔
      (∃ u, requireObject h "validate" object = .error u ∧ e = .usage u) ∨
      e = .misuse .overlong ∧ ∃ v, object = some v ∧ (h.mapping? v).isSome ∧
        ∃ k ∈ c.root.fieldNames, c.schema.Untold h c.overrides c.root v k := by
  cases hr : requireObject h "validate" object with
  | error u =>
    have hv : (c.validate h object).2 = .error (.usage u) := by
      rw [validate, hr]
    have hnone : ¬∃ v, object = some v ∧ (h.mapping? v).isSome := by
      rintro ⟨v, hv⟩
      rw [requireObject_ok_iff.2 hv] at hr
      contradiction
    rw [hv]
    constructor
    · intro he
      cases he
      exact .inl ⟨u, rfl, rfl⟩
    · rintro (⟨u', hu, rfl⟩ | ⟨-, v, hv, hm, -⟩)
      · cases hu
        rfl
      · exact absurd ⟨v, hv, hm⟩ hnone
  | ok v =>
    obtain ⟨rfl, hm⟩ := requireObject_ok_iff.1 hr
    rw [hc.validate_eq hm]
    by_cases hnoted : c.noted h v = c.root.fieldNames
    · have hnone := (hc.noted_eq_iff_untold hm).1 hnoted
      rw [if_pos hnoted]
      refine iff_of_false (fun he => ?_) ?_
      · contradiction
      · rintro (⟨u, hu, -⟩ | ⟨-, w, hw, -, k, hk, huntold⟩)
        · contradiction
        · cases hw
          exact hnone k hk huntold
    · have hsome := mt (hc.noted_eq_iff_untold hm).2 hnoted
      simp only [not_forall, not_not, exists_prop] at hsome
      rw [if_neg hnoted]
      constructor
      · intro he
        cases he
        exact .inr ⟨rfl, v, rfl, hm, hsome⟩
      · rintro (⟨u, hu, -⟩ | ⟨rfl, -⟩)
        · contradiction
        · rfl

theorem Closed.exists_validate_ok_iff (hc : c.Closed) :
    (∃ valid, (c.validate h object).2 = .ok valid) ↔
      ∃ v, object = some v ∧ (h.mapping? v).isSome ∧
        ∀ k ∈ c.root.fieldNames, ¬c.schema.Untold h c.overrides c.root v k := by
  constructor
  · rintro ⟨valid, hv⟩
    obtain ⟨v, rfl, hm⟩ := object_of_validate_ok hv
    refine ⟨v, rfl, hm, fun k hk huntold => ?_⟩
    have herror := hc.validate_error_iff.2 (.inr ⟨rfl, v, rfl, hm, k, hk, huntold⟩)
    rw [hv] at herror
    contradiction
  · rintro ⟨v, rfl, hm, hnone⟩
    rw [hc.validate_eq hm, if_pos ((hc.noted_eq_iff_untold hm).2 hnone)]
    exact ⟨_, rfl⟩

end Context

/-- In a resolved schema checks fail for messages only. The type of every field can be had, and any
value and any row of fields can be checked, whatever is around them. Every test of a value ends; a
way of reading dates that refuses a text does so by a failure of the kind of values, and a text is
no date only if all of them refuse it. A declared field of an object has a result unless it is
untold, which it never is where the overrides are texts. A validation fails exactly if there is no
object to validate, or something that is no mapping, or else if one of the fields is untold. -/
theorem checks_fail_only_for_messages {library : Registry Scalar} {ds : List Declaration}
    {s : Schema} (hs : Schema.resolve library ds = .ok s) :
    (∀ n t, (n, t) ∈ s.types →
      (∀ f ∈ t.fields, f.scalar = none → ∃ u, s.getType (.str f.typeRef) = .ok u) ∧
      ∀ (h : Heap) (m : Overrides),
        (∀ active es parent, ∃ errors, s.checkFields h m active t es parent = .ok errors) ∧
        (∀ f ∈ t.fields, ∀ active value path,
          ∃ e, s.checkValue h m active f value path = .ok e) ∧
        ∀ o, (h.mapping? o).isSome → ∀ f ∈ t.fields,
          ((∃ e, s.checkField h m t (.str f.name) o = .ok e) ↔ ¬s.Untold h m t o f.name) ∧
          ∀ e, s.checkField h m t (.str f.name) o = .error e ↔
            e = .misuse .overlong ∧ s.Untold h m t o f.name) ∧
    (∀ m : Overrides, (∀ path w, m path = some w → ∃ text, w = .str text) →
      ∀ h t o k, ¬s.Untold h m t o k) ∧
    (∀ (k : Scalar) v, k.run v = .ok (k.test v)) ∧
    (∀ read ∈ readers, ∀ text e, read text = .error e → e.kind = .value) ∧
    (∀ text, Scalar.date.test (.str text) = true ↔ strip text.toList ≠ [] ∧
      ((∃ l ∈ Layout.all, ∃ moment, l.read? (strip text.toList) = some moment) ∨
        ∃ moment, isoMoment? (strip text.toList) = some moment)) ∧
    ∀ c : Context, c.schema = s → (∃ n, (n, c.root) ∈ s.types) → ∀ (h : Heap) object,
      (∀ e, (c.validate h object).2 = .error e ↔
        ((object = none ∨ object = some .null) ∧ e = .usage (.objectMissing "validate")) ∨
        (∃ v, object = some v ∧ v ≠ .null ∧ h.mapping? v = none ∧
          e = .usage (.objectNotMapping "validate" v)) ∨
        e = .misuse .overlong ∧ ∃ v, object = some v ∧ (h.mapping? v).isSome ∧
          ∃ k ∈ c.root.fieldNames, s.Untold h c.overrides c.root v k) ∧
      ((∃ valid, (c.validate h object).2 = .ok valid) ↔
        ∃ v, object = some v ∧ (h.mapping? v).isSome ∧
          ∀ k ∈ c.root.fieldNames, ¬s.Untold h c.overrides c.root v k) := by
  have hclosed := Schema.closed_of_resolve hs
  have htype : ∀ {n t}, (n, t) ∈ s.types → s.type? n = some t := by
    intro n t ht
    obtain ⟨-, rfl⟩ := Schema.resolve_ok_iff.1 hs
    exact Schema.mem_types_iff.1 ht
  refine ⟨fun n t ht => ⟨fun f hf => hclosed.getType_ok (htype ht) hf, fun h m => ⟨?_, ?_, ?_⟩⟩,
    fun m hm => s.not_untold_of_texts hm, Scalar.run_ok, fun read hr text e he => ?_,
    date_test_iff, ?_⟩
  · exact hclosed.checkFields_ok (htype ht) h m
  · intro f hf
    exact hclosed.checkValue_ok (htype ht) hf h m
  · intro o hm f hf
    have hk := ObjectType.mem_fieldNames hf
    exact ⟨hclosed.exists_checkField_iff (htype ht) hm hk,
      fun e => hclosed.checkField_error_iff (htype ht) hm hk⟩
  · exact (refusing_of_mem_readers hr text e he).kind
  · rintro c rfl ⟨n, hroot⟩ h object
    have hc : c.Closed := ⟨hclosed, n, htype hroot⟩
    refine ⟨fun e => ?_, hc.exists_validate_ok_iff⟩
    rw [hc.validate_error_iff, ← or_assoc]
    refine or_congr_left ?_
    simp only [Context.requireObject_error_iff]
    constructor
    · rintro ⟨u, ⟨hnone, rfl⟩ | ⟨v, hv, hnull, hm, rfl⟩, rfl⟩
      · exact .inl ⟨hnone, rfl⟩
      · exact .inr ⟨v, hv, hnull, hm, rfl⟩
    · rintro (⟨hnone, rfl⟩ | ⟨v, hv, hnull, hm, rfl⟩)
      · exact ⟨_, .inl ⟨hnone, rfl⟩, rfl⟩
      · exact ⟨_, .inr ⟨v, hv, hnull, hm, rfl⟩, rfl⟩

/-- A library that has dates under another name. -/
def eventLibrary : Registry Scalar where
  name := "events"
  items := [(.str "When", .date)]

def eventDeclaration : Declaration :=
  ⟨.input, "Event", [⟨"on", "When"⟩, ⟨"within", "Event"⟩]⟩

def eventType : ObjectType where
  name := "Event"
  kind := .input
  fields := [⟨"on", "When", some .date⟩, ⟨"within", "Event", none⟩]

def eventSchema : Schema := ⟨[("Event", eventType)], ["Event"]⟩

/-- An event within itself, on a day that February does not have. -/
def eventHeap : Heap where
  cells := #[.mapping [(.str "on", .str "2023-02-30"), (.str "within", .object 0)]]

/-- What is wrong with the day of the event. -/
def eventError : FieldError where
  name := .str "on"
  message := .str "on must be a valid date"
  typeName := some "When"

theorem run_date_event : Scalar.date.run (.str "2023-02-30") = .ok false := by
  decide +kernel

theorem checkValue_event (m : Overrides) (active : List Addr) :
    eventSchema.checkValue eventHeap m active ⟨"on", "When", some .date⟩
      (some (.str "2023-02-30")) "on" =
        .ok (some { eventError with message := (m "on").getD eventError.message }) := by
  rw [Schema.checkValue.eq_def]
  dsimp only
  rw [run_date_event]
  rfl

theorem findFailure_event (m : Overrides) :
    eventSchema.findFailure eventHeap m eventType (.str "on") (.object 0) =
      .ok (some { eventError with message := (m "on").getD eventError.message }) :=
  checkValue_event m [0]

theorem resolve_event : Schema.resolve eventLibrary [eventDeclaration] = .ok eventSchema := rfl

/-- The failure of a field is found, and the field has no result if its message is too long a
number. -/
theorem checks_fail_only_for_messages_event :
    Schema.resolve eventLibrary [eventDeclaration] = .ok eventSchema ∧
    eventSchema.checkField eventHeap (fun _ => none) eventType (.str "on") (.object 0) =
      .ok (some eventError) ∧
    eventSchema.checkField eventHeap (fun _ => some hugeNumber) eventType (.str "on") (.object 0) =
      .error (.misuse .overlong) ∧
    Layout.dashed.read "2023-02-30".toList = .error .outOfRange ∧
    Misuse.outOfRange.kind = .value ∧
    Scalar.date.test (.str "2023-02-30") = false ∧
    ∀ e, (Context.validate eventHeap ⟨eventSchema, eventType, [], {}⟩ (some (.int 3))).2 =
      .error e ↔ e = .usage (.objectNotMapping "validate" (.int 3)) := by
  have hmem : ("Event", eventType) ∈ eventSchema.types := List.mem_singleton.2 rfl
  have hread : Layout.dashed.read "2023-02-30".toList = .error .outOfRange := rfl
  have hdashed : Layout.dashed.read ∈ readers :=
    List.mem_append_left _ (List.mem_map_of_mem (by decide))
  obtain ⟨hfields, htexts, hrun, hreaders, -, hvalidate⟩ :=
    checks_fail_only_for_messages resolve_event
  obtain ⟨-, hchecks⟩ := hfields "Event" eventType hmem
  have hfield : ∀ m, _ := fun m => (hchecks eventHeap m).2.2 (.object 0) (by rfl) ⟨"on", _, _⟩
    (List.mem_cons_self ..)
  refine ⟨resolve_event, ?_, ?_, hread, hreaders _ hdashed _ _ hread, ?_, fun e => ?_⟩
  · obtain ⟨e, he⟩ := (hfield _).1.2 (htexts (fun _ => none) nofun eventHeap eventType _ _)
    have hfound := Schema.checkField_of_findFailure (findFailure_event fun _ => none)
    rw [he] at hfound
    split at hfound
    · exact he.trans hfound
    · contradiction
  · refine ((hfield _).2 _).2 ⟨rfl, ⟨_, findFailure_event _⟩, hugeNumber, rfl, ?_⟩
    exact canSpell_hugeNumber eventHeap
  · exact Except.ok.inj ((hrun .date _).symm.trans run_date_event)
  · rw [(hvalidate ⟨eventSchema, eventType, [], {}⟩ rfl ⟨"Event", hmem⟩ eventHeap _).1 e]
    constructor
    · rintro (⟨h | h, -⟩ | ⟨v, hv, -, -, rfl⟩ | ⟨-, v, hv, hm, -⟩)
      · contradiction
      · cases h
      · cases hv
        rfl
      · cases hv
        contradiction
    · rintro rfl
      exact .inr (.inl ⟨.int 3, rfl, nofun, rfl, rfl⟩)

/-- With too long a number for a message neither the check of the field nor the validation of the
event has a result. -/
theorem event_untold :
    Schema.resolve eventLibrary [eventDeclaration] = .ok eventSchema ∧
    (eventHeap.mapping? (.object 0)).isSome ∧ "on" ∈ eventType.fieldNames ∧
    (¬∃ e, eventSchema.checkField eventHeap (Overrides.ofEntries [(.str "on", hugeNumber)])
      eventType (.str "on") (.object 0) = .ok e) ∧
    (Context.validate eventHeap ⟨eventSchema, eventType, [(.str "on", hugeNumber)], {}⟩
      (some (.object 0))).2 = .error (.misuse .overlong) := by
  have hc : Context.Closed ⟨eventSchema, eventType, [(.str "on", hugeNumber)], {}⟩ :=
    ⟨Schema.closed_of_resolve resolve_event, "Event", rfl⟩
  have hm : (eventHeap.mapping? (.object 0)).isSome := rfl
  have hk : "on" ∈ eventType.fieldNames := by decide
  have huntold : eventSchema.Untold eventHeap (Overrides.ofEntries [(.str "on", hugeNumber)])
      eventType (.object 0) "on" :=
    ⟨⟨_, findFailure_event _⟩, hugeNumber, rfl, canSpell_hugeNumber eventHeap⟩
  refine ⟨resolve_event, hm, hk, fun hok => ?_, ?_⟩
  · exact (hc.schema.exists_checkField_iff hc.root.choose_spec hm hk).1 hok huntold
  · exact hc.validate_error_iff.2 (.inr ⟨rfl, _, rfl, hm, "on", hk, huntold⟩)

end ShapeCheck
