import ShapeCheck.Proofs.Check.Coverage

/-
  Overrides change nothing but text. Two failures are told apart by their messages alone if they are
  the same once the messages are left out (`FieldError.mute`), at all paths or at some. By induction
  into objects, checks under two sets of overrides find the same failures but for the messages at
  the paths where the overrides differ (`mute_failure?`), and so do validations
  (`mute_validate`). What a message is, is decided by the override of its own path, or else by what
  is wrong at that path (`Complains`).
-/

namespace ShapeCheck

/-! ## Failures without some of their messages -/

/-- Whether a name is a path of a set. -/
def Value.isPathIn (paths : String → Bool) : Value → Bool
  | .str p => paths p
  | _ => false

mutual

/-- A failure without the messages at some paths, its own and those inside it. -/
def FieldError.mute (paths : String → Bool) : FieldError → FieldError
  | ⟨name, message, typeName, details⟩ =>
    ⟨name, if name.isPathIn paths then .null else message, typeName,
      FieldError.muteAll paths details⟩

def FieldError.muteAll (paths : String → Bool) : List FieldError → List FieldError
  | [] => []
  | e :: es => e.mute paths :: FieldError.muteAll paths es

end

theorem FieldError.muteAll_eq_map (paths : String → Bool) (es : List FieldError) :
    FieldError.muteAll paths es = es.map (FieldError.mute paths) := by
  induction es with
  | nil => rfl
  | cons e es ih => rw [muteAll, ih, List.map_cons]

section Failures

variable {paths : String → Bool} {m₁ m₂ : Overrides} {path : String}

/-- Failures of one field with one complaint differ in text at most at the path, and inside. -/
theorem Field.mute_failure (hm : paths path = false → m₁ path = m₂ path) (f : Field)
    (c : Complaint) {ds₁ ds₂ : List FieldError}
    (hd : ds₁.map (FieldError.mute paths) = ds₂.map (FieldError.mute paths)) :
    (f.failure m₁ path c ds₁).mute paths = (f.failure m₂ path c ds₂).mute paths := by
  unfold failure
  rw [FieldError.mute, FieldError.mute, FieldError.muteAll_eq_map, FieldError.muteAll_eq_map, hd]
  cases hp : paths path with
  | true => simp only [Value.isPathIn, hp, if_true]
  | false => rw [hm hp]

namespace Place

variable {s : Schema} {h : Heap} {x : Place}

/-- The failures found at a place under two sets of overrides differ in text only, and only at paths
where the overrides differ. -/
theorem mute_failure? (hs : s.Closed) (hm : ∀ p, paths p = false → m₁ p = m₂ p)
    (hx : x.Resolved s) (path : String) :
    (x.failure? s h m₁ path).map (FieldError.mute paths) =
      (x.failure? s h m₂ path).map (FieldError.mute paths) := by
  refine place_induction (h := h) (P := fun x => ∀ path,
    (x.failure? s h m₁ path).map (FieldError.mute paths) =
      (x.failure? s h m₂ path).map (FieldError.mute paths)) hs hx ?_ path
  intro x hx ih path
  cases hc : x.violation? h with
  | some c =>
    rw [failure?_of_violation hs hx hc, failure?_of_violation hs hx hc, Option.map_some,
      Option.map_some, Field.mute_failure (hm path) x.field c rfl]
  | none =>
    have hinside : (x.details s h m₁ path).map (FieldError.mute paths) =
        (x.details s h m₂ path).map (FieldError.mute paths) := by
      unfold details
      rw [List.map_filterMap, List.map_filterMap]
      exact List.filterMap_congr fun y hy => ih y hy (joinPath path y.field.name)
    -- both checks find nothing inside, or both find something
    by_cases hnil : x.details s h m₁ path = []
    · have hnil' : x.details s h m₂ path = [] := by
        rw [hnil] at hinside
        exact List.map_eq_nil_iff.1 hinside.symm
      rw [(failure?_eq_none_iff hs hx path).2 ⟨hc, hnil⟩,
        (failure?_eq_none_iff hs hx path).2 ⟨hc, hnil'⟩]
    · have hnil' : x.details s h m₂ path ≠ [] := by
        intro he
        rw [he] at hinside
        exact hnil (List.map_eq_nil_iff.1 hinside)
      rw [failure?_of_details hs hx hc hnil, failure?_of_details hs hx hc hnil', Option.map_some,
        Option.map_some, Field.mute_failure (hm path) x.field _ hinside]

/-! ## What is wrong at a place -/

/-- What is said of a place that is at fault: the value is missing, its built-in type rejects it, it
is no object of the declared type, it is met inside itself, or it is an object with faults inside.
-/
inductive Complains (s : Schema) (h : Heap) (x : Place) : Complaint → Prop
  | absent : x.value = none → Complains s h x .required
  | null : x.value = some .null → Complains s h x .required
  | rejected {v : Value} {k : Scalar} : x.value = some v → v ≠ .null →
      x.field.scalar = some k → k.test v = false → Complains s h x (.mismatch k)
  | notObject {v : Value} {t : ObjectType} : x.value = some v → v ≠ .null →
      x.field.scalar = none → s.type? x.field.typeRef = some t → h.mapping? v = none →
      Complains s h x (.notObject t.name)
  | circular {v : Value} {a : Addr} {es : Entries} : x.value = some v →
      x.field.scalar = none → h.mapping? v = some (a, es) → a ∈ x.seen →
      Complains s h x .circular
  | inside {v : Value} {t : ObjectType} {a : Addr} {es : Entries} : x.value = some v →
      x.field.scalar = none → s.type? x.field.typeRef = some t → h.mapping? v = some (a, es) →
      a ∉ x.seen → Complains s h x (.invalid t.name)

theorem complains_of_violation? (hs : s.Closed) (hx : x.Resolved s) {c : Complaint}
    (hc : x.violation? h = some c) : x.Complains s h c := by
  cases hv : x.value with
  | none =>
    rw [violation?, hv] at hc
    cases hc
    exact .absent hv
  | some v =>
    by_cases hn : v = .null
    · rw [violation?, hv, hn] at hc
      cases hc
      exact .null (hn ▸ hv)
    · cases hf : x.field.scalar with
      | some k =>
        rw [violation?_of_scalar hv hn hf] at hc
        cases ht : k.test v with
        | true => rw [ht] at hc; contradiction
        | false =>
          rw [ht] at hc
          cases hc
          exact .rejected hv hn hf ht
      | none =>
        rw [violation?_of_object hv hn hf] at hc
        cases hm : h.mapping? v with
        | none =>
          rw [hm] at hc
          cases hc
          obtain ⟨t, ht⟩ := hx hf
          rw [← hs.name_eq ht]
          exact .notObject hv hn hf ht hm
        | some p =>
          obtain ⟨a, es⟩ := p
          rw [hm] at hc
          dsimp only at hc
          by_cases ha : a ∈ x.seen
          · rw [if_pos ha] at hc
            cases hc
            exact .circular hv hf hm ha
          · rw [if_neg ha] at hc
            contradiction

theorem complains_of_inner_ne_nil (hs : s.Closed) (hi : x.inner s h ≠ []) :
    x.Complains s h (.invalid x.field.typeRef) := by
  obtain ⟨y, hy⟩ := List.exists_mem_of_ne_nil _ hi
  obtain ⟨t, v, a, es, hf, ht, hv, hm, ha, -⟩ := entered_of_mem_inner hy
  rw [← hs.name_eq ht]
  exact .inside hv hf ht hm ha

/-- The text of a failure is the override of its path, or else what is wrong there. -/
theorem complains_of_failure? {m : Overrides} (hs : s.Closed) (hx : x.Resolved s)
    {d : FieldError} (hd : x.failure? s h m path = some d) :
    ∃ c, x.Complains s h c ∧ d.typeName = some x.field.typeRef ∧
      d.message = (m path).getD (.str (c.message path)) := by
  cases hc : x.violation? h with
  | some c =>
    rw [failure?_of_violation hs hx hc] at hd
    cases hd
    exact ⟨c, complains_of_violation? hs hx hc, rfl, rfl⟩
  | none =>
    have hinside : x.details s h m path ≠ [] := by
      intro hnil
      rw [(failure?_eq_none_iff hs hx path).2 ⟨hc, hnil⟩] at hd
      contradiction
    rw [failure?_of_details hs hx hc hinside] at hd
    cases hd
    have hi : x.inner s h ≠ [] := by
      intro hnil
      rw [details, hnil] at hinside
      exact hinside rfl
    exact ⟨_, complains_of_inner_ne_nil hs hi, rfl, rfl⟩

end Place

end Failures

/-! ## Recorded failures -/

namespace Outcome

/-- The recorded failures without the messages at some paths. -/
def mute (paths : String → Bool) (o : Outcome) : Outcome where
  errors := o.errors.map fun p => (p.1, p.2.mute paths)
  validated := o.validated

variable {paths : String → Bool}

theorem mute_record (o : Outcome) (k : String) (e : Option FieldError) :
    (o.record k e).mute paths = (o.mute paths).record k (e.map (FieldError.mute paths)) := by
  cases e with
  | none =>
    have he := Assoc.map_erase o.errors k (FieldError.mute paths)
    simp only [record, mute, Option.map_none, he]
  | some e =>
    have he := Assoc.map_insert o.errors k e (FieldError.mute paths)
    simp only [record, mute, Option.map_some, he]

theorem mute_recordAll (o : Outcome) (l : List (String × Option FieldError)) :
    (o.recordAll l).mute paths =
      (o.mute paths).recordAll (l.map fun p => (p.1, p.2.map (FieldError.mute paths))) := by
  induction l generalizing o with
  | nil => rfl
  | cons p l ih =>
    obtain ⟨k, e⟩ := p
    rw [recordAll_cons, ih, mute_record, List.map_cons, recordAll_cons]

theorem isValid_mute (paths : String → Bool) (o : Outcome) :
    (o.mute paths).isValid = o.isValid := by
  unfold isValid mute
  rw [List.isEmpty_map]

end Outcome

/-! ## Validations -/

namespace Context

variable {h : Heap} {c : Context}

/-- The context with other overrides. -/
def told (c : Context) (m : Entries) : Context := { c with messages := m }

theorem Compiled.told (hc : c.Compiled) (m : Entries) : (c.told m).Compiled := ⟨hc.source, hc.root⟩

section Two

variable {m₁ m₂ : Entries} {paths : String → Bool}

theorem mute_found? (hc : c.Compiled)
    (hm : ∀ p, paths p = false → Overrides.ofEntries m₁ p = Overrides.ofEntries m₂ p) {v : Value}
    (hv : (h.mapping? v).isSome) {k : String} (hk : k ∈ c.root.fieldNames) :
    ((c.told m₁).found? h v k).map (FieldError.mute paths) =
      ((c.told m₂).found? h v k).map (FieldError.mute paths) := by
  obtain ⟨⟨a, es⟩, hv⟩ := Option.isSome_iff_exists.1 hv
  obtain ⟨f, hf, rfl⟩ := List.mem_map.1 hk
  have hx : Place.Resolved c.schema ⟨f, es.field? f.name, [a]⟩ := hc.schema.resolved hc.root f hf
  rw [found?_field (hc.told m₁) hv hf, found?_field (hc.told m₂) hv hf]
  exact Place.mute_failure? hc.schema.toClosed hm hx f.name

theorem mute_outcomes (hc : c.Compiled)
    (hm : ∀ p, paths p = false → Overrides.ofEntries m₁ p = Overrides.ofEntries m₂ p) {v : Value}
    (hv : (h.mapping? v).isSome) :
    ((c.told m₁).outcomes h v c.root.fieldNames).map
        (fun p => (p.1, p.2.map (FieldError.mute paths))) =
      ((c.told m₂).outcomes h v c.root.fieldNames).map
        (fun p => (p.1, p.2.map (FieldError.mute paths))) := by
  unfold outcomes
  rw [List.map_map, List.map_map]
  refine List.map_congr_left fun k hk => ?_
  have hfound : ((c.told m₁).found? h v k).map (FieldError.mute paths) =
      ((c.told m₂).found? h v k).map (FieldError.mute paths) := mute_found? hc hm hv hk
  simp only [Function.comp_apply, hfound]

/-- What validations under two sets of legible overrides record differs in text only, and only at
paths where the overrides differ. -/
theorem mute_validate (hc : c.Compiled) (hw₁ : (Overrides.ofEntries m₁).Legible)
    (hw₂ : (Overrides.ofEntries m₂).Legible)
    (hm : ∀ p, paths p = false → Overrides.ofEntries m₁ p = Overrides.ofEntries m₂ p)
    (object : Option Value) :
    ((c.told m₁).validate h object).1.mute paths =
      ((c.told m₂).validate h object).1.mute paths := by
  cases hr : requireObject h "validate" object with
  | error e =>
    rw [validate, validate, hr]
    rfl
  | ok v =>
    obtain ⟨rfl, hv⟩ := requireObject_ok_iff.1 hr
    have hout := mute_outcomes hc hm hv
    rw [validate_ok (hc.told m₁) hw₁ hv, validate_ok (hc.told m₂) hw₂ hv, Outcome.mute_recordAll,
      Outcome.mute_recordAll]
    exact congrArg _ hout

/-- The verdict of a validation does not depend on the overrides. -/
theorem verdict_told (hc : c.Compiled) (hw₁ : (Overrides.ofEntries m₁).Legible)
    (hw₂ : (Overrides.ofEntries m₂).Legible) (object : Option Value) :
    ((c.told m₁).validate h object).2 = ((c.told m₂).validate h object).2 := by
  cases hr : requireObject h "validate" object with
  | error e =>
    rw [validate, validate, hr]
  | ok v =>
    obtain ⟨rfl, hv⟩ := requireObject_ok_iff.1 hr
    -- without any messages both validations record the same
    have hmute : ((c.told m₁).validate h (some v)).1.mute (fun _ => true) =
        ((c.told m₂).validate h (some v)).1.mute (fun _ => true) :=
      mute_validate hc hw₁ hw₂ (fun p hp => by contradiction) (some v)
    have hvalid := congrArg Outcome.isValid hmute
    rw [Outcome.isValid_mute, Outcome.isValid_mute] at hvalid
    rw [validate_ok (hc.told m₁) hw₁ hv, validate_ok (hc.told m₂) hw₂ hv] at hvalid ⊢
    exact congrArg Except.ok hvalid

end Two

theorem ofEntries_of_some {m : Entries} {p : String} {w : Value} (hw : m.field? p = some w)
    (hnull : w ≠ .null) : Overrides.ofEntries m p = some w := by
  unfold Overrides.ofEntries
  rw [hw]
  split
  · rename_i he
    exact absurd (Option.some.inj he) hnull
  · rfl

theorem ofEntries_of_none {m : Entries} {p : String}
    (hw : m.field? p = none ∨ m.field? p = some .null) : Overrides.ofEntries m p = none := by
  unfold Overrides.ofEntries
  rcases hw with hw | hw <;> rw [hw]

/-- The message of a recorded failure is the override of its path as it stands, and if there is none
or it is nothing, the default for what is wrong at the path. -/
theorem message_of_mem_forest (hc : c.Compiled) {o : Value} (ho : (h.mapping? o).isSome)
    {d : FieldError} (hd : d ∈ FieldError.forest (c.validate h (some o)).1.errors.values) :
    ∃ p x k, c.Reaches h o p x ∧ x.Complains c.schema h k ∧ d.name = .str (dotted p) ∧
      d.typeName = some x.field.typeRef ∧
      (∀ w, c.messages.field? (dotted p) = some w → w ≠ .null → d.message = w) ∧
      (c.messages.field? (dotted p) = none ∨ c.messages.field? (dotted p) = some .null →
        d.message = .str (k.message (dotted p))) := by
  obtain ⟨p, x, hr, hfail⟩ := reaches_of_mem_forest hc ho hd
  obtain ⟨k, hk, htype, hmessage⟩ :=
    Place.complains_of_failure? hc.schema.toClosed (hr.resolved hc) hfail
  refine ⟨p, x, k, hr, hk, (hr.failure_eq hc hfail).1, htype, fun w hw hnull => ?_, fun hw => ?_⟩
  · rw [hmessage, overrides, ofEntries_of_some hw hnull]
    rfl
  · rw [hmessage, overrides, ofEntries_of_none hw]
    rfl

/-- Overrides change text only. Under any two sets of overrides that can be written out, such as
texts, a validation has the same verdict and records the same failures in the same order, with the
same names, types and details, but for messages at paths where the overrides differ; and every
message is the override of its own path, or the default for what is wrong there if there is none. -/
theorem overrides_change_text_only (hc : c.Compiled) (h : Heap) (object : Option Value) :
    (∀ m₁ m₂, (Overrides.ofEntries m₁).Legible → (Overrides.ofEntries m₂).Legible →
      ((c.told m₁).validate h object).2 = ((c.told m₂).validate h object).2 ∧
      ∀ paths : String → Bool,
        (∀ p, paths p = false → Overrides.ofEntries m₁ p = Overrides.ofEntries m₂ p) →
        ((c.told m₁).validate h object).1.mute paths =
          ((c.told m₂).validate h object).1.mute paths) ∧
    ∀ m o, object = some o → (h.mapping? o).isSome →
      ∀ d ∈ FieldError.forest ((c.told m).validate h object).1.errors.values,
        ∃ p x k, c.Reaches h o p x ∧ x.Complains c.schema h k ∧ d.name = .str (dotted p) ∧
          d.typeName = some x.field.typeRef ∧
          (∀ w, m.field? (dotted p) = some w → w ≠ .null → d.message = w) ∧
          (m.field? (dotted p) = none ∨ m.field? (dotted p) = some .null →
            d.message = .str (k.message (dotted p))) := by
  refine ⟨fun m₁ m₂ hw₁ hw₂ => ⟨verdict_told hc hw₁ hw₂ object, fun paths hm => ?_⟩, ?_⟩
  · exact mute_validate hc hw₁ hw₂ hm object
  · rintro m o rfl ho d hd
    exact message_of_mem_forest (hc.told m) ho hd

/-- The link from the first place of the ring to the second. -/
def linkThere : Place := ⟨⟨"next", "Link", none⟩, some (.object 1), [0]⟩

/-- The link from the second place of the ring back to the first. -/
def linkBack : Place := ⟨⟨"next", "Link", none⟩, some (.object 0), [1, 0]⟩

theorem reaches_linkThere (m : Entries) :
    (linkContext.told m).Reaches ring (.object 0) ["next"] linkThere :=
  ⟨0, _, rfl, .here (List.mem_cons_self ..)⟩

/-- The links of the ring lead back to where they start. -/
theorem exists_failure_linkThere (m : Entries) :
    ∃ d, linkThere.failure? linkSchema ring (linkContext.told m).overrides (dotted ["next"]) =
      some d := by
  have hthere : linkThere ∈ Place.row linkType
      [(.str "next", .object 1), (.str "label", .str "a")] [0] := List.mem_cons_self ..
  have hinside : linkBack ∈ linkThere.inner linkSchema ring := List.mem_cons_self ..
  have hback : (linkContext.told m).Reaches ring (.object 0) (["next"] ++ ["next"]) linkBack :=
    ⟨0, _, rfl, .inside hthere (.here hinside)⟩
  have hround : linkBack.Violated ring :=
    .circular rfl (by rfl : ring.mapping? (.object 0) = some (0, _)) (by decide)
  have hc := linkContext_compiled.told m
  exact ((reaches_linkThere m).exists_failure_iff hc).2
    (.inr ⟨["next"], linkBack, List.cons_ne_nil _ _, hback, hround⟩)

/-- Overrides for the links of the ring. -/
def linkWords : Entries := [(.str "next", .str "broken link")]

/-- In the ring the link from the first place to the second is described in other words, and
nothing else is. -/
theorem overrides_change_text_only_ring : linkContext.Compiled ∧
    (Overrides.ofEntries linkWords).Legible ∧ (Overrides.ofEntries []).Legible ∧
    ((linkContext.told linkWords).validate ring (some (.object 0))).2 =
      ((linkContext.told []).validate ring (some (.object 0))).2 ∧
    ((linkContext.told linkWords).validate ring (some (.object 0))).1.mute (· == "next") =
      ((linkContext.told []).validate ring (some (.object 0))).1.mute (· == "next") ∧
    ∃ d ∈ FieldError.forest
        ((linkContext.told linkWords).validate ring (some (.object 0))).1.errors.values,
      d.name = .str "next" ∧ d.message = .str "broken link" := by
  have hc := linkContext_compiled
  have hm : (ring.mapping? (.object 0)).isSome := by rfl
  obtain ⟨htwo, hnodes⟩ := overrides_change_text_only hc ring (some (.object 0))
  have hwords : (Overrides.ofEntries linkWords).Legible :=
    Overrides.legible_of_texts (List.forall_mem_singleton.2 ⟨"broken link", rfl⟩)
  obtain ⟨hverdict, hmute⟩ := htwo linkWords [] hwords Overrides.legible_nil
  refine ⟨hc, hwords, Overrides.legible_nil, hverdict, hmute _ fun p hp => ?_, ?_⟩
  · have hne : ¬"next" = p := fun he => by
      rw [← he] at hp
      contradiction
    unfold Overrides.ofEntries linkWords Entries.field?
    rw [if_neg hne]
    rfl
  · obtain ⟨d, hfail⟩ := exists_failure_linkThere linkWords
    have hthere := reaches_linkThere linkWords
    have hd := (mem_forest_validate (hc.told linkWords) hwords hm).2 ⟨_, _, hthere, hfail⟩
    have hn : d.name = .str "next" := (hthere.failure_eq (hc.told linkWords) hfail).1
    obtain ⟨p, x, k, -, -, hname, -, hmessage, -⟩ := hnodes linkWords _ rfl hm d hd
    rw [hn] at hname
    rw [← Value.str.inj hname] at hmessage
    refine ⟨d, hd, hn, hmessage _ (by rfl) fun he => ?_⟩
    contradiction

end Context

end ShapeCheck
