import ShapeCheck.Proofs.Check.Path
import ShapeCheck.Proofs.Session.Recording

/-
  What a validation reports. A failure and the failures inside it make a tree, and the trees that a
  validation records make a forest. By `mem_forest_failures` its nodes are the failures of the
  places that paths lead to, each under the spelling of its path, and by `failures_eq_nil_iff` there
  are none exactly if nothing on any path is violated. `validate_covers_violations` puts the two
  together: a node for every violated place and for every place on the way to one, and no other.
-/

namespace ShapeCheck

/-! ## Trees of failures -/

mutual

/-- A failure and the failures inside it. -/
def FieldError.nodes : FieldError → List FieldError
  | ⟨name, message, typeName, details⟩ =>
    ⟨name, message, typeName, details⟩ :: FieldError.forest details

/-- The failures of a row and those inside them. -/
def FieldError.forest : List FieldError → List FieldError
  | [] => []
  | e :: es => e.nodes ++ FieldError.forest es

end

theorem FieldError.nodes_eq (e : FieldError) : e.nodes = e :: FieldError.forest e.details := by
  cases e
  rw [FieldError.nodes]

theorem FieldError.mem_forest {d : FieldError} {es : List FieldError} :
    d ∈ FieldError.forest es ↔ ∃ e ∈ es, d = e ∨ d ∈ FieldError.forest e.details := by
  induction es with
  | nil => simp [FieldError.forest]
  | cons e es ih =>
    rw [FieldError.forest, List.mem_append, FieldError.nodes_eq, List.mem_cons, ih]
    simp only [List.mem_cons, exists_eq_or_imp]

namespace Place

variable {s : Schema} {h : Heap} {m : Overrides} {row : List Place} {x z : Place}
  {p : List String} {d : FieldError}

/-- The failures of a row of places, whose object is at a path. -/
def failures (s : Schema) (h : Heap) (m : Overrides) (row : List Place) (p : List String) :
    List FieldError :=
  row.filterMap fun x => x.failure? s h m (dotted (p ++ [x.field.name]))

theorem details_dotted (hp : IsPath p) :
    x.details s h m (dotted p) = failures s h m (x.inner s h) p := by
  rw [details, failures]
  refine List.filterMap_congr fun y _ => ?_
  rw [joinPath_dotted hp]

/-- The nodes of the failure at a place. -/
theorem mem_tree_iff (hs : s.Compiled) (hx : x.Resolved s) {path : String} :
    (∃ e, x.failure? s h m path = some e ∧ (d = e ∨ d ∈ FieldError.forest e.details)) ↔
      x.failure? s h m path = some d ∨ d ∈ FieldError.forest (x.details s h m path) := by
  cases he : x.failure? s h m path with
  | none =>
    -- no failure means no details, so that nothing is lost by going on without a node
    rw [((failure?_eq_none_iff hs.toClosed hx path).1 he).2]
    simp [FieldError.forest]
  | some e =>
    rw [← (failure?_eq_some hs.toClosed hx he).2.1]
    constructor
    · rintro ⟨e', he', rfl | hd⟩
      · exact .inl he'
      · exact .inr (Option.some.inj he' ▸ hd)
    · rintro (he' | hd)
      · exact ⟨e, rfl, .inl (Option.some.inj he').symm⟩
      · exact ⟨e, rfl, .inr hd⟩

theorem isPath_field (hrow : Proper s row) (hp : IsPath p) (hx : x ∈ row) :
    IsPath (p ++ [x.field.name]) :=
  isPath_append.2 ⟨hp, isPath_cons.2 ⟨hrow.isIdentifier_name x hx, isPath_nil⟩⟩

/-- The nodes of the failures of a row are the failures of the places that can be walked to. -/
theorem mem_forest_failures (hs : s.Compiled) (hrow : Proper s row) (hp : IsPath p) :
    d ∈ FieldError.forest (failures s h m row p) ↔
      ∃ q z, Walk s h row q z ∧ z.failure? s h m (dotted (p ++ q)) = some d := by
  refine row_induction (h := h) (P := fun row => ∀ p, IsPath p →
    (d ∈ FieldError.forest (failures s h m row p) ↔
      ∃ q z, Walk s h row q z ∧ z.failure? s h m (dotted (p ++ q)) = some d))
    hs ?_ hrow p hp
  intro row hrow ih p hp
  -- at each place of the row: its own failure, or what the induction gives for the row inside it
  have htree : ∀ x ∈ row,
      ((∃ e, x.failure? s h m (dotted (p ++ [x.field.name])) = some e ∧
        (d = e ∨ d ∈ FieldError.forest e.details)) ↔
      (x.failure? s h m (dotted (p ++ [x.field.name])) = some d ∨
        ∃ q z, Walk s h (x.inner s h) q z ∧
          z.failure? s h m (dotted (p ++ x.field.name :: q)) = some d)) := by
    intro x hx
    have hxp := isPath_field hrow hp hx
    rw [mem_tree_iff hs (hrow.resolved x hx), details_dotted hxp, ih x hx _ hxp]
    simp only [List.append_assoc, List.singleton_append]
  rw [exists_walk, FieldError.mem_forest]
  constructor
  · rintro ⟨e, he, hd⟩
    obtain ⟨x, hx, he⟩ := List.mem_filterMap.1 he
    exact ⟨x, hx, (htree x hx).1 ⟨e, he, hd⟩⟩
  · rintro ⟨x, hx, hd⟩
    obtain ⟨e, he, hd⟩ := (htree x hx).2 hd
    exact ⟨e, List.mem_filterMap.2 ⟨x, hx, he⟩, hd⟩

/-- There are no failures of a row if and only if no place that can be walked to is violated. -/
theorem failures_eq_nil_iff (hs : s.Compiled) (hrow : Proper s row) (hp : IsPath p) :
    failures s h m row p = [] ↔ ∀ q z, Walk s h row q z → ¬z.Violated h := by
  refine row_induction (h := h) (P := fun row => ∀ p, IsPath p →
    (failures s h m row p = [] ↔ ∀ q z, Walk s h row q z → ¬z.Violated h)) hs ?_ hrow p hp
  intro row hrow ih p hp
  have hfail : ∀ x ∈ row, (x.failure? s h m (dotted (p ++ [x.field.name])) = none ↔
      ¬x.Violated h ∧ ∀ q z, Walk s h (x.inner s h) q z → ¬z.Violated h) := by
    intro x hx
    have hxp := isPath_field hrow hp hx
    rw [failure?_eq_none_iff hs.toClosed (hrow.resolved x hx), details_dotted hxp,
      ih x hx _ hxp, violated_iff, Option.not_isSome_iff_eq_none]
  rw [failures, List.filterMap_eq_nil_iff]
  constructor
  · intro hnone q z hw hz
    cases hw with
    | here hx => exact ((hfail _ hx).1 (hnone _ hx)).1 hz
    | inside hx hw => exact ((hfail _ hx).1 (hnone _ hx)).2 _ z hw hz
  · intro hall x hx
    exact (hfail x hx).2 ⟨hall _ x (.here hx), fun q z hw => hall _ z (.inside hx hw)⟩

/-- The failure at a place is there if and only if the place is violated or one inside it is. -/
theorem failure?_isSome_iff (hs : s.Compiled) (hx : x.Resolved s) (hp : IsPath p) :
    (∃ e, x.failure? s h m (dotted p) = some e) ↔
      x.Violated h ∨ ∃ q z, Walk s h (x.inner s h) q z ∧ z.Violated h := by
  rw [← Option.ne_none_iff_exists', Ne, failure?_eq_none_iff hs.toClosed hx, details_dotted hp,
    failures_eq_nil_iff hs (proper_inner hs h x) hp, violated_iff, ← Option.not_isSome_iff_eq_none]
  simp only [not_and_or, not_not, not_forall, exists_prop]

end Place

/-! ## Validations -/

namespace Context

open Place

variable {h : Heap} {c : Context} {o : Value} {a : Addr} {es : Entries}

/-- Where a path leads to from an object of the root type. -/
def Reaches (h : Heap) (c : Context) (o : Value) (p : List String) (x : Place) : Prop :=
  ∃ a es, h.mapping? o = some (a, es) ∧ Walk c.schema h (row c.root es [a]) p x

theorem reaches_iff (hm : h.mapping? o = some (a, es)) {p : List String} {x : Place} :
    c.Reaches h o p x ↔ Walk c.schema h (row c.root es [a]) p x := by
  constructor
  · rintro ⟨b, fs, hm', hw⟩
    rw [hm] at hm'
    cases hm'
    exact hw
  · intro hw
    exact ⟨a, es, hm, hw⟩

theorem distinct_validate (hc : c.Compiled) (hm : (h.mapping? o).isSome) :
    (c.validate h (some o)).1.Distinct := by
  rw [hc.closed.validate_eq hm]
  exact (Outcome.distinct_reset _).recordAll

/-- The failures that a validation records are those of the fields that it goes through. -/
theorem mem_values_validate_iff (hc : c.Compiled) (hm : h.mapping? o = some (a, es))
    {e : FieldError} :
    e ∈ (c.validate h (some o)).1.errors.values ↔ ∃ f ∈ c.root.fields, f.name ∈ c.noted h o ∧
      Place.failure? c.schema h c.overrides ⟨f, es.field? f.name, [a]⟩ f.name = some e := by
  have hsome : (h.mapping? o).isSome := Option.isSome_iff_exists.2 ⟨_, hm⟩
  rw [Outcome.mem_values_iff (distinct_validate hc hsome)]
  constructor
  · rintro ⟨k, he⟩
    rw [get?_validate hc hsome] at he
    split at he
    · rename_i hk
      obtain ⟨f, hf, rfl⟩ := List.mem_map.1 (mem_of_mem_noted hk)
      rw [found?_field hc hm hf] at he
      exact ⟨f, hf, hk, he⟩
    · contradiction
  · rintro ⟨f, hf, hk, he⟩
    refine ⟨f.name, ?_⟩
    rw [get?_validate hc hsome, if_pos hk, found?_field hc hm hf]
    exact he

theorem mem_failures_row {m : Overrides} {e : FieldError} :
    e ∈ failures c.schema h m (row c.root es [a]) [] ↔ ∃ f ∈ c.root.fields,
      Place.failure? c.schema h m ⟨f, es.field? f.name, [a]⟩ f.name = some e := by
  rw [failures, List.mem_filterMap]
  constructor
  · rintro ⟨x, hx, he⟩
    obtain ⟨f, hf, rfl⟩ := mem_row.1 hx
    exact ⟨f, hf, he⟩
  · rintro ⟨f, hf, he⟩
    exact ⟨_, mem_row.2 ⟨f, hf, rfl⟩, he⟩

theorem mem_failures_of_mem_values (hc : c.Compiled) (hm : h.mapping? o = some (a, es))
    {e : FieldError} (he : e ∈ (c.validate h (some o)).1.errors.values) :
    e ∈ failures c.schema h c.overrides (row c.root es [a]) [] := by
  obtain ⟨f, hf, -, he⟩ := (mem_values_validate_iff hc hm).1 he
  exact mem_failures_row.2 ⟨f, hf, he⟩

/-- With legible overrides they are those of all fields of the object. -/
theorem mem_values_validate (hc : c.Compiled) (hw : c.overrides.Legible)
    (hm : h.mapping? o = some (a, es)) {e : FieldError} :
    e ∈ (c.validate h (some o)).1.errors.values ↔
      e ∈ failures c.schema h c.overrides (row c.root es [a]) [] := by
  refine ⟨mem_failures_of_mem_values hc hm, fun he => (mem_values_validate_iff hc hm).2 ?_⟩
  obtain ⟨f, hf, he⟩ := mem_failures_row.1 he
  refine ⟨f, hf, ?_, he⟩
  rw [hc.closed.noted_eq hw (Option.isSome_iff_exists.2 ⟨_, hm⟩)]
  exact ObjectType.mem_fieldNames hf

theorem mem_forest_failures_row (hc : c.Compiled) (hm : h.mapping? o = some (a, es))
    {d : FieldError} :
    d ∈ FieldError.forest (failures c.schema h c.overrides (row c.root es [a]) []) ↔
      ∃ p x, c.Reaches h o p x ∧ x.failure? c.schema h c.overrides (dotted p) = some d := by
  have hrow := proper_row hc.schema hc.root es [a]
  have hnodes := mem_forest_failures (h := h) (m := c.overrides) (d := d) hc.schema hrow isPath_nil
  simp only [List.nil_append] at hnodes
  simp only [reaches_iff hm, hnodes]

/-- The nodes that a validation records are failures of places that can be walked to. -/
theorem reaches_of_mem_forest (hc : c.Compiled) (hm : (h.mapping? o).isSome) {d : FieldError}
    (hd : d ∈ FieldError.forest (c.validate h (some o)).1.errors.values) :
    ∃ p x, c.Reaches h o p x ∧ x.failure? c.schema h c.overrides (dotted p) = some d := by
  obtain ⟨⟨a, es⟩, hm⟩ := Option.isSome_iff_exists.1 hm
  rw [← mem_forest_failures_row hc hm]
  rw [FieldError.mem_forest] at hd ⊢
  obtain ⟨e, he, hd⟩ := hd
  exact ⟨e, mem_failures_of_mem_values hc hm he, hd⟩

/-- With legible overrides they are the failures of all those places. -/
theorem mem_forest_validate (hc : c.Compiled) (hw : c.overrides.Legible)
    (hm : (h.mapping? o).isSome) {d : FieldError} :
    d ∈ FieldError.forest (c.validate h (some o)).1.errors.values ↔
      ∃ p x, c.Reaches h o p x ∧ x.failure? c.schema h c.overrides (dotted p) = some d := by
  obtain ⟨⟨a, es⟩, hm⟩ := Option.isSome_iff_exists.1 hm
  rw [← mem_forest_failures_row hc hm, FieldError.mem_forest, FieldError.mem_forest]
  simp only [mem_values_validate hc hw hm]

theorem Reaches.isPath (hc : c.Compiled) {p : List String} {x : Place}
    (hr : c.Reaches h o p x) : IsPath p := by
  obtain ⟨a, es, -, hw⟩ := hr
  exact hw.isPath hc.schema (proper_row hc.schema hc.root es [a])

theorem Reaches.resolved (hc : c.Compiled) {p : List String} {x : Place}
    (hr : c.Reaches h o p x) : x.Resolved c.schema := by
  obtain ⟨a, es, -, hw⟩ := hr
  exact hw.resolved hc.schema (proper_row hc.schema hc.root es [a])

theorem Reaches.unique (hc : c.Compiled) {p : List String} {x y : Place}
    (hx : c.Reaches h o p x) (hy : c.Reaches h o p y) : x = y := by
  obtain ⟨a, es, hm, hw⟩ := hx
  exact hw.unique hc.schema (proper_row hc.schema hc.root es [a]) ((reaches_iff hm).1 hy)

/-- What is reached beyond a place is what can be walked to inside it. -/
theorem Reaches.beyond_iff (hc : c.Compiled) {p : List String} {x : Place}
    (hr : c.Reaches h o p x) {R : Place → Prop} :
    (∃ q z, Walk c.schema h (x.inner c.schema h) q z ∧ R z) ↔
      ∃ q z, q ≠ [] ∧ c.Reaches h o (p ++ q) z ∧ R z := by
  obtain ⟨a, es, hm, hw⟩ := hr
  have hrow := proper_row hc.schema hc.root es [a]
  constructor
  · rintro ⟨q, z, hq, hz⟩
    exact ⟨q, z, hq.ne_nil, (reaches_iff hm).2 (hw.append hq), hz⟩
  · rintro ⟨q, z, hne, hq, hz⟩
    exact ⟨q, z, hw.rest hc.schema hrow hne ((reaches_iff hm).1 hq), hz⟩

/-- The failure found at a place is named by the path to it. -/
theorem Reaches.failure_eq (hc : c.Compiled) {p : List String} {x : Place}
    (hr : c.Reaches h o p x) {e : FieldError}
    (he : x.failure? c.schema h c.overrides (dotted p) = some e) :
    e.name = .str (dotted p) ∧ (e.details = [] ↔ x.Violated h) := by
  obtain ⟨hn, -, hd⟩ := failure?_eq_some hc.schema.toClosed (hr.resolved hc) he
  exact ⟨hn, hd.trans violated_iff.symm⟩

theorem Reaches.path_eq (hc : c.Compiled) {p q : List String} {x : Place}
    (hr : c.Reaches h o q x) (hp : IsPath p) (hn : Value.str (dotted q) = .str (dotted p)) :
    q = p :=
  dotted_injective (hr.isPath hc) hp (Value.str.inj hn)

/-- There is a failure at a place if and only if the place is violated or one beyond it is. -/
theorem Reaches.exists_failure_iff (hc : c.Compiled) {p : List String} {x : Place}
    (hr : c.Reaches h o p x) :
    (∃ e, x.failure? c.schema h c.overrides (dotted p) = some e) ↔
      x.Violated h ∨ ∃ q z, q ≠ [] ∧ c.Reaches h o (p ++ q) z ∧ z.Violated h := by
  rw [failure?_isSome_iff hc.schema (hr.resolved hc) (hr.isPath hc), hr.beyond_iff hc]

/-- A validation is valid if it records no failure. -/
theorem isValid_validate_iff (hc : c.Compiled) (hw : c.overrides.Legible)
    (hm : (h.mapping? o).isSome) :
    (c.validate h (some o)).1.isValid = true ↔ ∀ p x, c.Reaches h o p x → ¬x.Violated h := by
  obtain ⟨⟨a, es⟩, hm⟩ := Option.isSome_iff_exists.1 hm
  have hrow := proper_row hc.schema hc.root es [a]
  have hnone := failures_eq_nil_iff (h := h) (m := c.overrides) hc.schema hrow isPath_nil
  simp only [reaches_iff hm]
  rw [← hnone, List.eq_nil_iff_forall_not_mem]
  simp only [← mem_values_validate hc hw hm]
  rw [← List.eq_nil_iff_forall_not_mem, Outcome.isValid, List.isEmpty_iff, Assoc.values,
    List.map_eq_nil_iff]

/-- Exact coverage. The nodes recorded by a validation are named by paths that can be walked, one
for each path that is violated or goes on to one that is; a node has no details exactly if its own
path is violated, and the validation succeeds exactly if no path is. The overrides may be any that
can be written out, such as all texts. -/
theorem validate_covers_violations (hc : c.Compiled) (hw : c.overrides.Legible)
    (hm : (h.mapping? o).isSome) :
    ∃ out valid, c.validate h (some o) = (out, .ok valid) ∧
      (∀ p, IsPath p → ((∃ e ∈ FieldError.forest out.errors.values, e.name = .str (dotted p)) ↔
        ∃ x, c.Reaches h o p x ∧
          (x.Violated h ∨ ∃ q z, q ≠ [] ∧ c.Reaches h o (p ++ q) z ∧ z.Violated h))) ∧
      (∀ p x, c.Reaches h o p x → ∀ e ∈ FieldError.forest out.errors.values,
        e.name = .str (dotted p) → (e.details = [] ↔ x.Violated h)) ∧
      (∀ e ∈ FieldError.forest out.errors.values,
        ∃ p x, c.Reaches h o p x ∧ e.name = .str (dotted p)) ∧
      (∀ e ∈ FieldError.forest out.errors.values, ∀ e' ∈ FieldError.forest out.errors.values,
        e.name = e'.name → e = e') ∧
      (valid = true ↔ ∀ p x, c.Reaches h o p x → ¬x.Violated h) := by
  have hnode : ∀ {d}, d ∈ FieldError.forest (c.validate h (some o)).1.errors.values ↔
      ∃ p x, c.Reaches h o p x ∧ x.failure? c.schema h c.overrides (dotted p) = some d :=
    mem_forest_validate hc hw hm
  have hvalid := isValid_validate_iff hc hw hm
  refine ⟨_, _, validate_ok hc hw hm, ?_⟩
  rw [validate_ok hc hw hm] at hnode hvalid
  refine ⟨fun p hp => ⟨?_, ?_⟩, ?_, ?_, ?_, hvalid⟩
  · rintro ⟨e, he, hn⟩
    obtain ⟨q, x, hr, he⟩ := hnode.1 he
    rw [(hr.failure_eq hc he).1] at hn
    obtain rfl := hr.path_eq hc hp hn
    exact ⟨x, hr, (hr.exists_failure_iff hc).1 ⟨e, he⟩⟩
  · rintro ⟨x, hr, hx⟩
    obtain ⟨e, he⟩ := (hr.exists_failure_iff hc).2 hx
    exact ⟨e, hnode.2 ⟨p, x, hr, he⟩, (hr.failure_eq hc he).1⟩
  · intro p x hr e he hn
    obtain ⟨q, y, hr', he⟩ := hnode.1 he
    rw [(hr'.failure_eq hc he).1] at hn
    obtain rfl := hr'.path_eq hc (hr.isPath hc) hn
    rw [hr.unique hc hr']
    exact (hr'.failure_eq hc he).2
  · intro e he
    obtain ⟨p, x, hr, he⟩ := hnode.1 he
    exact ⟨p, x, hr, (hr.failure_eq hc he).1⟩
  · intro e he e' he' hn
    obtain ⟨p, x, hr, he⟩ := hnode.1 he
    obtain ⟨q, y, hr', he'⟩ := hnode.1 he'
    rw [(hr.failure_eq hc he).1, (hr'.failure_eq hc he').1] at hn
    obtain rfl := hr.path_eq hc (hr'.isPath hc) hn
    rw [hr.unique hc hr', he'] at he
    exact (Option.some.inj he).symm

/-- Two links that are next to each other; the second has no label. -/
def ring : Heap where
  cells := #[.mapping [(.str "next", .object 1), (.str "label", .str "a")],
    .mapping [(.str "next", .object 0)]]

/-- The way round the ring is reported where it closes. -/
theorem validate_ring_covered : linkContext.Compiled ∧ linkContext.overrides.Legible ∧
    (ring.mapping? (.object 0)).isSome ∧
    ∃ out valid, linkContext.validate ring (some (.object 0)) = (out, .ok valid) ∧
      valid = false ∧ ∃ e ∈ FieldError.forest out.errors.values,
        e.name = .str "next.next" ∧ e.details = [] := by
  have hm : (ring.mapping? (.object 0)).isSome := by cbv
  have hmem : (⟨⟨"next", "Link", none⟩, some (.object 1), [0]⟩ : Place) ∈
      row linkType [(.str "next", .object 1), (.str "label", .str "a")] [0] :=
    List.mem_cons_self ..
  have hinner : (⟨⟨"next", "Link", none⟩, some (.object 0), [1, 0]⟩ : Place) ∈
      inner linkSchema ring ⟨⟨"next", "Link", none⟩, some (.object 1), [0]⟩ :=
    List.mem_cons_self ..
  have hr : linkContext.Reaches ring (.object 0) ["next", "next"]
      ⟨⟨"next", "Link", none⟩, some (.object 0), [1, 0]⟩ :=
    ⟨0, _, rfl, .inside hmem (.here hinner)⟩
  have hx : Violated ring ⟨⟨"next", "Link", none⟩, some (.object 0), [1, 0]⟩ :=
    .circular rfl (by rfl : ring.mapping? (.object 0) = some (0, _)) (by decide)
  obtain ⟨out, valid, hv, hnode, hdetails, -, -, hvalid⟩ :=
    validate_covers_violations linkContext_compiled Overrides.legible_nil hm
  obtain ⟨e, he, hn⟩ := (hnode _ (hr.isPath linkContext_compiled)).2 ⟨_, hr, .inl hx⟩
  refine ⟨linkContext_compiled, Overrides.legible_nil, hm, out, valid, hv, ?_, e, he, hn,
    (hdetails _ _ hr e he hn).2 hx⟩
  exact Bool.eq_false_iff.2 fun ht => hvalid.1 ht _ _ hr hx

end Context

end ShapeCheck
