import ShapeCheck.Proofs.Check.Path

/-
  Findings: what a check finds at a place, told without paths and messages. A finding is a tree of
  complaints, and the failure reported for it is the finding spelled at its path under some
  overrides (`failure?_eq_spell`). So two checks can be compared by what they find, wherever they
  start and whatever they are to say. What is found depends on the objects around a place only as
  far as the check meets them again (`finding?_withSeen`).
-/

namespace ShapeCheck

/-- What is said of the value of a field, and of the fields inside it. -/
structure Finding where
  field : Field
  complaint : Complaint
  inside : List Finding

namespace Finding

mutual

/-- The failure that reports a finding at a path. -/
def spell (m : Overrides) (path : String) : Finding → FieldError
  | ⟨f, c, inside⟩ => f.failure m path c (spellAll m path inside)

/-- The failures that report findings in the object at a path. -/
def spellAll (m : Overrides) (parent : String) : List Finding → List FieldError
  | [] => []
  | g :: gs => g.spell m (joinPath parent g.field.name) :: spellAll m parent gs

end

theorem spellAll_eq_nil_iff {m : Overrides} {parent : String} {gs : List Finding} :
    spellAll m parent gs = [] ↔ gs = [] := by
  cases gs with
  | nil => simp [spellAll]
  | cons g gs => simp [spellAll]

end Finding

namespace Place

variable {s : Schema} {h : Heap} {m : Overrides} {x y z : Place} {t : ObjectType} {es : Entries}
  {A B : List Addr} {p q : List String}

/-- What is found at a place: what is wrong with the value itself, or else inside it. -/
def finding? (s : Schema) (h : Heap) (x : Place) : Option Finding :=
  match x.violation? h with
  | some c => some ⟨x.field, c, []⟩
  | none =>
    match (x.inner s h).attach.filterMap fun y => y.1.finding? s h with
    | [] => none
    | inside => some ⟨x.field, .invalid x.field.typeRef, inside⟩
termination_by h.unvisited x.seen
decreasing_by exact unvisited_lt_of_mem_inner y.2

/-- What is found in a row of places. -/
def findings (s : Schema) (h : Heap) (row : List Place) : List Finding :=
  row.filterMap (finding? s h)

theorem finding?_eq (s : Schema) (h : Heap) (x : Place) :
    x.finding? s h = match x.violation? h with
      | some c => some ⟨x.field, c, []⟩
      | none =>
        match findings s h (x.inner s h) with
        | [] => none
        | inside => some ⟨x.field, .invalid x.field.typeRef, inside⟩ := by
  have hinside : ((x.inner s h).attach.filterMap fun y => y.1.finding? s h) =
      findings s h (x.inner s h) := by
    simp [findings]
  rw [finding?, hinside]

theorem finding?_of_violation {c : Complaint} (hc : x.violation? h = some c) :
    x.finding? s h = some ⟨x.field, c, []⟩ := by
  rw [finding?_eq, hc]

theorem finding?_of_none (hc : x.violation? h = none) (hi : findings s h (x.inner s h) = []) :
    x.finding? s h = none := by
  rw [finding?_eq, hc, hi]

theorem finding?_of_inside (hc : x.violation? h = none) (hi : findings s h (x.inner s h) ≠ []) :
    x.finding? s h =
      some ⟨x.field, .invalid x.field.typeRef, findings s h (x.inner s h)⟩ := by
  rw [finding?_eq, hc]
  dsimp only
  split
  · rename_i he
    exact absurd he hi
  · rfl

theorem field_of_finding? {g : Finding} (hg : x.finding? s h = some g) : g.field = x.field := by
  cases hc : x.violation? h with
  | some c =>
    rw [finding?_of_violation hc] at hg
    cases hg
    rfl
  | none =>
    by_cases hi : findings s h (x.inner s h) = []
    · rw [finding?_of_none hc hi] at hg
      contradiction
    · rw [finding?_of_inside hc hi] at hg
      cases hg
      rfl

/-! ## Findings and failures -/

theorem spellAll_findings {row : List Place}
    (hrow : ∀ y ∈ row, ∀ path, y.failure? s h m path = (y.finding? s h).map (·.spell m path))
    (parent : String) :
    row.filterMap (fun y => y.failure? s h m (joinPath parent y.field.name)) =
      Finding.spellAll m parent (findings s h row) := by
  induction row with
  | nil => rfl
  | cons y row ih =>
    obtain ⟨hy, hrow⟩ := List.forall_mem_cons.1 hrow
    have hy := hy (joinPath parent y.field.name)
    cases hg : y.finding? s h with
    | none =>
      rw [hg, Option.map_none] at hy
      simp only [findings, List.filterMap_cons, hy, hg]
      exact ih hrow
    | some g =>
      rw [hg, Option.map_some] at hy
      simp only [findings, List.filterMap_cons, hy, hg, Finding.spellAll, field_of_finding? hg]
      exact congrArg _ (ih hrow)

/-- The failure at a place is what is found there, spelled at the path. -/
theorem failure?_eq_spell (hs : s.Closed) (hx : x.Resolved s) (m : Overrides) (path : String) :
    x.failure? s h m path = (x.finding? s h).map (·.spell m path) := by
  refine place_induction (h := h)
    (P := fun x => ∀ path, x.failure? s h m path = (x.finding? s h).map (·.spell m path))
    hs hx ?_ path
  intro x hx ih path
  cases hc : x.violation? h with
  | some c =>
    rw [failure?_of_violation hs hx hc, finding?_of_violation hc, Option.map_some,
      Finding.spell, Finding.spellAll]
  | none =>
    have hd : x.details s h m path = Finding.spellAll m path (findings s h (x.inner s h)) :=
      spellAll_findings ih path
    by_cases hi : findings s h (x.inner s h) = []
    · rw [finding?_of_none hc hi, Option.map_none, failure?_eq_none_iff hs hx]
      exact ⟨hc, hd.trans (Finding.spellAll_eq_nil_iff.2 hi)⟩
    · have hne : x.details s h m path ≠ [] := fun he =>
        hi (Finding.spellAll_eq_nil_iff.1 (hd.symm.trans he))
      rw [finding?_of_inside hc hi, Option.map_some, Finding.spell, ← hd,
        failure?_of_details hs hx hc hne]

theorem failures_eq_spell {row : List Place} (hs : s.Closed) (hrow : ∀ y ∈ row, y.Resolved s)
    (m : Overrides) (parent : String) :
    row.filterMap (fun y => y.failure? s h m (joinPath parent y.field.name)) =
      Finding.spellAll m parent (findings s h row) :=
  spellAll_findings (fun y hy => failure?_eq_spell hs (hrow y hy) m) parent

/-! ## Other objects around a place -/

/-- The place with other objects around it. -/
def withSeen (x : Place) (B : List Addr) : Place := { x with seen := B }

/-- The object at an address stands at a place that asks for an object. -/
def Holds (h : Heap) (x : Place) (a : Addr) : Prop :=
  x.field.scalar = none ∧ ∃ v es, x.value = some v ∧ h.mapping? v = some (a, es)

theorem map_withSeen_row (t : ObjectType) (es : Entries) (A B : List Addr) :
    (row t es A).map (·.withSeen B) = row t es B := by
  rw [row, List.map_map]
  rfl

/-- An object that a place holds is what decides whether it is entered. -/
theorem violation?_withSeen (hx : ∀ a, x.Holds h a → (a ∈ x.seen ↔ a ∈ B)) :
    (x.withSeen B).violation? h = x.violation? h := by
  cases hv : x.value with
  | none => simp only [violation?, withSeen, hv]
  | some v =>
    by_cases hn : v = .null
    · simp only [violation?, withSeen, hv, hn]
    · cases hf : x.field.scalar with
      | some k =>
        rw [violation?_of_scalar hv hn hf]
        exact violation?_of_scalar (x := x.withSeen B) hv hn hf
      | none =>
        rw [violation?_of_object hv hn hf, violation?_of_object (x := x.withSeen B) hv hn hf]
        cases hm : h.mapping? v with
        | none => rfl
        | some e =>
          have ha := hx e.1 ⟨hf, v, e.2, hv, hm⟩
          exact (if_congr ha rfl rfl).symm

/-- An object that is entered is entered among other objects too, unless it is one of them. -/
theorem inner_withSeen (hi : x.inner s h ≠ []) : ∃ a, x.Holds h a ∧ a ∉ x.seen ∧
    (∀ y ∈ x.inner s h, y.seen = a :: x.seen) ∧
    ∀ B, a ∉ B → (x.withSeen B).inner s h = (x.inner s h).map (·.withSeen (a :: B)) := by
  obtain ⟨y, hy⟩ := List.exists_mem_of_ne_nil _ hi
  obtain ⟨t, v, a, es, hf, ht, hv, hm, ha, hrow⟩ := entered_of_mem_inner hy
  refine ⟨a, ⟨hf, v, es, hv, hm⟩, ha, fun z hz => ?_, fun B hB => ?_⟩
  · obtain ⟨f, -, rfl⟩ := mem_row.1 (hrow ▸ hz)
    rfl
  · rw [hrow, map_withSeen_row]
    exact inner_of_entered (x := x.withSeen B) hf ht hv hm hB

theorem inner_withSeen_eq_nil (hx : ∀ a, x.Holds h a → (a ∈ x.seen ↔ a ∈ B))
    (hi : x.inner s h = []) : (x.withSeen B).inner s h = [] := by
  by_contra hne
  obtain ⟨a, ha, hB, -, hentered⟩ := inner_withSeen hne
  have hseen : a ∉ x.seen := fun hs => hB ((hx a ha).1 hs)
  have hback : x.inner s h = ((x.withSeen B).inner s h).map (·.withSeen (a :: x.seen)) :=
    hentered x.seen hseen
  rw [hi] at hback
  exact hne (List.map_eq_nil_iff.1 hback.symm)

/-- The same is found at two places, of two heaps it may be, if it is found in the values
themselves and inside them. -/
theorem finding?_congr {h' : Heap} (hfield : x.field = y.field)
    (hc : x.violation? h = y.violation? h')
    (hi : findings s h (x.inner s h) = findings s h' (y.inner s h')) :
    x.finding? s h = y.finding? s h' := by
  rw [finding?_eq, finding?_eq, hfield, hc, hi]

/-- What is found at a place does not depend on objects around it that the check does not meet. -/
theorem finding?_withSeen (hx : ∀ a, x.Holds h a → (a ∈ x.seen ↔ a ∈ B))
    (hw : ∀ q z, Walk s h (x.inner s h) q z → ∀ a, z.Holds h a → (a ∈ x.seen ↔ a ∈ B)) :
    (x.withSeen B).finding? s h = x.finding? s h := by
  induction hn : h.unvisited x.seen using Nat.strongRecOn generalizing x B with
  | ind n ih =>
    have hinside : findings s h ((x.withSeen B).inner s h) = findings s h (x.inner s h) := by
      by_cases hi : x.inner s h = []
      · rw [hi, inner_withSeen_eq_nil hx hi]
      · obtain ⟨a, ha, hseen, hinner, hentered⟩ := inner_withSeen hi
        have hB : a ∉ B := fun hb => hseen ((hx a ha).2 hb)
        have hcons : ∀ {b}, (b ∈ x.seen ↔ b ∈ B) → (b ∈ a :: x.seen ↔ b ∈ a :: B) := by
          intro b hb
          rw [List.mem_cons, List.mem_cons, hb]
        rw [hentered B hB, findings, List.filterMap_map]
        refine List.filterMap_congr fun y hy => ?_
        refine ih _ (hn ▸ unvisited_lt_of_mem_inner hy) (fun b hb => ?_) (fun q z hz b hb => ?_) rfl
        · rw [hinner y hy]
          exact hcons (hw _ y (.here hy) b hb)
        · rw [hinner y hy]
          exact hcons (hw _ z (.inside hy hz) b hb)
    exact finding?_congr rfl (violation?_withSeen hx) hinside

/-- What is found in an object does not depend on objects around it that are not met inside. -/
theorem findings_row (t : ObjectType) (es : Entries)
    (hw : ∀ q z, Walk s h (row t es A) q z → ∀ a, z.Holds h a → (a ∈ A ↔ a ∈ B)) :
    findings s h (row t es B) = findings s h (row t es A) := by
  rw [← map_withSeen_row t es A B, findings, List.filterMap_map]
  refine List.filterMap_congr fun y hy => ?_
  have hseen : y.seen = A := by
    obtain ⟨f, -, rfl⟩ := mem_row.1 hy
    rfl
  refine finding?_withSeen (fun a ha => ?_) (fun q z hz a ha => ?_)
  · rw [hseen]
    exact hw _ y (.here hy) a ha
  · rw [hseen]
    exact hw _ z (.inside hy hz) a ha

end Place

end ShapeCheck
