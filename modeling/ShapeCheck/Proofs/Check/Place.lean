import ShapeCheck.Proofs.Calendar.Failure
import ShapeCheck.Proofs.Schema.Compiled

/-
  Places: what a check meets at a path, namely a field, the value found for it and the objects that
  the value is met inside of. A place is at fault by itself (`violation?`), or else its object leads
  on to the places `inner` of its own fields. `check_eq` puts the check in these terms, one step at
  a time; in a closed schema every place has a result (`check_eq_ok`), and `place_induction` follows
  the check into objects, which ends because no object is entered twice.
-/

namespace ShapeCheck

/-- A field with the value found for it, if there is one, and the objects around that value, the
innermost one first. -/
structure Place where
  field : Field
  value : Option Value
  seen : List Addr

namespace Place

/-- What is wrong with the value itself. -/
def violation? (h : Heap) (x : Place) : Option Complaint :=
  match x.value with
  | none => some .required
  | some .null => some .required
  | some v =>
    match x.field.scalar with
    | some k => if k.test v then none else some (.mismatch k)
    | none =>
      match h.mapping? v with
      | none => some (.notObject x.field.typeRef)
      | some (a, _) => if a ∈ x.seen then some .circular else none

/-- The places of the fields of an object that is met inside of others, or as the outermost one. -/
def row (t : ObjectType) (es : Entries) (seen : List Addr) : List Place :=
  t.fields.map fun f => ⟨f, es.field? f.name, seen⟩

/-- The places of the fields of the object at a place, if an object is there that is entered. -/
def inner (s : Schema) (h : Heap) (x : Place) : List Place :=
  match x.field.scalar, s.type? x.field.typeRef, x.value.bind h.mapping? with
  | none, some t, some (a, es) => if a ∈ x.seen then [] else row t es (a :: x.seen)
  | _, _, _ => []

/-- The field has a built-in type or one of the schema. -/
def Resolved (s : Schema) (x : Place) : Prop :=
  x.field.scalar = none → ∃ t, s.type? x.field.typeRef = some t

/-- The result of the check at a place. -/
def check (s : Schema) (h : Heap) (m : Overrides) (x : Place) (path : String) :
    Except Fault (Option FieldError) :=
  s.checkValue h m x.seen x.field x.value path

/-- The failure that the check finds at a place. -/
def failure? (s : Schema) (h : Heap) (m : Overrides) (x : Place) (path : String) :
    Option FieldError :=
  match x.check s h m path with
  | .ok e => e
  | .error _ => none

/-- The failures found inside the object at a place, in the order of the fields. -/
def details (s : Schema) (h : Heap) (m : Overrides) (x : Place) (path : String) :
    List FieldError :=
  (x.inner s h).filterMap fun y => y.failure? s h m (joinPath path y.field.name)

end Place

/-! ## Rows of checks -/

theorem collect_map {ε α β γ : Type} (check : β → Except ε (Option γ)) (g : α → β) (l : List α) :
    collect check (l.map g) = collect (fun a => check (g a)) l := by
  induction l with
  | nil => rfl
  | cons a l ih =>
    rw [List.map_cons, collect, collect, ih]

theorem collect_ok {ε α β : Type} {check : α → Except ε (Option β)} {g : α → Option β} {l : List α}
    (h : ∀ a ∈ l, check a = .ok (g a)) : collect check l = .ok (l.filterMap g) := by
  induction l with
  | nil => rfl
  | cons a l ih =>
    obtain ⟨ha, hl⟩ := List.forall_mem_cons.1 h
    rw [collect, ha]
    cases hg : g a with
    | none => rw [List.filterMap_cons_none hg]; exact ih hl
    | some b =>
      rw [List.filterMap_cons_some hg]
      dsimp only
      rw [ih hl]
      rfl

namespace Place

variable {s : Schema} {h : Heap} {m : Overrides} {x y : Place}

/-! ## One step into objects -/

theorem inner_of_entered {t : ObjectType} {v : Value} {a : Addr} {es : Entries}
    (hf : x.field.scalar = none) (ht : s.type? x.field.typeRef = some t) (hv : x.value = some v)
    (hm : h.mapping? v = some (a, es)) (ha : a ∉ x.seen) :
    x.inner s h = row t es (a :: x.seen) := by
  rw [inner, hf, ht, hv, Option.bind_some, hm]
  exact if_neg ha

theorem entered_of_mem_inner (hy : y ∈ x.inner s h) : ∃ t v a es, x.field.scalar = none ∧
    s.type? x.field.typeRef = some t ∧ x.value = some v ∧ h.mapping? v = some (a, es) ∧
    a ∉ x.seen ∧ x.inner s h = row t es (a :: x.seen) := by
  have hy' := hy
  unfold inner at hy'
  split at hy'
  · rename_i t a es hf ht hv
    obtain ⟨v, hv, hm⟩ := Option.bind_eq_some_iff.1 hv
    split at hy'
    · contradiction
    · rename_i ha
      exact ⟨t, v, a, es, hf, ht, hv, hm, ha, inner_of_entered hf ht hv hm ha⟩
  · contradiction

theorem mem_row {t : ObjectType} {es : Entries} {seen : List Addr} :
    y ∈ row t es seen ↔ ∃ f ∈ t.fields, y = ⟨f, es.field? f.name, seen⟩ := by
  rw [row, List.mem_map]
  constructor
  · rintro ⟨f, hf, he⟩
    exact ⟨f, hf, he.symm⟩
  · rintro ⟨f, hf, he⟩
    exact ⟨f, hf, he.symm⟩

theorem resolved_of_mem_inner (hs : s.Closed) (hy : y ∈ x.inner s h) : y.Resolved s := by
  obtain ⟨t, _, _, _, -, ht, -, -, -, hi⟩ := entered_of_mem_inner hy
  obtain ⟨g, hg, rfl⟩ := mem_row.1 (hi ▸ hy)
  exact hs.resolved ht g hg

theorem unvisited_lt_of_mem_inner (hy : y ∈ x.inner s h) :
    h.unvisited y.seen < h.unvisited x.seen := by
  obtain ⟨_, _, _, _, -, -, -, hm, ha, hi⟩ := entered_of_mem_inner hy
  obtain ⟨_, -, rfl⟩ := mem_row.1 (hi ▸ hy)
  exact Heap.unvisited_cons_lt (Heap.lt_size_of_mapping? hm) ha

/-- Induction into the objects that a check enters. -/
theorem place_induction {P : Place → Prop} (hs : s.Closed) {x : Place} (hx : x.Resolved s)
    (step : ∀ x : Place, x.Resolved s → (∀ y ∈ x.inner s h, P y) → P x) : P x := by
  -- each object entered is one fewer of the heap that may still be entered
  induction hn : h.unvisited x.seen using Nat.strongRecOn generalizing x with
  | ind n ih =>
    refine step x hx fun y hy => ?_
    exact ih _ (hn ▸ unvisited_lt_of_mem_inner hy) (resolved_of_mem_inner hs hy) rfl

/-! ## One step of the check -/

theorem violation?_of_scalar {v : Value} (hv : x.value = some v) (hn : v ≠ .null) {k : Scalar}
    (hf : x.field.scalar = some k) :
    x.violation? h = if k.test v then none else some (.mismatch k) := by
  rw [violation?, hv]
  split
  · contradiction
  · rename_i he; exact absurd (Option.some.inj he) hn
  · rename_i he; cases he; rw [hf]

theorem violation?_of_object {v : Value} (hv : x.value = some v) (hn : v ≠ .null)
    (hf : x.field.scalar = none) :
    x.violation? h = match h.mapping? v with
      | none => some (.notObject x.field.typeRef)
      | some (a, _) => if a ∈ x.seen then some .circular else none := by
  rw [violation?, hv]
  split
  · contradiction
  · rename_i he; exact absurd (Option.some.inj he) hn
  · rename_i he; cases he; rw [hf]

/-- A place is at fault by itself, or else for what is inside it. -/
theorem check_eq (hs : s.Closed) (hx : x.Resolved s) (path : String) :
    x.check s h m path = match x.violation? h with
      | some c => .ok (some (x.field.failure m path c []))
      | none =>
        match collect (fun y => y.check s h m (joinPath path y.field.name)) (x.inner s h) with
        | .error e => .error e
        | .ok [] => .ok none
        | .ok details =>
          .ok (some (x.field.failure m path (.invalid x.field.typeRef) details)) := by
  obtain ⟨f, value, seen⟩ := x
  rw [check, Schema.checkValue.eq_def]
  dsimp only
  split
  · rfl
  · rfl
  · rename_i v hn
    cases hf : f.scalar with
    | some k =>
      have hi : inner s h ⟨f, some v, seen⟩ = [] := by rw [inner, hf]
      rw [violation?_of_scalar rfl hn hf, hi, collect]
      dsimp only
      rw [k.run_ok]
      cases k.test v <;> rfl
    | none =>
      rw [violation?_of_object rfl hn hf]
      obtain ⟨t, ht⟩ := hx hf
      have ht : s.type? f.typeRef = some t := ht
      have hname : t.name = f.typeRef := hs.name_eq ht
      rw [ht]
      dsimp only
      split
      · rename_i hm
        rw [hm, hname]
      · rename_i a es hm
        rw [hm]
        dsimp only
        by_cases ha : a ∈ seen
        · rw [dif_pos ha, if_pos ha]
        · have hi : inner s h ⟨f, some v, seen⟩ = row t es (a :: seen) :=
            inner_of_entered hf ht rfl hm ha
          rw [dif_neg ha, if_neg ha, hi, row, collect_map, hname]
          rfl

/-- In a closed schema the check always has a result. -/
theorem check_eq_ok (hs : s.Closed) (hx : x.Resolved s) (path : String) :
    x.check s h m path = .ok (x.failure? s h m path) := by
  have hok : ∀ path, ∃ e, x.check s h m path = .ok e := by
    refine place_induction (h := h) (P := fun x => ∀ path, ∃ e, x.check s h m path = .ok e) hs hx ?_
    intro x hx ih path
    rw [check_eq hs hx]
    cases x.violation? h with
    | some c => exact ⟨_, rfl⟩
    | none =>
      have hc : collect (fun y => y.check s h m (joinPath path y.field.name)) (x.inner s h) =
          .ok (x.details s h m path) := by
        refine collect_ok fun y hy => ?_
        obtain ⟨e, he⟩ := ih y hy (joinPath path y.field.name)
        rw [failure?, he]
      dsimp only
      rw [hc]
      cases x.details s h m path with
      | nil => exact ⟨_, rfl⟩
      | cons => exact ⟨_, rfl⟩
  obtain ⟨e, he⟩ := hok path
  rw [failure?, he]

theorem collect_inner (hs : s.Closed) (path : String) :
    collect (fun y => y.check s h m (joinPath path y.field.name)) (x.inner s h) =
      .ok (x.details s h m path) :=
  collect_ok fun _ hy => check_eq_ok hs (resolved_of_mem_inner hs hy) _

theorem failure?_of_violation {c : Complaint} (hs : s.Closed) (hx : x.Resolved s)
    (hc : x.violation? h = some c) (path : String) :
    x.failure? s h m path = some (x.field.failure m path c []) := by
  rw [failure?, check_eq hs hx, hc]

theorem failure?_eq_none_iff (hs : s.Closed) (hx : x.Resolved s) (path : String) :
    x.failure? s h m path = none ↔ x.violation? h = none ∧ x.details s h m path = [] := by
  cases hc : x.violation? h with
  | some c =>
    rw [failure?_of_violation hs hx hc]
    exact iff_of_false (Option.some_ne_none _) fun h => Option.some_ne_none _ h.1
  | none =>
    rw [failure?, check_eq hs hx, hc]
    dsimp only
    rw [collect_inner hs]
    cases x.details s h m path with
    | nil => exact iff_of_true rfl ⟨rfl, rfl⟩
    | cons => exact iff_of_false (Option.some_ne_none _) fun h => List.cons_ne_nil _ _ h.2

/-- Of a failure at a place that is not at fault by itself, the details are those found inside. -/
theorem failure?_of_details (hs : s.Closed) (hx : x.Resolved s) (hc : x.violation? h = none)
    {path : String} (hd : x.details s h m path ≠ []) :
    x.failure? s h m path =
      some (x.field.failure m path (.invalid x.field.typeRef) (x.details s h m path)) := by
  rw [failure?, check_eq hs hx, hc]
  dsimp only
  rw [collect_inner hs]
  cases hl : x.details s h m path with
  | nil => exact absurd hl hd
  | cons => rfl

/-- A place that is at fault by itself is not entered. -/
theorem inner_of_violation {c : Complaint} (hc : x.violation? h = some c) :
    x.inner s h = [] := by
  refine List.eq_nil_iff_forall_not_mem.2 fun y hy => ?_
  obtain ⟨t, v, a, es, hf, -, hv, hm, ha, -⟩ := entered_of_mem_inner hy
  have hn : v ≠ .null := by
    rintro rfl
    contradiction
  rw [violation?_of_object hv hn hf, hm] at hc
  dsimp only at hc
  rw [if_neg ha] at hc
  contradiction

theorem details_of_violation {c : Complaint} (hc : x.violation? h = some c) (path : String) :
    x.details s h m path = [] := by
  rw [details, inner_of_violation hc]
  rfl

/-- A failure is one of the field of its place, with its message for the path. -/
theorem exists_of_failure? (hs : s.Closed) (hx : x.Resolved s) {path : String} {e : FieldError}
    (he : x.failure? s h m path = some e) :
    ∃ c, e = x.field.failure m path c (x.details s h m path) ∧
      (e.details = [] ↔ (x.violation? h).isSome) := by
  cases hc : x.violation? h with
  | some c =>
    rw [failure?_of_violation hs hx hc] at he
    cases he
    rw [details_of_violation hc path]
    exact ⟨c, rfl, iff_of_true rfl rfl⟩
  | none =>
    have hd : x.details s h m path ≠ [] := fun hd => by
      rw [(failure?_eq_none_iff hs hx path).2 ⟨hc, hd⟩] at he
      contradiction
    rw [failure?_of_details hs hx hc hd] at he
    cases he
    exact ⟨_, rfl, iff_of_false hd Bool.false_ne_true⟩

/-- A failure names the path, and it has no details exactly if the place is at fault by itself. -/
theorem failure?_eq_some (hs : s.Closed) (hx : x.Resolved s) {path : String} {e : FieldError}
    (he : x.failure? s h m path = some e) :
    e.name = .str path ∧ e.details = x.details s h m path ∧
      (e.details = [] ↔ (x.violation? h).isSome) := by
  obtain ⟨c, rfl, hdetails⟩ := exists_of_failure? hs hx he
  exact ⟨rfl, rfl, hdetails⟩

end Place

end ShapeCheck
