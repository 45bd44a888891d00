import Mathlib.Data.List.Nodup
import ShapeCheck.Proofs.Check.Place

/-
  Paths of field names through an object, from one place to the next, and the places that are
  violated. Nothing here refers to the check: a place is violated for what its value is, and a path
  can be walked as long as the values on it are objects of declared types, none of them met twice.
  Over a compiled schema a path leads to one place at most (`Walk.unique`), and paths are told apart
  by their spelling (`dotted_injective`).
-/

namespace ShapeCheck

/-! ## Spellings -/

/-- The spelling of a path. -/
def dotted (p : List String) : String := ".".intercalate p

theorem dotted_singleton (f : String) : dotted [f] = f := String.intercalate_singleton

/-- A row of names of fields. -/
def IsPath (p : List String) : Prop := ∀ f ∈ p, isIdentifier f = true

theorem isPath_nil : IsPath [] := fun _ hf => absurd hf List.not_mem_nil

theorem isPath_append {p q : List String} : IsPath (p ++ q) ↔ IsPath p ∧ IsPath q :=
  List.forall_mem_append

theorem isPath_cons {f : String} {p : List String} :
    IsPath (f :: p) ↔ isIdentifier f = true ∧ IsPath p :=
  List.forall_mem_cons

theorem ne_empty_of_isIdentifier {f : String} (hf : isIdentifier f = true) : f ≠ "" := by
  rintro rfl
  contradiction

theorem dot_not_mem_of_isIdentifier {f : String} (hf : isIdentifier f = true) :
    '.' ∉ f.toList := by
  intro hd
  unfold isIdentifier at hf
  split at hf
  · contradiction
  · rename_i c cs hc
    rw [hc] at hd
    obtain ⟨hstart, hrest⟩ := Bool.and_eq_true_iff.1 hf
    rcases List.mem_cons.1 hd with rfl | hd
    · contradiction
    · exact absurd (List.all_eq_true.1 hrest _ hd) (by decide)

theorem dotted_cons_ne_empty {f : String} {p : List String} (hf : isIdentifier f = true) :
    dotted (f :: p) ≠ "" := by
  intro he
  have hn := congrArg String.toList he
  cases p with
  | nil => exact ne_empty_of_isIdentifier hf (dotted_singleton f ▸ he)
  | cons g p =>
    rw [dotted, String.intercalate_cons_cons, String.toList_append, String.toList_append] at hn
    exact absurd (List.append_eq_nil_iff.1 (List.append_eq_nil_iff.1 hn).1).2 (by decide)

/-- The path that a check gives to a field of the object at a path. -/
theorem joinPath_dotted {p : List String} (hp : IsPath p) (f : String) :
    joinPath (dotted p) f = dotted (p ++ [f]) := by
  cases p with
  | nil => exact (dotted_singleton f).symm
  | cons g p =>
    have hne : dotted (g :: p) ≠ "" := dotted_cons_ne_empty (isPath_cons.1 hp).1
    rw [joinPath, if_neg hne, dotted, dotted,
      String.intercalate_append_of_ne_nil (List.cons_ne_nil g p) (List.cons_ne_nil f []),
      String.intercalate_singleton]

theorem splitOn_dotted {p : List String} (hp : IsPath p) (hne : p ≠ []) :
    (dotted p).toList.splitOn '.' = p.map String.toList := by
  rw [dotted, String.toList_intercalate]
  refine List.splitOn_intercalate '.' (fun l hl => ?_) (fun he => hne (List.map_eq_nil_iff.1 he))
  obtain ⟨f, hf, rfl⟩ := List.mem_map.1 hl
  exact dot_not_mem_of_isIdentifier (hp f hf)

theorem dotted_injective {p q : List String} (hp : IsPath p) (hq : IsPath q)
    (h : dotted p = dotted q) : p = q := by
  cases p with
  | nil =>
    cases q with
    | nil => rfl
    | cons g q => exact absurd h.symm (dotted_cons_ne_empty (isPath_cons.1 hq).1)
  | cons f p =>
    cases q with
    | nil => exact absurd h (dotted_cons_ne_empty (isPath_cons.1 hp).1)
    | cons g q =>
      have hm : (f :: p).map String.toList = (g :: q).map String.toList := by
        rw [← splitOn_dotted hp (List.cons_ne_nil f p), ← splitOn_dotted hq (List.cons_ne_nil g q),
          h]
      exact List.map_injective_iff.2 (fun _ _ he => String.toList_inj.1 he) hm

/-! ## Rows of places -/

namespace Place

/-- A row of places as an object of a compiled schema has it. -/
structure Proper (s : Schema) (row : List Place) : Prop where
  resolved : ∀ x ∈ row, x.Resolved s
  nodup_names : (row.map fun x => x.field.name).Nodup
  isIdentifier_name : ∀ x ∈ row, isIdentifier x.field.name = true

variable {s : Schema} {h : Heap} {row : List Place} {x y z : Place} {p q : List String}

theorem map_name_row (t : ObjectType) (es : Entries) (seen : List Addr) :
    ((Place.row t es seen).map fun x => x.field.name) = t.fieldNames := by
  rw [Place.row, List.map_map]
  rfl

theorem proper_row (hs : s.Compiled) {n : String} {t : ObjectType} (ht : s.type? n = some t)
    (es : Entries) (seen : List Addr) : Proper s (Place.row t es seen) := by
  refine ⟨fun x hx => ?_, ?_, fun x hx => ?_⟩
  · obtain ⟨f, hf, rfl⟩ := mem_row.1 hx
    exact hs.resolved ht f hf
  · rw [map_name_row]
    exact hs.nodup_fieldNames ht
  · obtain ⟨f, hf, rfl⟩ := mem_row.1 hx
    exact hs.isIdentifier_name ht f hf

theorem proper_inner (hs : s.Compiled) (h : Heap) (x : Place) : Proper s (x.inner s h) := by
  by_cases hi : ∃ y, y ∈ x.inner s h
  · obtain ⟨y, hy⟩ := hi
    obtain ⟨t, v, a, es, -, ht, -, -, -, hi⟩ := entered_of_mem_inner hy
    rw [hi]
    exact proper_row hs ht es (a :: x.seen)
  · rw [List.eq_nil_iff_forall_not_mem.2 fun y hy => hi ⟨y, hy⟩]
    exact ⟨fun _ hx => absurd hx List.not_mem_nil, List.nodup_nil,
      fun _ hx => absurd hx List.not_mem_nil⟩

theorem Proper.eq_of_name (hrow : Proper s row) (hx : x ∈ row) (hy : y ∈ row)
    (he : x.field.name = y.field.name) : x = y :=
  List.inj_on_of_nodup_map hrow.nodup_names hx hy he

/-- Induction over rows of places, from the rows inside to the row itself. -/
theorem row_induction {P : List Place → Prop} (hs : s.Compiled)
    (step : ∀ row, Proper s row → (∀ y ∈ row, P (y.inner s h)) → P row) (hrow : Proper s row) :
    P row := by
  refine step row hrow fun y hy => ?_
  refine place_induction (h := h) (P := fun x => P (x.inner s h)) hs.toClosed
    (hrow.resolved y hy) fun x _ ih => ?_
  exact step _ (proper_inner hs h x) ih

/-! ## Walks -/

/-- The place that a path leads to from a row of places. On the way it goes through objects, and
from each of them to a field of its type. -/
inductive Walk (s : Schema) (h : Heap) : List Place → List String → Place → Prop
  | here {row : List Place} {x : Place} : x ∈ row → Walk s h row [x.field.name] x
  | inside {row : List Place} {x z : Place} {p : List String} :
      x ∈ row → Walk s h (x.inner s h) p z → Walk s h row (x.field.name :: p) z

theorem Walk.exists_mem {f : String} (hw : Walk s h row (f :: p) z) :
    ∃ x ∈ row, x.field.name = f ∧ (p = [] ∧ z = x ∨ Walk s h (x.inner s h) p z) := by
  generalize hl : f :: p = l at hw
  cases hw with
  | here hx =>
    cases hl
    exact ⟨z, hx, rfl, .inl ⟨rfl, rfl⟩⟩
  | inside hx hw =>
    cases hl
    exact ⟨_, hx, rfl, .inr hw⟩

theorem Walk.ne_nil (hw : Walk s h row p z) : p ≠ [] := by
  cases hw with
  | here => exact List.cons_ne_nil _ _
  | inside => exact List.cons_ne_nil _ _

/-- A walk starts somewhere. -/
theorem Walk.row_ne_nil (hw : Walk s h row p z) : row ≠ [] := by
  cases hw with
  | here hx => exact List.ne_nil_of_mem hx
  | inside hx => exact List.ne_nil_of_mem hx

/-- A place that a walk goes through holds an object that is entered. -/
theorem Walk.entered (hw : Walk s h (x.inner s h) p z) : ∃ t v a es, x.field.scalar = none ∧
    s.type? x.field.typeRef = some t ∧ x.value = some v ∧ h.mapping? v = some (a, es) ∧
    a ∉ x.seen ∧ x.inner s h = Place.row t es (a :: x.seen) := by
  obtain ⟨y, hy⟩ := List.exists_mem_of_ne_nil _ hw.row_ne_nil
  exact entered_of_mem_inner hy

theorem Walk.isPath (hs : s.Compiled) (hrow : Proper s row) (hw : Walk s h row p z) :
    IsPath p := by
  induction hw with
  | here hx => exact isPath_cons.2 ⟨hrow.isIdentifier_name _ hx, isPath_nil⟩
  | inside hx _ ih =>
    exact isPath_cons.2 ⟨hrow.isIdentifier_name _ hx, ih (proper_inner hs h _)⟩

theorem Walk.resolved (hs : s.Compiled) (hrow : Proper s row) (hw : Walk s h row p z) :
    z.Resolved s := by
  induction hw with
  | here hx => exact hrow.resolved _ hx
  | inside _ _ ih => exact ih (proper_inner hs h _)

theorem Walk.append (hp : Walk s h row p x) (hq : Walk s h (x.inner s h) q z) :
    Walk s h row (p ++ q) z := by
  induction hp with
  | here hx => exact .inside hx hq
  | inside hx _ ih => exact .inside hx (ih hq)

/-- What a walk reaches beyond a place, it reaches from that place. -/
theorem Walk.rest (hs : s.Compiled) (hrow : Proper s row) (hp : Walk s h row p x) (hne : q ≠ [])
    (hw : Walk s h row (p ++ q) z) : Walk s h (x.inner s h) q z := by
  induction hp with
  | here hx =>
    obtain ⟨y, hy, he, ⟨hq, -⟩ | hw⟩ := hw.exists_mem
    · exact absurd hq hne
    · exact hrow.eq_of_name hy hx he ▸ hw
  | @inside row y x p hy hp ih =>
    obtain ⟨y', hy', he, ⟨hq, -⟩ | hw⟩ := hw.exists_mem
    · exact absurd (List.append_eq_nil_iff.1 hq).2 hne
    · exact ih (proper_inner hs h y) (hrow.eq_of_name hy' hy he ▸ hw)

theorem Walk.unique (hs : s.Compiled) (hrow : Proper s row) (hx : Walk s h row p x)
    (hy : Walk s h row p y) : x = y := by
  induction hx with
  | here hx =>
    obtain ⟨z, hz, he, ⟨-, rfl⟩ | hw⟩ := hy.exists_mem
    · exact hrow.eq_of_name hx hz he.symm
    · exact absurd rfl hw.ne_nil
  | @inside row z x p hz hx ih =>
    obtain ⟨z', hz', he, ⟨rfl, -⟩ | hw⟩ := hy.exists_mem
    · exact absurd rfl hx.ne_nil
    · exact ih (proper_inner hs h z) (hrow.eq_of_name hz' hz he ▸ hw)

/-- A property of a place and its path, said of all that can be walked to, one step at a time. -/
theorem exists_walk {R : List String → Place → Prop} :
    (∃ q z, Walk s h row q z ∧ R q z) ↔ ∃ x ∈ row, R [x.field.name] x ∨
      ∃ q z, Walk s h (x.inner s h) q z ∧ R (x.field.name :: q) z := by
  constructor
  · rintro ⟨q, z, hw, hr⟩
    cases hw with
    | here hx => exact ⟨z, hx, .inl hr⟩
    | inside hx hw => exact ⟨_, hx, .inr ⟨_, z, hw, hr⟩⟩
  · rintro ⟨x, hx, hr | ⟨q, z, hw, hr⟩⟩
    · exact ⟨_, x, .here hx, hr⟩
    · exact ⟨_, z, .inside hx hw, hr⟩

/-! ## Violations -/

/-- What a value has to be at fault for: there is none or it is nothing, it is rejected by the test
of its built-in type, it is no object where a declared type asks for one, or it is an object that
it is met inside of. -/
inductive Violated (h : Heap) (x : Place) : Prop
  | absent : x.value = none → Violated h x
  | null : x.value = some .null → Violated h x
  | rejected {v : Value} {k : Scalar} :
      x.value = some v → x.field.scalar = some k → k.test v = false → Violated h x
  | notObject {v : Value} :
      x.value = some v → x.field.scalar = none → h.mapping? v = none → Violated h x
  | circular {v : Value} {a : Addr} {es : Entries} :
      x.value = some v → h.mapping? v = some (a, es) → a ∈ x.seen → Violated h x

/-- No built-in type takes an object. -/
theorem test_of_mapping? {v : Value} {a : Addr} {es : Entries} (hm : h.mapping? v = some (a, es))
    (k : Scalar) : k.test v = false := by
  obtain rfl := Heap.eq_object_of_mapping? hm
  cases k <;> rfl

theorem violation?_ne_none (hx : x.Violated h) : x.violation? h ≠ none := by
  by_cases hn : x.value = none ∨ x.value = some .null
  · rcases hn with hv | hv <;> rw [violation?, hv] <;> exact Option.some_ne_none _
  · obtain ⟨hnone, hnull⟩ := not_or.1 hn
    cases hx with
    | absent hv => exact absurd hv hnone
    | null hv => exact absurd hv hnull
    | @rejected v k hv hf ht =>
      rw [violation?_of_scalar hv (fun he => hnull (he ▸ hv)) hf, ht]
      exact Option.some_ne_none _
    | @notObject v hv hf hm =>
      rw [violation?_of_object hv (fun he => hnull (he ▸ hv)) hf, hm]
      exact Option.some_ne_none _
    | @circular v a es hv hm ha =>
      have hne : v ≠ .null := fun he => hnull (he ▸ hv)
      cases hf : x.field.scalar with
      | some k =>
        rw [violation?_of_scalar hv hne hf, test_of_mapping? hm]
        exact Option.some_ne_none _
      | none =>
        rw [violation?_of_object hv hne hf, hm]
        dsimp only
        rw [if_pos ha]
        exact Option.some_ne_none _

theorem violated_of_violation? {c : Complaint} (hc : x.violation? h = some c) :
    x.Violated h := by
  cases hv : x.value with
  | none => exact .absent hv
  | some v =>
    by_cases hn : v = .null
    · exact .null (hn ▸ hv)
    · cases hf : x.field.scalar with
      | some k =>
        rw [violation?_of_scalar hv hn hf] at hc
        split at hc
        · contradiction
        · rename_i ht
          exact .rejected hv hf (Bool.eq_false_iff.2 ht)
      | none =>
        rw [violation?_of_object hv hn hf] at hc
        split at hc
        · rename_i hm
          exact .notObject hv hf hm
        · rename_i hm
          split at hc
          · rename_i ha
            exact .circular hv hm ha
          · contradiction

theorem violated_iff : x.Violated h ↔ (x.violation? h).isSome := by
  rw [Option.isSome_iff_ne_none]
  refine ⟨violation?_ne_none, fun hc => ?_⟩
  obtain ⟨c, hc⟩ := Option.ne_none_iff_exists'.1 hc
  exact violated_of_violation? hc

end Place

end ShapeCheck
