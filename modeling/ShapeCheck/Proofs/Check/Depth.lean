import Mathlib.Data.Set.Card
import ShapeCheck.Proofs.Check.Nesting

/-
  How deep checks go into each other. Types may refer to themselves and objects may contain
  themselves, so neither the schema nor the data bounds the depth of a check. What does is the row
  of objects around the value: an object is entered only if it is not among them. `step_inside` says
  what one step inwards does, and the rest follows: along a row of nested checks no object is
  entered twice (`nodup_entered`), each of them can be come to from the first value, and a check
  that may nest only so deep comes to an end (`checkWithin_eq`). `checks_end_within_reach` puts the
  three together.
-/

namespace ShapeCheck

/-! ## A check of bounded depth -/

/-- The results of checks one after the other, each of which may change a state. Nothing is the
result of a check that does not end; an error ends the row. -/
def collectThrough {ε α β σ : Type} (check : σ → α → Option (Except ε (Option β) × σ)) :
    σ → List α → Option (Except ε (List β) × σ)
  | st, [] => some (.ok [], st)
  | st, a :: as =>
    match check st a with
    | none => none
    | some (.error e, st) => some (.error e, st)
    | some (.ok b, st) => (collectThrough check st as).map fun (r, st) => (r.map (b.toList ++ ·), st)

/-- The check of a value where at most `depth` checks may be nested. It does not know that it ends:
deeper checks give no result. The objects around the value are one state of all the checks, to
which an object is added before its fields are checked and from which it is removed after. -/
def Schema.checkWithin (s : Schema) (h : Heap) (m : Overrides) : Nat → List Addr → Field →
    Option Value → String → Option (Except Fault (Option FieldError) × List Addr)
  | 0, _, _, _, _ => none
  | _ + 1, active, f, none, path => some (.ok (some (f.failure m path .required [])), active)
  | _ + 1, active, f, some .null, path => some (.ok (some (f.failure m path .required [])), active)
  | depth + 1, active, f, some v, path =>
    match f.scalar with
    | some k =>
      match k.run v with
      | .error e => some (.error (.misuse e), active)
      | .ok good =>
        some (.ok (if good then none else some (f.failure m path (.mismatch k) [])), active)
    | none =>
      match s.type? f.typeRef with
      | none => some (.error (.resolution (.undeclared (.str f.typeRef))), active)
      | some t =>
        match h.mapping? v with
        | none => some (.ok (some (f.failure m path (.notObject t.name) [])), active)
        | some (a, es) =>
          if a ∈ active then some (.ok (some (f.failure m path .circular [])), active)
          else
            match collectThrough (fun active g => checkWithin s h m depth active g
              (es.field? g.name) (joinPath path g.name)) (a :: active) t.fields with
            | none => none
            | some (.error e, active) => some (.error e, active.erase a)
            | some (.ok [], active) => some (.ok none, active.erase a)
            | some (.ok details, active) =>
              some (.ok (some (f.failure m path (.invalid t.name) details)), active.erase a)

/-- Checks that end and leave the state as it was can be collected without it. -/
theorem collectThrough_eq {ε α β σ : Type} {check : σ → α → Option (Except ε (Option β) × σ)}
    {result : α → Except ε (Option β)} {st : σ} {l : List α}
    (hl : ∀ a ∈ l, check st a = some (result a, st)) :
    collectThrough check st l = some (collect result l, st) := by
  induction l with
  | nil => rfl
  | cons a l ih =>
    obtain ⟨ha, hl⟩ := List.forall_mem_cons.1 hl
    rw [collectThrough, ha, collect]
    cases hr : result a with
    | error e => rfl
    | ok b =>
      dsimp only
      rw [ih hl]
      cases b with
      | none =>
        have hid : (collect result l).map (Option.toList (none : Option β) ++ ·) =
            collect result l := by
          cases collect result l <;> rfl
        exact congrArg (fun r => some (r, st)) hid
      | some b => rfl

namespace Place

variable {s : Schema} {h : Heap} {m : Overrides} {x y : Place} {xs : List Place} {a : Addr}

/-! ## Objects within reach -/

/-- The addresses of the objects that the value of a place is or leads to, if the place asks for
an object. -/
def reach (s : Schema) (h : Heap) (x : Place) : Set Addr :=
  {a | x.field.scalar = none ∧ ∃ v, x.value = some v ∧ s.LeadsTo h x.field.typeRef v a}

/-- The address of the object that the check of a place enters. -/
def entered? (h : Heap) (x : Place) : Option Addr :=
  match x.field.scalar, x.value.bind h.mapping? with
  | none, some (a, _) => if a ∈ x.seen then none else some a
  | _, _ => none

theorem lt_size_of_leadsTo {n : String} {v : Value} (hv : s.LeadsTo h n v a) :
    a < h.cells.size := by
  induction hv with
  | self hm => exact Heap.lt_size_of_mapping? hm
  | inside _ _ _ _ _ _ ih => exact ih

theorem finite_reach (s : Schema) (h : Heap) (x : Place) : (x.reach s h).Finite := by
  refine (Set.finite_lt_nat h.cells.size).subset fun a ha => ?_
  obtain ⟨-, v, -, hv⟩ := ha
  exact lt_size_of_leadsTo hv

theorem mem_of_entered? (ha : x.entered? h = some a) : a ∉ x.seen ∧ a ∈ x.reach s h := by
  unfold entered? at ha
  split at ha
  · rename_i hf hv
    obtain ⟨v, hvalue, hm⟩ := Option.bind_eq_some_iff.1 hv
    split at ha
    · contradiction
    · rename_i hseen
      cases ha
      exact ⟨hseen, hf, v, hvalue, .self hm⟩
  · contradiction

/-- One step inwards: the check of the outer place enters an object, which then is around the inner
place, and the inner place leads to nothing that the outer one does not lead to. -/
theorem step_inside (hy : y ∈ x.inner s h) : ∃ a, x.entered? h = some a ∧
    y.seen = a :: x.seen ∧ y.reach s h ⊆ x.reach s h := by
  obtain ⟨t, v, a, es, hf, ht, hv, hm, ha, hi⟩ := entered_of_mem_inner hy
  have hentered : x.entered? h = some a := by
    rw [entered?, hf, hv, Option.bind_some, hm]
    exact if_neg ha
  obtain ⟨g, hg, rfl⟩ := mem_row.1 (hi ▸ hy)
  refine ⟨a, hentered, rfl, fun b hb => ?_⟩
  obtain ⟨hscalar, w, hw, hb⟩ := hb
  exact ⟨hf, v, hv, .inside ht hm hg hscalar hw hb⟩

/-! ## Rows of nested checks -/

/-- Each place after the first is inside the object at the place before. -/
def Nested (s : Schema) (h : Heap) : List Place → Prop := List.IsChain fun x y => y ∈ x.inner s h

/-- No object is entered twice along a row of nested checks, and none that was around its start. -/
theorem nodup_entered (hx : Nested s h (x :: xs)) :
    ((x :: xs).filterMap (entered? h)).Nodup ∧
      ∀ a ∈ (x :: xs).filterMap (entered? h), a ∉ x.seen ∧ a ∈ x.reach s h := by
  induction xs generalizing x with
  | nil =>
    cases ha : x.entered? h with
    | none =>
      rw [List.filterMap_cons_none ha, List.filterMap_nil]
      exact ⟨List.nodup_nil, List.forall_mem_nil _⟩
    | some a =>
      rw [List.filterMap_cons_some ha, List.filterMap_nil]
      exact ⟨List.nodup_singleton a, List.forall_mem_singleton.2 (mem_of_entered? ha)⟩
  | cons y ys ih =>
    obtain ⟨hy, hys⟩ := List.isChain_cons_cons.1 hx
    obtain ⟨a, ha, hseen, hreach⟩ := step_inside hy
    obtain ⟨hnodup, hinside⟩ := ih hys
    have houter : ∀ b ∈ (y :: ys).filterMap (entered? h), b ∉ a :: x.seen := by
      intro b hb
      rw [← hseen]
      exact (hinside b hb).1
    rw [List.filterMap_cons_some ha]
    refine ⟨List.nodup_cons.2 ⟨fun hmem => ?_, hnodup⟩, List.forall_mem_cons.2 ⟨?_, ?_⟩⟩
    · exact houter a hmem (List.mem_cons_self ..)
    · exact mem_of_entered? ha
    · intro b hb
      have hb' := houter b hb
      exact ⟨fun hx => hb' (List.mem_cons_of_mem a hx), hreach (hinside b hb).2⟩

/-- All places of a row of nested checks but the last one hold objects that are entered. -/
theorem length_le_entered (hx : Nested s h (x :: xs)) :
    xs.length ≤ ((x :: xs).filterMap (entered? h)).length := by
  induction xs generalizing x with
  | nil => exact Nat.zero_le _
  | cons y ys ih =>
    obtain ⟨hy, hys⟩ := List.isChain_cons_cons.1 hx
    obtain ⟨a, ha, -, -⟩ := step_inside hy
    have hlength := ih hys
    rw [List.filterMap_cons_some ha, List.length_cons, List.length_cons]
    omega

theorem length_le_ncard {α : Type} [DecidableEq α] {l : List α} {S : Set α} (hS : S.Finite)
    (hl : l.Nodup) (hmem : ∀ a ∈ l, a ∈ S) : l.length ≤ S.ncard := by
  have hsub : (l.toFinset : Set α) ⊆ S := fun a ha => hmem a (by simpa using ha)
  have hcard := Set.ncard_le_ncard hsub hS
  rwa [Set.ncard_coe_finset, List.toFinset_card_of_nodup hl] at hcard

/-- Checks are nested at most one deeper than there are objects to enter. -/
theorem length_nested_le (hx : Nested s h (x :: xs)) : xs.length ≤ (x.reach s h).ncard := by
  obtain ⟨hnodup, hentered⟩ := nodup_entered hx
  have hreach := length_le_ncard (finite_reach s h x) hnodup fun a ha => (hentered a ha).2
  have hlength := length_le_entered hx
  omega

/-! ## Checks that end -/

/-- A check ends, with its result and the same objects around the value as before, if it may nest
as deep as any row of nested checks goes. -/
theorem checkWithin_eq {depth : Nat} (hd : ∀ xs, Nested s h (x :: xs) → xs.length < depth)
    (path : String) : s.checkWithin h m depth x.seen x.field x.value path =
      some (x.check s h m path, x.seen) := by
  induction depth generalizing x path with
  | zero => exact absurd (hd [] (List.isChain_singleton x)) (Nat.not_lt_zero _)
  | succ depth ih =>
    have hinner : ∀ y ∈ x.inner s h, ∀ path, s.checkWithin h m depth y.seen y.field y.value path =
        some (y.check s h m path, y.seen) := by
      intro y hy
      refine ih fun ys hys => ?_
      have hlt := hd (y :: ys) (List.isChain_cons_cons.2 ⟨hy, hys⟩)
      rw [List.length_cons] at hlt
      omega
    obtain ⟨f, value, seen⟩ := x
    rw [check, Schema.checkValue.eq_def]
    dsimp only
    split
    · rw [Schema.checkWithin]
    · rw [Schema.checkWithin]
    · rename_i v hnull
      rw [Schema.checkWithin]
      · cases hf : f.scalar with
        | some k =>
          dsimp only
          rw [k.run_ok]
        | none =>
          dsimp only
          cases ht : s.type? f.typeRef with
          | none => rfl
          | some t =>
            dsimp only
            split
            · rename_i hm
              rw [hm]
            · rename_i a es hm
              rw [hm]
              dsimp only
              by_cases ha : a ∈ seen
              · rw [dif_pos ha, if_pos ha]
              · rw [dif_neg ha, if_neg ha]
                have hrow : ∀ g ∈ t.fields, s.checkWithin h m depth (a :: seen) g
                    (es.field? g.name) (joinPath path g.name) =
                      some (s.checkValue h m (a :: seen) g (es.field? g.name)
                        (joinPath path g.name), a :: seen) := by
                  intro g hg
                  refine hinner ⟨g, es.field? g.name, a :: seen⟩ ?_ _
                  rw [inner_of_entered hf ht rfl hm ha]
                  exact mem_row.2 ⟨g, hg, rfl⟩
                rw [collectThrough_eq hrow]
                cases collect (fun g => s.checkValue h m (a :: seen) g (es.field? g.name)
                    (joinPath path g.name)) t.fields with
                | error e => simp
                | ok details => cases details <;> simp
      · intro hv
        exact hnull hv

/-- Every check ends, whatever the schema and the data, of which both may lead back to themselves,
and whatever objects are around the value. Along a row of nested checks the objects entered are
distinct, none of them was around the value, and all of them can be come to from it. So checks are
nested at most one deeper than there are such objects, and a check that may nest so deep has the
result of the check and puts the objects around the value back as they were.

In a row each check is one of a place of `inner` of the check before. That is the step of
`checkValue` into the fields of an object that is not among those around it, which it adds to them
(`check_eq`); the last part says the same of nested calls, which `checkWithin` counts. -/
theorem checks_end_within_reach (s : Schema) (h : Heap) (m : Overrides) (x : Place) :
    (x.reach s h).Finite ∧
    (∀ xs, Nested s h (x :: xs) →
      ((x :: xs).filterMap (entered? h)).Nodup ∧
      (∀ a ∈ (x :: xs).filterMap (entered? h), a ∉ x.seen ∧ a ∈ x.reach s h) ∧
      (x :: xs).length ≤ (x.reach s h).ncard + 1) ∧
    ∀ depth path, (x.reach s h).ncard + 1 ≤ depth →
      s.checkWithin h m depth x.seen x.field x.value path =
        some (s.checkValue h m x.seen x.field x.value path, x.seen) := by
  refine ⟨finite_reach s h x, fun xs hx => ?_, fun depth path hd => ?_⟩
  · obtain ⟨hnodup, hentered⟩ := nodup_entered hx
    refine ⟨hnodup, hentered, ?_⟩
    rw [List.length_cons]
    exact Nat.succ_le_succ (length_nested_le hx)
  · refine checkWithin_eq (fun xs hx => ?_) path
    have hle := length_nested_le hx
    omega

-- two links that are next to each other, and the first one once more, which is not entered
example (m : Overrides) (f : Field) (hf : f = ⟨"next", "Link", none⟩) :
    linkSchema.checkWithin Context.ring m 2 [] f (some (.object 0)) "next" = none ∧
      (linkSchema.checkWithin Context.ring m 3 [] f (some (.object 0)) "next").isSome := by
  subst hf
  exact ⟨rfl, rfl⟩

end Place

end ShapeCheck
