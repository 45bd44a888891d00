import ShapeCheck.Proofs.Check.Depth

/-
  The objects around a value. A check is told which objects it is inside of, and where it meets one
  of them again it reports that instead of going in. With more objects around it a check may stop
  earlier, but wherever it stops there is something to report, so what is at fault stays at fault
  (`finding?_isSome_of_subset`). Objects that the value does not lead to are not met at all and make
  no difference (`finding?_of_reach`). `checkValue_around` says both of the check of any field.
-/

namespace ShapeCheck

namespace Place

variable {s : Schema} {h : Heap} {x : Place} {B : List Addr}

/-! ## Faults with more objects around them -/

theorem Violated.withSeen (hx : x.Violated h) (hB : x.seen ⊆ B) : (x.withSeen B).Violated h := by
  cases hx with
  | absent hv => exact .absent hv
  | null hv => exact .null hv
  | rejected hv hf ht => exact .rejected hv hf ht
  | notObject hv hf hm => exact .notObject hv hf hm
  | circular hv hm ha => exact .circular hv hm (hB ha)

/-- Something is found at a place if its value is at fault, or if something is found inside. -/
theorem finding?_isSome_iff : (x.finding? s h).isSome ↔
    x.Violated h ∨ ∃ y ∈ x.inner s h, (y.finding? s h).isSome := by
  rw [violated_iff]
  cases hc : x.violation? h with
  | some c =>
    rw [finding?_of_violation hc]
    exact iff_of_true rfl (.inl rfl)
  | none =>
    have hinside : findings s h (x.inner s h) = [] ↔
        ¬∃ y ∈ x.inner s h, (y.finding? s h).isSome := by
      rw [findings, List.filterMap_eq_nil_iff]
      simp only [not_exists, not_and, Option.not_isSome_iff_eq_none]
    by_cases hi : findings s h (x.inner s h) = []
    · rw [finding?_of_none hc hi]
      refine iff_of_false Bool.false_ne_true ?_
      rintro (hv | hy)
      · contradiction
      · exact hinside.1 hi hy
    · rw [finding?_of_inside hc hi]
      exact iff_of_true rfl (.inr (not_not.1 (mt hinside.2 hi)))

/-- What is at fault stays at fault with more objects around it. -/
theorem finding?_isSome_of_subset (hB : x.seen ⊆ B) (hx : (x.finding? s h).isSome) :
    ((x.withSeen B).finding? s h).isSome := by
  -- each object entered is one fewer of the heap that may still be entered
  induction hn : h.unvisited x.seen using Nat.strongRecOn generalizing x B with
  | ind n ih =>
    rcases finding?_isSome_iff.1 hx with hv | ⟨y, hy, hfound⟩
    · exact finding?_isSome_iff.2 (.inl (hv.withSeen hB))
    · obtain ⟨a, ha, -, hinner, hentered⟩ := inner_withSeen (List.ne_nil_of_mem hy)
      by_cases haB : a ∈ B
      · -- here the second check stops, at an object that the first one enters
        obtain ⟨-, v, es, hv, hm⟩ := ha
        exact finding?_isSome_iff.2 (.inl (.circular hv hm haB))
      · have hmem : y.withSeen (a :: B) ∈ (x.withSeen B).inner s h := by
          rw [hentered B haB]
          exact List.mem_map_of_mem hy
        have hsub : y.seen ⊆ a :: B := by
          rw [hinner y hy]
          exact List.cons_subset_cons a hB
        have hsome : ((y.withSeen (a :: B)).finding? s h).isSome :=
          ih _ (hn ▸ unvisited_lt_of_mem_inner hy) hsub hfound rfl
        exact finding?_isSome_iff.2 (.inr ⟨_, hmem, hsome⟩)

/-- Objects that a place does not lead to make no difference around it. -/
theorem finding?_of_reach (hB : x.seen ⊆ B) (hreach : ∀ b ∈ x.reach s h, b ∈ B → b ∈ x.seen) :
    (x.withSeen B).finding? s h = x.finding? s h := by
  have hsame : ∀ b ∈ x.reach s h, (b ∈ x.seen ↔ b ∈ B) :=
    fun b hb => ⟨fun hx => hB hx, hreach b hb⟩
  refine finding?_withSeen (fun b hb => hsame b ?_) fun q z hw b hb => hsame b ?_
  · obtain ⟨hf, v, es, hv, hm⟩ := hb
    exact ⟨hf, v, hv, .self hm⟩
  · exact leadsTo_of_walk hw hb

end Place

/-! ## Checks with more objects around them -/

namespace Schema

open Place

variable {s : Schema} {h : Heap} {m : Overrides} {f : Field} {value : Option Value} {path : String}
  {A B : List Addr}

/-- Without the type of a field nothing is entered. -/
theorem checkValue_of_unresolved (hf : f.scalar = none) (ht : s.type? f.typeRef = none)
    (h : Heap) (m : Overrides) (A B : List Addr) (value : Option Value) (path : String) :
    s.checkValue h m A f value path = s.checkValue h m B f value path := by
  rw [checkValue.eq_def, checkValue.eq_def, hf, ht]

/-- In a closed schema the result of a check is what is found, spelled at the path. -/
theorem Closed.checkValue_eq_spell (hs : s.Closed) (hx : Resolved s ⟨f, value, A⟩) :
    s.checkValue h m A f value path =
      .ok ((finding? s h ⟨f, value, A⟩).map (·.spell m path)) := by
  rw [← failure?_eq_spell hs hx m path]
  exact check_eq_ok hs hx path

/-- The objects around a value count only where the check can meet them, and they never hide a
fault. In a resolved schema, whatever the field, a check that reports a failure among some objects
also reports one among more of them; and if none of those added is the value or an object that the
value leads to, both checks have the same result, details included. -/
theorem checkValue_around {library : Registry Scalar} {ds : List Declaration}
    (hs : resolve library ds = .ok s) (hAB : A ⊆ B) (h : Heap) (m : Overrides) (f : Field)
    (value : Option Value) (path : String) :
    ((∃ e, s.checkValue h m A f value path = .ok (some e)) →
      ∃ e, s.checkValue h m B f value path = .ok (some e)) ∧
    ((∀ b ∈ B, b ∉ A → f.scalar = none → ∀ v, value = some v → ¬s.LeadsTo h f.typeRef v b) →
      s.checkValue h m A f value path = s.checkValue h m B f value path) := by
  have hclosed := closed_of_resolve hs
  by_cases hx : Resolved s ⟨f, value, A⟩
  · rw [hclosed.checkValue_eq_spell hx, hclosed.checkValue_eq_spell (A := B) hx]
    constructor
    · rintro ⟨e, he⟩
      obtain ⟨g, hg, -⟩ := Option.map_eq_some_iff.1 (Except.ok.inj he)
      have hsome : (finding? s h ⟨f, value, B⟩).isSome :=
        finding?_isSome_of_subset hAB (Option.isSome_iff_exists.2 ⟨g, hg⟩)
      obtain ⟨g', hg'⟩ := Option.isSome_iff_exists.1 hsome
      exact ⟨_, by rw [hg', Option.map_some]⟩
    · intro hB
      have hsame : finding? s h ⟨f, value, B⟩ = finding? s h ⟨f, value, A⟩ := by
        refine finding?_of_reach (x := ⟨f, value, A⟩) hAB fun b hb hbB => ?_
        obtain ⟨hf, v, hv, hlead⟩ := hb
        exact not_not.1 fun hbA => hB b hbB hbA hf v hv hlead
      rw [hsame]
  · obtain ⟨hf, hnone⟩ := Classical.not_imp.1 hx
    have ht : s.type? f.typeRef = none := by
      cases ht : s.type? f.typeRef with
      | none => rfl
      | some t => exact absurd ⟨t, ht⟩ hnone
    rw [checkValue_of_unresolved hf ht h m A B value path]
    exact ⟨id, fun _ => rfl⟩

/-- Two links in a ring, and a third one that leads into it. -/
def lasso : Heap where
  cells := #[.mapping [(.str "next", .object 1), (.str "label", .str "a")],
    .mapping [(.str "next", .object 0)],
    .mapping [(.str "next", .object 0), (.str "label", .str "c")]]

theorem eq_of_leadsTo_lasso {n : String} {v : Value} {b : Addr}
    (hlead : linkSchema.LeadsTo lasso n v b) (hv : v = .object 0 ∨ v = .object 1) :
    b = 0 ∨ b = 1 := by
  induction hlead with
  | self hm =>
    rcases hv with rfl | rfl <;> cases hm
    · exact .inl rfl
    · exact .inr rfl
  | inside ht hm hf hscalar hw _ ih =>
    refine ih ?_
    rw [link_of_type? ht] at hf
    simp only [linkType, List.mem_cons, List.not_mem_nil, or_false] at hf
    rcases hf with rfl | rfl
    · rcases hv with rfl | rfl <;> cases hm <;> cases hw
      · exact .inr rfl
      · exact .inl rfl
    · contradiction

/-- What is found from the first link, where the ring closes at that link. -/
def lassoFailure : FieldError :=
  ⟨.str "next", .str "next is not a valid Link", "Link",
    [⟨.str "next.next", .str "next.next is not a valid Link", "Link",
      [⟨.str "next.next.next", .str "next.next.next contains a circular reference", "Link", []⟩,
        ⟨.str "next.next.label", .str "next.next.label is required", "String", []⟩]⟩]⟩

/-- With the second link around it the first one is at fault too, although the ring closes a step
earlier. The third link is not met, so that it makes no difference. -/
theorem checkValue_around_lasso : resolve Scalar.library
      [⟨.input, "Link", [⟨"next", "Link"⟩, ⟨"label", "String"⟩]⟩] = .ok linkSchema ∧
    linkSchema.checkValue lasso (fun _ => none) [] ⟨"next", "Link", none⟩ (some (.object 0))
      "next" = .ok (some lassoFailure) ∧
    (∃ e, linkSchema.checkValue lasso (fun _ => none) [1] ⟨"next", "Link", none⟩
      (some (.object 0)) "next" = .ok (some e)) ∧
    ¬linkSchema.LeadsTo lasso "Link" (.object 0) 2 ∧
    linkSchema.checkValue lasso (fun _ => none) [2] ⟨"next", "Link", none⟩ (some (.object 0))
      "next" = .ok (some lassoFailure) := by
  have hs : resolve Scalar.library
      [⟨.input, "Link", [⟨"next", "Link"⟩, ⟨"label", "String"⟩]⟩] = .ok linkSchema := by rfl
  have hfound : linkSchema.checkValue lasso (fun _ => none) [] ⟨"next", "Link", none⟩
      (some (.object 0)) "next" = .ok (some lassoFailure) := by
    cbv
  have hmet : ¬linkSchema.LeadsTo lasso "Link" (.object 0) 2 := by
    intro hlead
    rcases eq_of_leadsTo_lasso hlead (.inl rfl) with he | he <;> contradiction
  obtain ⟨hmore, -⟩ := checkValue_around hs (List.nil_subset [1]) lasso (fun _ => none)
    ⟨"next", "Link", none⟩ (some (.object 0)) "next"
  obtain ⟨-, hsame⟩ := checkValue_around hs (List.nil_subset [2]) lasso (fun _ => none)
    ⟨"next", "Link", none⟩ (some (.object 0)) "next"
  refine ⟨hs, hfound, hmore ⟨_, hfound⟩, hmet, ?_⟩
  rw [← hfound, hsame]
  intro b hb _ _ v hv
  obtain rfl := List.mem_singleton.1 hb
  cases hv
  exact hmet

end Schema

end ShapeCheck
