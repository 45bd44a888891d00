import ShapeCheck.Proofs.Check.Depth
import ShapeCheck.Proofs.Schema.Recursion

/-
  How long the paths of a report can be. A walk through an object runs through types of the schema,
  each of which refers to the next (`Walk.chain`). Where no type is recursive it cannot come to one
  type twice (`nodup_of_isChain`), whatever the object is like, so no path is longer than there are
  types that the root type leads to.
-/

namespace ShapeCheck

open Place

/-- The declared types that a type leads to, itself among them. -/
def Schema.reachable (s : Schema) (n : String) : Set String :=
  {k | k ∈ s.typeNames ∧ Relation.ReflTransGen (HasReference s.types) n k}

theorem Schema.finite_reachable (s : Schema) (n : String) : (s.reachable n).Finite :=
  (List.finite_toSet s.typeNames).subset fun _ hk => hk.1

section Chains

variable {α : Type} {R : α → α → Prop} {a : α} {l : List α}

/-- A chain goes only where its start leads to. -/
theorem reflTransGen_of_isChain (hl : (a :: l).IsChain R) :
    ∀ b ∈ a :: l, Relation.ReflTransGen R a b := by
  have hpairs := List.isChain_iff_pairwise.1 (hl.imp fun _ _ => Relation.ReflTransGen.single)
  exact List.forall_mem_cons.2 ⟨.refl, (List.pairwise_cons.1 hpairs).1⟩

/-- Without cycles, a chain never comes to one place twice. -/
theorem nodup_of_isChain (hl : (a :: l).IsChain R)
    (hflat : ∀ b, Relation.ReflTransGen R a b → ¬Relation.TransGen R b b) : (a :: l).Nodup := by
  have hpairs := List.isChain_iff_pairwise.1 (hl.imp fun _ _ => Relation.TransGen.single)
  refine hpairs.imp_of_mem fun {b c} hb _ hbc he => ?_
  subst he
  exact hflat b (reflTransGen_of_isChain hl b hb) hbc

end Chains

namespace Place

variable {s : Schema} {h : Heap} {n : String} {t : ObjectType} {es : Entries} {A : List Addr}
  {row : List Place} {p : List String} {z : Place}

/-- A walk through an object runs through types that refer to each other, one for each field. -/
theorem Walk.chain (ht : s.type? n = some t) (hw : Walk s h (Place.row t es A) p z) :
    ∃ ns, (n :: ns).IsChain (Schema.HasReference s.types) ∧ (∀ k ∈ n :: ns, k ∈ s.typeNames) ∧
      (n :: ns).length = p.length := by
  generalize hrow : Place.row t es A = row at hw
  induction hw generalizing n t es A with
  | here hx =>
    refine ⟨[], List.isChain_singleton n, ?_, rfl⟩
    exact List.forall_mem_singleton.2 (Assoc.mem_keys_of_get? ht)
  | @inside row x z p hx hw ih =>
    subst hrow
    obtain ⟨u, v, a, fs, hscalar, hu, -, -, -, hinner⟩ := hw.entered
    obtain ⟨f, hf, rfl⟩ := mem_row.1 hx
    obtain ⟨ns, hchain, hnames, hlength⟩ := ih hu hinner.symm
    have hstep : Schema.HasReference s.types n f.typeRef := ⟨t, ht, f, hf, hscalar, rfl⟩
    refine ⟨f.typeRef :: ns, List.isChain_cons_cons.2 ⟨hstep, hchain⟩, ?_, ?_⟩
    · exact List.forall_mem_cons.2 ⟨Assoc.mem_keys_of_get? ht, hnames⟩
    · rw [List.length_cons, hlength, List.length_cons]

/-- From a type that leads to no recursive one, no walk is longer than there are types to go
through. -/
theorem Walk.length_le_reachable (hflat : ∀ k ∈ s.reachable n, k ∉ s.recursiveTypes)
    (ht : s.type? n = some t) (hw : Walk s h (Place.row t es A) p z) :
    p.length ≤ (s.reachable n).ncard := by
  obtain ⟨ns, hchain, hnames, hlength⟩ := hw.chain ht
  have hdeclared : ∀ k, Relation.TransGen (Schema.HasReference s.types) k k → k ∈ s.typeNames := by
    intro k hk
    obtain ⟨_, ⟨u, hu, -⟩, -⟩ := Relation.TransGen.head'_iff.1 hk
    exact Assoc.mem_keys_of_get? hu
  have hnodup : (n :: ns).Nodup := nodup_of_isChain hchain fun k hreach hcycle =>
    hflat k ⟨hdeclared k hcycle, hreach⟩ (Schema.mem_recursiveTypes_iff.2 hcycle)
  have hmem : ∀ k ∈ n :: ns, k ∈ s.reachable n := fun k hk =>
    ⟨hnames k hk, reflTransGen_of_isChain hchain k hk⟩
  rw [← hlength]
  exact length_le_ncard (s.finite_reachable n) hnodup hmem

end Place

/-- Where the root type leads to no recursive type, the paths of a report are bounded by the schema:
whatever the object, no path has more segments than there are types that the root type leads to.
This holds of a validation that a message stops, too; with legible overrides none does. -/
theorem Context.validate_paths_bounded {c : Context} (hc : c.Compiled) {h : Heap} {o : Value}
    (hm : (h.mapping? o).isSome)
    (hflat : ∀ k ∈ c.schema.reachable c.root.name, k ∉ c.schema.recursiveTypes) :
    (c.schema.reachable c.root.name).Finite ∧
    ∃ out answer, c.validate h (some o) = (out, answer) ∧
      (c.overrides.Legible → ∃ valid, answer = .ok valid) ∧
      ∀ e ∈ FieldError.forest out.errors.values, ∃ path, e.name = .str path ∧
        (path.toList.splitOn '.').length ≤ (c.schema.reachable c.root.name).ncard := by
  refine ⟨c.schema.finite_reachable _, _, _, rfl, fun hw => ?_, fun e he => ?_⟩
  · exact ⟨_, congrArg Prod.snd (validate_ok hc hw hm)⟩
  obtain ⟨p, x, hr, hfail⟩ := reaches_of_mem_forest hc hm he
  refine ⟨dotted p, (hr.failure_eq hc hfail).1, ?_⟩
  have hpath := hr.isPath hc
  obtain ⟨a, es, -, hw⟩ := hr
  rw [splitOn_dotted hpath hw.ne_nil, List.length_map]
  exact hw.length_le_reachable hflat hc.root

theorem hasReference_crate {n k : String} :
    Schema.HasReference crateSchema.types n k ↔ n = "Crate" ∧ k = "Lid" := by
  constructor
  · rintro ⟨t, ht, f, hf, hscalar, rfl⟩
    have hmem : (n, t) ∈ crateSchema.types := Assoc.mem_of_get? ht
    simp only [crateSchema, List.mem_cons, List.not_mem_nil, or_false, Prod.mk.injEq] at hmem
    rcases hmem with ⟨rfl, rfl⟩ | ⟨rfl, rfl⟩
    · cases List.mem_singleton.1 hf
      exact ⟨rfl, rfl⟩
    · cases List.mem_singleton.1 hf
      contradiction
  · rintro ⟨rfl, rfl⟩
    exact ⟨crateType, crateContext_compiled.root, ⟨"lid", "Lid", none⟩, List.mem_cons_self ..,
      rfl, rfl⟩

theorem reachable_crate : crateSchema.reachable "Crate" = {"Crate", "Lid"} := by
  ext k
  constructor
  · rintro ⟨hk, -⟩
    simpa [crateSchema, Schema.typeNames, Assoc.keys] using hk
  · rintro (rfl | rfl)
    · exact ⟨by decide, .refl⟩
    · exact ⟨by decide, .single (hasReference_crate.2 ⟨rfl, rfl⟩)⟩

/-- Only a crate refers to anything, and not to a crate. -/
theorem not_mem_recursiveTypes_crate (n : String) : n ∉ crateSchema.recursiveTypes := by
  intro hn
  have hcycle := Schema.mem_recursiveTypes_iff.1 hn
  obtain ⟨_, hfirst, -⟩ := Relation.TransGen.head'_iff.1 hcycle
  obtain ⟨_, -, hlast⟩ := Relation.TransGen.tail'_iff.1 hcycle
  obtain ⟨rfl, -⟩ := hasReference_crate.1 hfirst
  exact absurd (hasReference_crate.1 hlast).2 (by decide)

/-- Of a crate with a broken lid the longest path has one segment for each of the two types. -/
theorem Context.validate_paths_bounded_crate :
    (crateSchema.reachable "Crate").ncard = 2 ∧
    (∀ k ∈ crateSchema.reachable "Crate", k ∉ crateSchema.recursiveTypes) ∧
    ∃ out valid, crateContext.validate Schema.brokenLid (some (.object 0)) = (out, .ok valid) ∧
      (∃ e ∈ FieldError.forest out.errors.values, e.name = .str "lid.size") ∧
      ∀ e ∈ FieldError.forest out.errors.values, ∃ path, e.name = .str path ∧
        (path.toList.splitOn '.').length ≤ 2 := by
  have hcard : (crateSchema.reachable "Crate").ncard = 2 := by
    rw [reachable_crate]
    exact Set.ncard_pair (by decide)
  have hflat : ∀ k ∈ crateSchema.reachable "Crate", k ∉ crateSchema.recursiveTypes :=
    fun k _ => not_mem_recursiveTypes_crate k
  have hm : (Schema.brokenLid.mapping? (.object 0)).isSome := by rfl
  obtain ⟨-, out, answer, hvalidate, hanswer, hbound⟩ :=
    validate_paths_bounded crateContext_compiled hm hflat
  obtain ⟨valid, rfl⟩ := hanswer Overrides.legible_nil
  have hout : out.errors = [("lid", ⟨.str "lid", .str "lid is not a valid Lid", "Lid",
      [⟨.str "lid.size", .str "lid.size must be an integer", "Int", []⟩]⟩)] := by
    have herrors := congrArg (fun r => r.1.errors) hvalidate
    rw [← herrors]
    cbv
  refine ⟨hcard, hflat, out, valid, hvalidate, ?_, fun e he => ?_⟩
  · rw [hout]
    exact ⟨_, .tail _ (.head _), rfl⟩
  · rw [← hcard]
    exact hbound e he

end ShapeCheck
