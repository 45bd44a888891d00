import Mathlib.Logic.Relation
import ShapeCheck.Schema.Recursion

/-
  Recursive types are those on a cycle of references. The search keeps a frontier: whatever a
  visited type refers to is visited itself or still pending (`Frontier`). A search that runs out of
  pending names has therefore seen all that can be reached, so it finds its goal exactly if a chain
  of references leads there (`reaches_iff`, `mem_recursiveTypes_iff`), in whatever order it went.
-/

namespace ShapeCheck.Schema

variable {types : Assoc String ObjectType} {goal n k : String} {visited pending : List String}

/-- The type of one name has a field of the other type. -/
def Refers (types : Assoc String ObjectType) (n k : String) : Prop := k ∈ references types n

/-- The type of one name has a field that asks for an object of the other type. -/
def HasReference (types : Assoc String ObjectType) (n k : String) : Prop :=
  ∃ t, types.get? n = some t ∧ ∃ f ∈ t.fields, f.scalar = none ∧ f.typeRef = k

theorem refers_iff : Refers types n k ↔ HasReference types n k := by
  unfold Refers references HasReference
  cases types.get? n with
  | none => simp
  | some t => simp [ObjectType.references, and_assoc]

theorem refers_eq (types : Assoc String ObjectType) : Refers types = HasReference types := by
  funext n k
  exact propext refers_iff

theorem mem_mentioned_of_refers (hk : Refers types n k) : k ∈ mentioned types := by
  unfold Refers references at hk
  cases ht : types.get? n with
  | none =>
    rw [ht] at hk
    contradiction
  | some t =>
    rw [ht] at hk
    have hmem : t ∈ types.values := List.mem_map_of_mem (Assoc.mem_of_get? ht)
    exact List.mem_flatMap.2 ⟨t, hmem, hk⟩

/-- Where a search stands that has not met its goal. -/
structure Frontier (types : Assoc String ObjectType) (goal : String)
    (visited pending : List String) : Prop where
  missed : goal ∉ visited
  mentioned : ∀ n ∈ pending, n ∈ mentioned types
  referred : ∀ n ∈ visited, ∀ k, Refers types n k → k ∈ visited ∨ k ∈ pending

theorem frontier_references (types : Assoc String ObjectType) (n : String) :
    Frontier types n [] (references types n) where
  missed := List.not_mem_nil
  mentioned _ hk := mem_mentioned_of_refers hk
  referred _ hn := absurd hn List.not_mem_nil

namespace Frontier

/-- A name that was visited before leaves nothing to do. -/
theorem skip (hf : Frontier types goal visited (n :: pending)) (hn : n ∈ visited) :
    Frontier types goal visited pending := by
  refine ⟨hf.missed, fun k hk => hf.mentioned k (List.mem_cons_of_mem n hk), ?_⟩
  intro m hm k hk
  rcases hf.referred m hm k hk with hv | hp
  · exact .inl hv
  · rcases List.mem_cons.1 hp with rfl | hp
    · exact .inl hn
    · exact .inr hp

/-- A name that is visited now leaves what it refers to, listed in any order. -/
theorem visit (hf : Frontier types goal visited (n :: pending)) (hn : n ≠ goal) {ks : List String}
    (hks : ∀ k, k ∈ ks ↔ Refers types n k) :
    Frontier types goal (n :: visited) (ks ++ pending) where
  missed hm := (List.mem_cons.1 hm).elim (fun he => hn he.symm) hf.missed
  mentioned k hk := by
    rcases List.mem_append.1 hk with hr | hp
    · exact mem_mentioned_of_refers ((hks k).1 hr)
    · exact hf.mentioned k (List.mem_cons_of_mem n hp)
  referred m hm k hk := by
    rcases List.mem_cons.1 hm with rfl | hm
    · exact .inr (List.mem_append_left pending ((hks k).2 hk))
    · rcases hf.referred m hm k hk with hv | hp
      · exact .inl (List.mem_cons_of_mem n hv)
      · rcases List.mem_cons.1 hp with rfl | hp
        · exact .inl (List.mem_cons_self ..)
        · exact .inr (List.mem_append_right _ hp)

/-- A chain that starts at a visited name passes a pending one on its way to the goal. -/
theorem exists_pending (hf : Frontier types goal visited pending)
    (hc : Relation.ReflTransGen (Refers types) n goal) (hn : n ∈ visited) :
    ∃ k ∈ pending, Relation.ReflTransGen (Refers types) k goal := by
  induction hc using Relation.ReflTransGen.head_induction_on with
  | refl => exact absurd hn hf.missed
  | head hstep hrest ih =>
    rcases hf.referred _ hn _ hstep with hv | hp
    · exact ih hv
    · exact ⟨_, hp, hrest⟩

/-- A visited name adds no way to the goal. -/
theorem exists_skip_iff (hf : Frontier types goal visited (n :: pending)) (hn : n ∈ visited) :
    (∃ k ∈ n :: pending, Relation.ReflTransGen (Refers types) k goal) ↔
      ∃ k ∈ pending, Relation.ReflTransGen (Refers types) k goal := by
  constructor
  · rintro ⟨k, hk, hc⟩
    rcases List.mem_cons.1 hk with rfl | hk
    · exact (hf.skip hn).exists_pending hc hn
    · exact ⟨k, hk, hc⟩
  · rintro ⟨k, hk, hc⟩
    exact ⟨k, List.mem_cons_of_mem n hk, hc⟩

end Frontier

/-- The ways to the goal that start at another name go on from what that name refers to. -/
theorem exists_visit_iff (hn : n ≠ goal) {ks : List String} (hks : ∀ k, k ∈ ks ↔ Refers types n k) :
    (∃ k ∈ n :: pending, Relation.ReflTransGen (Refers types) k goal) ↔
      ∃ k ∈ ks ++ pending, Relation.ReflTransGen (Refers types) k goal := by
  constructor
  · rintro ⟨k, hk, hc⟩
    rcases List.mem_cons.1 hk with rfl | hp
    · -- the chain has a first step, for the name is not the goal
      rcases Relation.ReflTransGen.cases_head hc with he | ⟨m, hstep, hrest⟩
      · exact absurd he hn
      · exact ⟨m, List.mem_append_left _ ((hks m).2 hstep), hrest⟩
    · exact ⟨k, List.mem_append_right _ hp, hc⟩
  · rintro ⟨k, hk, hc⟩
    rcases List.mem_append.1 hk with hr | hp
    · exact ⟨n, List.mem_cons_self .., .head ((hks k).1 hr) hc⟩
    · exact ⟨k, List.mem_cons_of_mem n hp, hc⟩

/-- The search meets its goal exactly if a chain of references leads there from a pending name. -/
theorem reaches_iff (hf : Frontier types goal visited pending) :
    reaches types goal visited pending = true ↔
      ∃ n ∈ pending, Relation.ReflTransGen (Refers types) n goal := by
  fun_induction reaches types goal visited pending with
  | case1 visited => simp
  | case2 visited pending => exact iff_of_true rfl ⟨goal, List.mem_cons_self .., .refl⟩
  | case3 visited n pending hgoal hskip ih =>
    have hn : n ∈ visited :=
      hskip.resolve_right fun hm => hm (hf.mentioned n (List.mem_cons_self ..))
    rw [ih (hf.skip hn), hf.exists_skip_iff hn]
  | case4 visited n pending hgoal hskip ih =>
    have hks : ∀ k, k ∈ references types n ↔ Refers types n k := fun _ => Iff.rfl
    rw [ih (hf.visit hgoal hks), exists_visit_iff hgoal hks]

/-- A type is recursive exactly if a chain of references leads from it back to it. -/
theorem isRecursive_iff : isRecursive types n = true ↔ Relation.TransGen (Refers types) n n := by
  rw [isRecursive, reaches_iff (frontier_references types n), Relation.TransGen.head'_iff]
  exact Iff.rfl

/-- The recursive types are those on a cycle of fields that ask for objects. -/
theorem mem_recursiveTypes_iff {s : Schema} :
    n ∈ s.recursiveTypes ↔ Relation.TransGen (HasReference s.types) n n := by
  have hnames : Relation.TransGen (HasReference s.types) n n → n ∈ s.typeNames := by
    intro h
    obtain ⟨k, ⟨t, ht, -⟩, -⟩ := Relation.TransGen.head'_iff.1 h
    exact Assoc.mem_keys_of_get? ht
  unfold recursiveTypes
  rw [List.mem_filter, isRecursive_iff, refers_eq]
  exact and_iff_right_of_imp hnames

end ShapeCheck.Schema
