import Mathlib.Data.List.Flatten
import ShapeCheck.Proofs.Schema.Recursion

/-
  The search for a cycle of references, one step at a time. `searchWithin` takes a pending name at
  each step, in any order that `edges` gives, and has no answer when its steps run out. A step uses
  up one of the pending names or of the references that types not visited yet may still add
  (`untaken_visit`), so that with as many steps as there are of both it always answers, and whatever
  the order the answer is whether a chain of references leads to the goal (`searchWithin_eq`).
-/

namespace ShapeCheck.Schema

variable {types : Assoc String ObjectType} {goal n k : String} {visited pending : List String}
variable {edges : String → List String}

/-- The search for a way to the goal from a pending name, where `edges` lists what a name refers
to. There is no answer if the steps run out. -/
def searchWithin (edges : String → List String) (goal : String) :
    Nat → List String → List String → Option Bool
  | _, _, [] => some false
  | 0, _, _ :: _ => none
  | steps + 1, visited, name :: pending =>
    if name = goal then some true
    else if name ∈ visited then searchWithin edges goal steps visited pending
    else searchWithin edges goal steps (name :: visited) (edges name ++ pending)

/-- The references that names not visited yet may still add. -/
def untaken (edges : String → List String) (names visited : List String) : List String :=
  (unseen names visited).flatMap edges

theorem mem_keys_of_edges (hedges : ∀ m k, k ∈ edges m ↔ Refers types m k) (hn : edges n ≠ []) :
    n ∈ types.keys := by
  obtain ⟨k, hk⟩ := List.exists_mem_of_ne_nil _ hn
  obtain ⟨t, ht, -⟩ := refers_iff.1 ((hedges n k).1 hk)
  exact Assoc.mem_keys_of_get? ht

/-! ## Steps that are left -/

theorem length_flatMap_filter_ne_le {l : List String} (hn : n ∈ l) :
    (edges n).length + ((l.filter fun m => decide (m ≠ n)).flatMap edges).length ≤
      (l.flatMap edges).length := by
  obtain ⟨before, after, rfl⟩ := List.append_of_mem hn
  have hsub : ((before ++ n :: after).filter fun m => decide (m ≠ n)).Sublist
      (before ++ after) := by
    rw [List.filter_append, List.filter_cons_of_neg (by simp)]
    exact List.filter_sublist.append List.filter_sublist
  have hlength := (hsub.flatMap edges).length_le
  simp only [List.flatMap_append, List.flatMap_cons, List.length_append] at hlength ⊢
  omega

/-- A name that is visited now takes its references from those that are left. -/
theorem untaken_visit {names : List String} (hnames : edges n ≠ [] → n ∈ names)
    (hn : n ∉ visited) :
    (edges n).length + (untaken edges names (n :: visited)).length ≤
      (untaken edges names visited).length := by
  unfold untaken
  rw [unseen_cons]
  by_cases hm : n ∈ names
  · have hleft : n ∈ unseen names visited := mem_unseen.2 ⟨hm, hn⟩
    exact length_flatMap_filter_ne_le hleft
  · have hnone : edges n = [] := Decidable.of_not_not fun he => hm (hnames he)
    have hall : (unseen names visited).filter (fun b => decide (b ≠ n)) = unseen names visited := by
      refine List.filter_eq_self.2 fun b hb => decide_eq_true ?_
      rintro rfl
      exact hm (mem_unseen.1 hb).1
    rw [hall, hnone, List.length_nil]
    omega

/-! ## The answer -/

/-- With steps enough for all that is pending or may still be added the search answers, and it says
whether a chain of references leads to the goal. -/
theorem searchWithin_eq (hedges : ∀ m k, k ∈ edges m ↔ Refers types m k)
    (hf : Frontier types goal visited pending) {steps : Nat}
    (hsteps : pending.length + (untaken edges types.keys visited).length ≤ steps) :
    ∃ b, searchWithin edges goal steps visited pending = some b ∧
      (b = true ↔ ∃ n ∈ pending, Relation.ReflTransGen (Refers types) n goal) := by
  fun_induction searchWithin edges goal steps visited pending with
  | case1 => exact ⟨false, rfl, by simp⟩
  | case2 =>
    rw [List.length_cons] at hsteps
    omega
  | case3 => exact ⟨true, rfl, iff_of_true rfl ⟨goal, List.mem_cons_self .., .refl⟩⟩
  | case4 visited steps n pending hgoal hn ih =>
    rw [hf.exists_skip_iff hn]
    refine ih (hf.skip hn) ?_
    rw [List.length_cons] at hsteps
    omega
  | case5 visited steps n pending hgoal hn ih =>
    rw [exists_visit_iff hgoal (hedges n)]
    refine ih (hf.visit hgoal (hedges n)) ?_
    have := untaken_visit (mem_keys_of_edges hedges) hn
    rw [List.length_cons] at hsteps
    rw [List.length_append]
    omega

/-- A search that starts at a name ends, and tells whether the name is on a cycle. -/
theorem searchWithin_start (hedges : ∀ m k, k ∈ edges m ↔ Refers types m k) {steps : Nat}
    (hsteps : (edges n).length + (types.keys.flatMap edges).length ≤ steps) :
    searchWithin edges n steps [] (edges n) = some (isRecursive types n) := by
  have hf : Frontier types n [] (edges n) :=
    ⟨List.not_mem_nil, fun k hk => mem_mentioned_of_refers ((hedges n k).1 hk),
      fun m hm => absurd hm List.not_mem_nil⟩
  have hall : unseen types.keys [] = types.keys := by simp [unseen]
  have henough : (edges n).length + (untaken edges types.keys []).length ≤ steps := by
    rwa [untaken, hall]
  obtain ⟨b, hb, hiff⟩ := searchWithin_eq hedges hf henough
  rw [hb]
  have hcycle : b = true ↔ isRecursive types n = true := by
    rw [hiff, isRecursive_iff, Relation.TransGen.head'_iff]
    simp only [hedges]
  rw [Bool.eq_iff_iff.2 hcycle]

/-- The recursive types are those on a cycle of fields that ask for objects. The search from any
name ends, in whatever order it takes what a name refers to, and finds just that. -/
theorem mem_recursiveTypes_iff_cycle (s : Schema) (n : String) :
    (n ∈ s.recursiveTypes ↔ Relation.TransGen (HasReference s.types) n n) ∧
    ∀ edges : String → List String, (∀ m k, k ∈ edges m ↔ HasReference s.types m k) →
      ∀ steps, (edges n).length + (s.typeNames.flatMap edges).length ≤ steps →
        searchWithin edges n steps [] (edges n) = some (decide (n ∈ s.recursiveTypes)) := by
  refine ⟨mem_recursiveTypes_iff, fun edges hedges steps hsteps => ?_⟩
  have hrefers : ∀ m k, k ∈ edges m ↔ Refers s.types m k := fun m k =>
    (hedges m k).trans refers_iff.symm
  have hmem : isRecursive s.types n = true ↔ n ∈ s.recursiveTypes := by
    rw [isRecursive_iff, mem_recursiveTypes_iff, refers_eq]
  rw [searchWithin_start hrefers hsteps]
  simp [← hmem]

/-- A type on its own cycle, two on a common one, a start that only leads to it, and a name that is
not declared. -/
def loops : Schema where
  types := [("A", ⟨"A", .input, [⟨"b", "B", none⟩, ⟨"n", "Int", some .int⟩]⟩),
    ("B", ⟨"B", .type, [⟨"ghost", "Ghost", none⟩, ⟨"c", "C", none⟩]⟩),
    ("C", ⟨"C", .type, [⟨"b", "B", none⟩]⟩), ("D", ⟨"D", .type, [⟨"d", "D", none⟩]⟩)]
  inputs := ["A"]

theorem mem_recursiveTypes_loops :
    "A" ∉ loops.recursiveTypes ∧ "B" ∈ loops.recursiveTypes ∧
      (searchWithin (fun m => (references loops.types m).reverse) "A" 6 []
          (references loops.types "A").reverse =
        some (decide ("A" ∈ loops.recursiveTypes))) ∧
      ¬ Relation.TransGen (HasReference loops.types) "A" "A" := by
  have hedges (m k : String) : k ∈ (references loops.types m).reverse ↔
      HasReference loops.types m k := by
    rw [List.mem_reverse]
    exact refers_iff
  obtain ⟨hcycle, hsearch⟩ := mem_recursiveTypes_iff_cycle loops "A"
  have hA := hsearch _ hedges 6 (by decide)
  have hB := (mem_recursiveTypes_iff_cycle loops "B").2 _ hedges 7 (by decide)
  have hnot : "A" ∉ loops.recursiveTypes :=
    of_decide_eq_false (Option.some.inj (hA.symm.trans rfl))
  have hmem : "B" ∈ loops.recursiveTypes :=
    of_decide_eq_true (Option.some.inj (hB.symm.trans rfl))
  exact ⟨hnot, hmem, hA, fun h => hnot (hcycle.2 h)⟩

end ShapeCheck.Schema
