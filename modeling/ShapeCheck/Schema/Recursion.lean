import ShapeCheck.Schema.Basic
import ShapeCheck.Unseen

/-
  Recursive types: those that a chain of references leads back to. The search for such a chain
  keeps the names that it has already seen, of which there are no more than names in all.
-/

namespace ShapeCheck.Schema

/-- The names that a type refers to; a name that is not declared refers to nothing. -/
def references (types : Assoc String ObjectType) (name : String) : List String :=
  ((types.get? name).map ObjectType.references).getD []

/-- Every name that a type refers to. -/
def mentioned (types : Assoc String ObjectType) : List String :=
  types.values.flatMap ObjectType.references

/-- Whether a chain of references leads from one of the pending names to the goal without passing
through a visited name. -/
def reaches (types : Assoc String ObjectType) (goal : String) (visited : List String)
    (pending : List String) : Bool :=
  match pending with
  | [] => false
  | name :: pending =>
    if name = goal then true
    else if name ∈ visited ∨ name ∉ mentioned types then reaches types goal visited pending
    else reaches types goal (name :: visited) (references types name ++ pending)
termination_by ((unseen (mentioned types) visited).length, pending.length)
decreasing_by
  · exact Prod.Lex.right _ (Nat.lt_succ_self _)
  · rename_i h
    simp only [not_or, Decidable.not_not] at h
    exact Prod.Lex.left _ _ (length_unseen_cons_lt h.2 h.1)

/-- Whether a chain of references leads from the type back to it. -/
def isRecursive (types : Assoc String ObjectType) (name : String) : Bool :=
  reaches types name [] (references types name)

/-- The recursive types in the order of the schema. -/
def recursiveTypes (s : Schema) : List String := s.typeNames.filter (isRecursive s.types)

end ShapeCheck.Schema
