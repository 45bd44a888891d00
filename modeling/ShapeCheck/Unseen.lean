/-
  What of a list has not been seen yet. A walk that never enters a member twice ends, because each
  step leaves fewer members unseen (`length_unseen_cons_lt`).
-/

namespace ShapeCheck

variable {α : Type} [DecidableEq α]

def unseen (l seen : List α) : List α := l.filter fun a => decide (a ∉ seen)

theorem mem_unseen {l seen : List α} {a : α} : a ∈ unseen l seen ↔ a ∈ l ∧ a ∉ seen := by
  simp [unseen]

theorem unseen_cons (l seen : List α) (a : α) :
    unseen l (a :: seen) = (unseen l seen).filter fun b => decide (b ≠ a) := by
  unfold unseen
  rw [List.filter_filter]
  congr 1
  funext b
  simp only [List.mem_cons, not_or, ne_eq, Bool.decide_and]

theorem length_unseen_cons_lt {l seen : List α} {a : α} (hl : a ∈ l) (hs : a ∉ seen) :
    (unseen l (a :: seen)).length < (unseen l seen).length := by
  rw [unseen_cons]
  exact List.length_filter_lt_length_iff_exists.2 ⟨a, mem_unseen.2 ⟨hl, hs⟩, by simp⟩

end ShapeCheck
