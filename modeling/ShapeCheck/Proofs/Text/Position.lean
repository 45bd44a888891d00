import Mathlib.Data.List.Basic
import ShapeCheck.Text.Position

/-
  Places and offsets. A place is read off a text by going down its lines and then along the last of
  them (`textFrom`), so a place denotes an offset, and the place of an offset denotes that offset
  (`offsetOf_positionAt`). Later offsets have later places (`before_positionAt`). Both come down to
  the part of a text after its last line feed, which `lastLine` is. Two rules stand beside the
  functions that they describe: `Expands` for texts without tabs (`expands_iff`), and `Locates` for
  an offset with its place and its line (`locates_positionAt`).
-/

namespace ShapeCheck.Text

/-- A place comes before another one: on an earlier line, or earlier on the same line. -/
def Position.Before (p q : Position) : Prop :=
  p.line < q.line ∨ p.line = q.line ∧ p.column < q.column

/-- What is left of a text after so many line feeds. -/
def dropLines : Nat → List Char → List Char
  | 0, s => s
  | _ + 1, [] => []
  | n + 1, c :: s => if c = '\n' then dropLines n s else dropLines (n + 1) s

/-- The text from a place on. -/
def textFrom (text : List Char) (p : Position) : List Char :=
  (dropLines (p.line - 1) text).drop (p.column - 1)

/-- The offset that a place denotes. -/
def offsetOf (text : List Char) (p : Position) : Nat := text.length - (textFrom text p).length

/-- What is left of a text when its tabs are expanded, where `column` characters already stand on
the line: a tab gives way to blanks, at least one, up to the next multiple of eight columns. -/
inductive Expands : Nat → List Char → List Char → Prop
  | nil {column : Nat} : Expands column [] []
  | tab {column n : Nat} {s e : List Char} : 0 < n → n ≤ 8 → (column + n) % 8 = 0 →
      Expands (column + n) s e → Expands column ('\t' :: s) (List.replicate n ' ' ++ e)
  | turn {column : Nat} {c : Char} {s e : List Char} : c = '\n' ∨ c = '\r' →
      Expands 0 s e → Expands column (c :: s) (c :: e)
  | plain {column : Nat} {c : Char} {s e : List Char} : c ≠ '\t' → c ≠ '\n' → c ≠ '\r' →
      Expands (column + 1) s e → Expands column (c :: s) (c :: e)

/-- An offset is at a place, on a line: after as many line feeds as there are lines before it, and
between two line feeds or ends of the text, as far along the line as its column says. -/
structure Locates (text : List Char) (offset : Nat) (p : Position) (line : List Char) : Prop where
  number : p.line = 1 + (text.take offset).count '\n'
  within : ∃ before after, text = before ++ (line ++ after) ∧ '\n' ∉ line ∧
    (before = [] ∨ before.getLast? = some '\n') ∧ (after = [] ∨ after.head? = some '\n') ∧
    1 ≤ p.column ∧ offset + 1 = before.length + p.column ∧ offset ≤ before.length + line.length

/-! ## Tabs -/

theorem expandTabs_of_expands {column : Nat} {s e : List Char} (h : Expands column s e) :
    expandTabs column s = e := by
  induction h with
  | nil => rfl
  | @tab column n s e hpos hle hmod _ ih =>
    have hwidth : 8 - column % 8 = n := by omega
    rw [expandTabs, if_pos rfl]
    dsimp only
    rw [hwidth, ih]
  | @turn column c s e hc _ ih =>
    have htab : c ≠ '\t' := by rcases hc with rfl | rfl <;> decide
    rw [expandTabs, if_neg htab, if_pos hc, ih]
  | plain htab hn hr _ ih => rw [expandTabs, if_neg htab, if_neg (not_or.2 ⟨hn, hr⟩), ih]

theorem expands_expandTabs (column : Nat) (s : List Char) :
    Expands column s (expandTabs column s) := by
  induction s generalizing column with
  | nil => exact .nil
  | cons c s ih =>
    rw [expandTabs]
    split_ifs with htab hturn
    · subst htab
      have hmod : (column + (8 - column % 8)) % 8 = 0 := by omega
      exact .tab (by omega) (by omega) hmod (ih _)
    · exact .turn hturn (ih 0)
    · obtain ⟨hn, hr⟩ := not_or.1 hturn
      exact .plain htab hn hr (ih _)

theorem expands_iff {s e : List Char} : Expands 0 s e ↔ e = expandTabs 0 s := by
  constructor
  · intro h
    exact (expandTabs_of_expands h).symm
  · rintro rfl
    exact expands_expandTabs 0 s

/-! ## The last line of a text -/

/-- The characters after the last line feed. -/
def lastLine (s : List Char) : List Char := (s.reverse.takeWhile (· != '\n')).reverse

theorem lineBefore_eq (text : List Char) (offset : Nat) :
    lineBefore text offset = lastLine (text.take offset) := rfl

theorem lastLine_append {t : List Char} (ht : '\n' ∉ t) (s : List Char) :
    lastLine (s ++ t) = lastLine s ++ t := by
  have hall : ∀ c ∈ t.reverse, (c != '\n') = true := by
    intro c hc
    rw [bne_iff_ne]
    rintro rfl
    exact ht (List.mem_reverse.1 hc)
  unfold lastLine
  rw [List.reverse_append, List.takeWhile_append_of_pos hall, List.reverse_append,
    List.reverse_reverse]

theorem lastLine_of_not_mem {t : List Char} (ht : '\n' ∉ t) : lastLine t = t :=
  lastLine_append ht []

/-- What stands before a line feed does not matter to the last line. -/
theorem lastLine_append_cons (s t : List Char) : lastLine (s ++ '\n' :: t) = lastLine t := by
  unfold lastLine
  rw [List.reverse_append, List.reverse_cons, List.append_assoc, List.takeWhile_append]
  split
  · rename_i hall
    have hself := (List.takeWhile_prefix (· != '\n')).eq_of_length hall
    simp [hself]
  · rfl

/-- What is left after a line begins with its line feed. -/
theorem dropWhile_eq_nil_or_feed (s : List Char) : s.dropWhile (· != '\n') = [] ∨
    (s.dropWhile (· != '\n')).head? = some '\n' := by
  have hhead := List.head?_dropWhile_not (· != '\n') s
  cases hd : s.dropWhile (· != '\n') with
  | nil => exact .inl rfl
  | cons c t =>
    rw [hd] at hhead
    have hc : c = '\n' := by simpa using hhead
    exact .inr (congrArg some hc)

/-- What stands before the last line ends with a line feed. -/
theorem append_lastLine (s : List Char) : ∃ before, s = before ++ lastLine s ∧
    (before = [] ∨ before.getLast? = some '\n') := by
  refine ⟨(s.reverse.dropWhile (· != '\n')).reverse, ?_, ?_⟩
  · rw [lastLine, ← List.reverse_append, List.takeWhile_append_dropWhile, List.reverse_reverse]
  · rw [List.getLast?_reverse, List.reverse_eq_nil_iff]
    exact dropWhile_eq_nil_or_feed s.reverse

theorem not_mem_lastLine (s : List Char) : '\n' ∉ lastLine s := by
  intro h
  have hall := List.all_eq_true.1 (List.all_takeWhile (p := (· != '\n'))) _ (List.mem_reverse.1 h)
  exact absurd hall (by decide)

/-! ## Offsets -/

theorem dropLines_count (s rest : List Char) :
    dropLines (s.count '\n') (s ++ rest) = lastLine s ++ rest := by
  induction s with
  | nil => rw [List.count_nil, dropLines, List.nil_append, lastLine_of_not_mem List.not_mem_nil,
      List.nil_append]
  | cons c s ih =>
    by_cases hc : c = '\n'
    · subst hc
      have hlast : lastLine ('\n' :: s) = lastLine s := lastLine_append_cons [] s
      rw [List.count_cons_self, List.cons_append, dropLines, if_pos rfl, ih, hlast]
    · rw [List.count_cons_of_ne hc]
      by_cases hs : '\n' ∈ s
      · obtain ⟨a, b, rfl⟩ := List.append_of_mem hs
        have hlast : lastLine (c :: (a ++ '\n' :: b)) = lastLine (a ++ '\n' :: b) := by
          rw [← List.cons_append, lastLine_append_cons, lastLine_append_cons]
        obtain ⟨n, hn⟩ := Nat.exists_eq_succ_of_ne_zero
          (Nat.ne_of_gt (List.count_pos_iff.2 hs))
        rw [hlast, ← ih, hn, List.cons_append, dropLines, if_neg hc]
      · have hcons : '\n' ∉ c :: s := by
          intro h
          rcases List.mem_cons.1 h with h | h
          · exact hc h.symm
          · exact hs h
        rw [List.count_eq_zero.2 hs, lastLine_of_not_mem hcons]
        rfl

theorem textFrom_positionAt (text : List Char) (offset : Nat) :
    textFrom text (positionAt text offset) = text.drop offset := by
  have hdrop := dropLines_count (text.take offset) (text.drop offset)
  rw [List.take_append_drop] at hdrop
  unfold textFrom positionAt
  dsimp only
  rw [Nat.add_sub_cancel, Nat.add_sub_cancel, hdrop, lineBefore_eq, List.drop_left]

/-- The place of an offset denotes this offset. -/
theorem offsetOf_positionAt {text : List Char} {offset : Nat} (h : offset ≤ text.length) :
    offsetOf text (positionAt text offset) = offset := by
  rw [offsetOf, textFrom_positionAt, List.length_drop]
  omega

/-- An offset is at its place, on its line. -/
theorem locates_positionAt {text : List Char} {offset : Nat} (h : offset ≤ text.length) :
    Locates text offset (positionAt text offset) (lineAt text offset) := by
  refine ⟨Nat.add_comm _ 1, ?_⟩
  obtain ⟨before, hbefore, hfeed⟩ := append_lastLine (text.take offset)
  have hlength := congrArg List.length hbefore
  rw [List.length_take, Nat.min_eq_left h, List.length_append] at hlength
  have hline : '\n' ∉ lineAt text offset := by
    intro hmem
    rcases List.mem_append.1 hmem with hmem | hmem
    · exact not_mem_lastLine _ hmem
    · have hall := List.all_eq_true.1 List.all_takeWhile _ hmem
      exact absurd hall (by decide)
  refine ⟨before, (text.drop offset).dropWhile (· != '\n'), ?_, hline, hfeed,
    dropWhile_eq_nil_or_feed _, Nat.le_add_left 1 _, ?_, ?_⟩
  · rw [lineAt, lineBefore_eq, List.append_assoc, List.takeWhile_append_dropWhile,
      ← List.append_assoc, ← hbefore, List.take_append_drop]
  · unfold positionAt
    dsimp only
    rw [lineBefore_eq]
    omega
  · rw [lineAt, lineBefore_eq, List.length_append]
    omega

/-! ## Order -/

/-- Of two offsets the earlier one has the earlier place. -/
theorem before_positionAt {text : List Char} {i j : Nat} (hij : i < j) (hj : j ≤ text.length) :
    (positionAt text i).Before (positionAt text j) := by
  -- what stands between the two offsets has a line feed, or else only adds to the line
  obtain ⟨k, rfl⟩ := Nat.exists_eq_add_of_lt hij
  have htake : text.take (i + k + 1) = text.take i ++ (text.drop i).take (k + 1) := by
    rw [Nat.add_assoc, List.take_add]
  have hlength : 0 < ((text.drop i).take (k + 1)).length := by
    rw [List.length_take, List.length_drop]
    omega
  unfold Position.Before positionAt
  dsimp only
  rw [lineBefore_eq, lineBefore_eq, htake, List.count_append]
  by_cases hfeed : '\n' ∈ (text.drop i).take (k + 1)
  · have hcount := List.count_pos_iff.2 hfeed
    exact .inl (by omega)
  · refine .inr ⟨by rw [List.count_eq_zero.2 hfeed, Nat.add_zero], ?_⟩
    rw [lastLine_append hfeed, List.length_append]
    omega

end ShapeCheck.Text
