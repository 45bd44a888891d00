import ShapeCheck.Text.Blank
import ShapeCheck.Text.DecimalDigit

/-
  Classes of characters: the two cases of a letter, the digits of all scripts, and the blanks. No
  digit is a blank. A text is what is left of it without the blanks at its ends, with blanks on both
  sides (`exists_strip`), and these blanks are all that is missing if neither end of what is left is
  a blank (`strip_between`).
-/

namespace ShapeCheck.Text

/-! ## Letter case -/

theorem toLower_cases (c : Char) : c.toLower = c ∨
    (65 ≤ c.toNat ∧ c.toNat ≤ 90 ∧ c.toLower.toNat = c.toNat + 32) := by
  delta Char.toLower
  split
  · rename_i hc
    obtain ⟨hlow, hhigh⟩ := hc
    rw [ge_iff_le, UInt32.le_iff_toNat_le] at hlow
    rw [UInt32.le_iff_toNat_le] at hhigh
    refine .inr ⟨hlow, hhigh, ?_⟩
    show (c.val + 32).toNat = c.val.toNat + 32
    have hhigh : c.val.toNat ≤ 90 := hhigh
    rw [UInt32.toNat_add]
    exact Nat.mod_eq_of_lt (show c.val.toNat + 32 < 4294967296 by omega)
  · exact .inl rfl

/-- A sign, which is no letter, stands in one letter case only. -/
theorem eq_of_toLower {c d : Char} (hd : d.toNat < 65) (h : c.toLower = d.toLower) : c = d := by
  have hsame : d.toLower = d := by
    rcases toLower_cases d with hd' | hd'
    · exact hd'
    · omega
  rcases toLower_cases c with hc | ⟨hlow, -, hc⟩
  · rw [← hc, h, hsame]
  · rw [h, hsame] at hc
    omega

/-- A capital letter stands for itself and for its small form. -/
theorem eq_or_eq_of_toLower {c d : Char} (hd : 65 ≤ d.toNat ∧ d.toNat ≤ 90)
    (h : c.toLower = d.toLower) : c = d ∨ c = d.toLower := by
  rcases toLower_cases c with hc | ⟨hlow, -, hc⟩
  · exact .inr (hc.symm.trans h)
  · rcases toLower_cases d with hd' | ⟨-, -, hd'⟩
    · rw [h, hd'] at hc
      omega
    · rw [h, hd'] at hc
      exact .inl (Char.toNat_inj.1 (Nat.add_right_cancel hc)).symm

/-! ## Digits and blanks -/

theorem isDecimalDigit_iff {c : Char} :
    isDecimalDigit c = true ↔ ∃ z ∈ digitZeros, z ≤ c.toNat ∧ c.toNat < z + 10 := by
  simp only [isDecimalDigit, digitValue?, Option.isSome_map, List.find?_isSome, Bool.and_eq_true,
    decide_eq_true_eq]

theorem not_isBlank_of_isDecimalDigit {c : Char} (hc : isDecimalDigit c = true) :
    isBlank c = false := by
  have hapart : ∀ z ∈ digitZeros, ∀ r ∈ blankRanges, z + 10 ≤ r.1 ∨ r.2 < z := by decide
  obtain ⟨z, hz, hlow, hhigh⟩ := isDecimalDigit_iff.1 hc
  rw [Bool.eq_false_iff]
  intro hblank
  obtain ⟨r, hr, hfrom, hto⟩ := inRanges_iff.1 hblank
  have := hapart z hz r hr
  omega

/-! ## Where a class ends -/

/-- A text is cut in one way where a class of characters ends. -/
theorem eq_of_append_eq {p : Char → Bool} {s t u v : List Char} {x y : Char}
    (hs : ∀ c ∈ s, p c = true) (ht : ∀ c ∈ t, p c = true) (hx : p x = false) (hy : p y = false)
    (h : s ++ x :: u = t ++ y :: v) : s = t ∧ x :: u = y :: v := by
  have htake : ∀ {w r : List Char} {z : Char}, (∀ c ∈ w, p c = true) → p z = false →
      (w ++ z :: r).takeWhile p = w := fun hw hz => by
    rw [List.takeWhile_append_of_pos hw, List.takeWhile_cons, hz]
    exact List.append_nil _
  have hst : s = t := by rw [← htake hs hx, h, htake ht hy]
  subst hst
  exact ⟨rfl, List.append_cancel_left h⟩

/-- A text is cut in one way at the first place of a character. -/
theorem eq_of_append_cons_eq {s t u v : List Char} {c : Char} (hs : c ∉ s) (ht : c ∉ t)
    (h : s ++ c :: u = t ++ c :: v) : s = t ∧ u = v := by
  have hclass : ∀ {w : List Char}, c ∉ w → ∀ x ∈ w, (x != c) = true := fun hw x hx =>
    bne_iff_ne.2 (ne_of_mem_of_not_mem hx hw)
  obtain ⟨hst, huv⟩ := eq_of_append_eq (hclass hs) (hclass ht) (bne_self_eq_false c)
    (bne_self_eq_false c) h
  exact ⟨hst, List.tail_eq_of_cons_eq huv⟩

/-! ## Blanks at the ends -/

variable {before after s : List Char}

/-- A text is what is left of it between the blanks at its ends. -/
theorem exists_strip (s : List Char) : ∃ before after, s = before ++ strip s ++ after ∧
    (∀ c ∈ before, isBlank c = true) ∧ ∀ c ∈ after, isBlank c = true := by
  let inner := s.dropWhile isBlank
  refine ⟨s.takeWhile isBlank, (inner.reverse.takeWhile isBlank).reverse, ?_, ?_, ?_⟩
  · have hinner : strip s ++ (inner.reverse.takeWhile isBlank).reverse = inner := by
      rw [strip, ← List.reverse_append, List.takeWhile_append_dropWhile, List.reverse_reverse]
    rw [List.append_assoc, hinner, List.takeWhile_append_dropWhile]
  · exact List.all_eq_true.1 List.all_takeWhile
  · exact fun c hc => List.all_eq_true.1 List.all_takeWhile c (List.mem_reverse.1 hc)

/-- The blanks around a text with no blank at either end are dropped. -/
theorem strip_between (hb : ∀ c ∈ before, isBlank c = true) (ha : ∀ c ∈ after, isBlank c = true)
    (hstart : ∃ c u, s = c :: u ∧ isBlank c = false)
    (hend : ∃ u c, s = u ++ [c] ∧ isBlank c = false) : strip (before ++ s ++ after) = s := by
  have hfront : (before ++ s ++ after).dropWhile isBlank = s ++ after := by
    obtain ⟨c, u, rfl, hc⟩ := hstart
    rw [List.append_assoc, List.dropWhile_append_of_pos hb, List.cons_append, List.dropWhile_cons,
      hc]
    rfl
  have hback : (s ++ after).reverse.dropWhile isBlank = s.reverse := by
    obtain ⟨u, c, rfl, hc⟩ := hend
    rw [List.reverse_append, List.dropWhile_append_of_pos fun x hx => ha x (List.mem_reverse.1 hx),
      List.reverse_append, List.reverse_singleton, List.singleton_append, List.dropWhile_cons, hc]
    rfl
  rw [strip, hfront, hback, List.reverse_reverse]

/-- The characters of a class without blanks are those of the text without the blanks at its
ends. -/
theorem filter_strip {p : Char → Bool} (hp : ∀ c, isBlank c = true → p c = false)
    (s : List Char) : (strip s).filter p = s.filter p := by
  obtain ⟨before, after, hs, hb, ha⟩ := exists_strip s
  have hnone : ∀ {t : List Char}, (∀ c ∈ t, isBlank c = true) → t.filter p = [] := fun ht =>
    List.filter_eq_nil_iff.2 fun c hc => Bool.eq_false_iff.1 (hp c (ht c hc))
  have hall := congrArg (List.filter p) hs
  rw [List.filter_append, List.filter_append, hnone hb, hnone ha, List.append_nil,
    List.nil_append] at hall
  exact hall.symm

end ShapeCheck.Text
