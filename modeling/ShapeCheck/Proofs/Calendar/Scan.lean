import ShapeCheck.Proofs.Calendar.Bytes
import ShapeCheck.Proofs.Text.Classes
import ShapeCheck.Proofs.Text.Pattern

/-
  What the pieces of a layout take of a text. Whatever way is preferred, a layout that reads a text
  cuts it into texts that its pieces take, from left to right (`Layout.scan_cons`), and enters their
  numbers. A field is one or two digits of any script (`Short`), only a day may be a blank and a
  digit; so the numbers of a date and of a time are found between their marks
  (`Layout.scan_dashed`, `Layout.scan_clock`).
-/

namespace ShapeCheck.Calendar

open ShapeCheck.Text

/-! ## Pieces -/

namespace Piece

/-- One or two digits of any script. -/
structure Short (t : List Char) : Prop where
  length : t.length = 1 ∨ t.length = 2
  digits : ∀ c ∈ t, isDecimalDigit c = true

variable {t : List Char} {p q : Char → Bool}

theorem short_of_one (hp : ∀ c, p c = true → isDecimalDigit c = true)
    (ht : (Pattern.one p).Matches t) : Short t := by
  obtain ⟨c, rfl, hc⟩ := ht
  exact ⟨.inl rfl, List.forall_mem_singleton.2 (hp c hc)⟩

theorem matches_pair (ht : (pair (.one p) (.one q)).Matches t) :
    ∃ a b, t = [a, b] ∧ p a = true ∧ q b = true := by
  obtain ⟨u, v, rfl, ⟨a, rfl, ha⟩, b, rfl, hb⟩ := ht
  exact ⟨a, b, rfl, ha, hb⟩

theorem short_of_pair (hp : ∀ c, p c = true → isDecimalDigit c = true)
    (hq : ∀ c, q c = true → isDecimalDigit c = true)
    (ht : (pair (.one p) (.one q)).Matches t) : Short t := by
  obtain ⟨a, b, rfl, ha, hb⟩ := matches_pair ht
  exact ⟨.inr rfl, List.forall_mem_cons.2 ⟨hp a ha, List.forall_mem_singleton.2 (hq b hb)⟩⟩

theorem isDigit_of_range {a b c : Char} (ha : 48 ≤ a.toNat) (hb : b.toNat ≤ 57)
    (hc : (decide (a ≤ c) && decide (c ≤ b)) = true) : c.isDigit = true := by
  simp only [Bool.and_eq_true, decide_eq_true_eq] at hc
  have hlow : a.toNat ≤ c.toNat := hc.1
  have hhigh : c.toNat ≤ b.toNat := hc.2
  exact Iso.char_isDigit_iff.2 ⟨by omega, by omega⟩

theorem decimal_of_range {a b : Char} (ha : 48 ≤ a.toNat) (hb : b.toNat ≤ 57) (c : Char)
    (hc : (decide (a ≤ c) && decide (c ≤ b)) = true) : isDecimalDigit c = true :=
  isDecimalDigit_of_isDigit (isDigit_of_range ha hb hc)

theorem decimal_of_char {d : Char} (hd : isDecimalDigit d = true) (c : Char)
    (hc : (c == d) = true) : isDecimalDigit c = true := by
  rw [eq_of_beq hc]
  exact hd

theorem short_of_month (ht : month.pattern.Matches t) : Short t := by
  obtain ⟨a, ha, ht⟩ := Pattern.matches_oneOf.1 ht
  simp only [List.mem_cons, List.not_mem_nil, or_false] at ha
  rcases ha with rfl | rfl | rfl
  · exact short_of_pair (decimal_of_char (by decide)) (decimal_of_range (by decide) (by decide)) ht
  · exact short_of_pair (decimal_of_char (by decide)) (decimal_of_range (by decide) (by decide)) ht
  · exact short_of_one (decimal_of_range (by decide) (by decide)) ht

theorem short_of_hour (ht : hour.pattern.Matches t) : Short t := by
  obtain ⟨a, ha, ht⟩ := Pattern.matches_oneOf.1 ht
  simp only [List.mem_cons, List.not_mem_nil, or_false] at ha
  rcases ha with rfl | rfl | rfl
  · exact short_of_pair (decimal_of_char (by decide)) (decimal_of_range (by decide) (by decide)) ht
  · exact short_of_pair (decimal_of_range (by decide) (by decide)) (fun _ => id) ht
  · exact short_of_one (fun _ => id) ht

theorem short_of_minute (ht : minute.pattern.Matches t) : Short t := by
  obtain ⟨a, ha, ht⟩ := Pattern.matches_oneOf.1 ht
  simp only [List.mem_cons, List.not_mem_nil, or_false] at ha
  rcases ha with rfl | rfl
  · exact short_of_pair (decimal_of_range (by decide) (by decide)) (fun _ => id) ht
  · exact short_of_one (fun _ => id) ht

theorem short_of_second (ht : second.pattern.Matches t) : Short t := by
  obtain ⟨a, ha, ht⟩ := Pattern.matches_oneOf.1 ht
  simp only [List.mem_cons, List.not_mem_nil, or_false] at ha
  rcases ha with rfl | rfl | rfl
  · exact short_of_pair (decimal_of_char (by decide)) (decimal_of_range (by decide) (by decide)) ht
  · exact short_of_pair (decimal_of_range (by decide) (by decide)) (fun _ => id) ht
  · exact short_of_one (fun _ => id) ht

/-- A day is one or two digits, or a blank and a digit. -/
theorem short_or_blank_of_day (ht : day.pattern.Matches t) :
    Short t ∨ ∃ c, t = [' ', c] ∧ isDecimalDigit c = true := by
  obtain ⟨a, ha, ht⟩ := Pattern.matches_oneOf.1 ht
  simp only [List.mem_cons, List.not_mem_nil, or_false] at ha
  rcases ha with rfl | rfl | rfl | rfl | rfl
  · exact .inl (short_of_pair (decimal_of_char (by decide))
      (decimal_of_range (by decide) (by decide)) ht)
  · exact .inl (short_of_pair (decimal_of_range (by decide) (by decide)) (fun _ => id) ht)
  · exact .inl (short_of_pair (decimal_of_char (by decide))
      (decimal_of_range (by decide) (by decide)) ht)
  · exact .inl (short_of_one (decimal_of_range (by decide) (by decide)) ht)
  · obtain ⟨a, b, rfl, ha, hb⟩ := matches_pair ht
    exact .inr ⟨b, by rw [eq_of_beq ha], decimal_of_range (by decide) (by decide) b hb⟩

theorem matches_year (ht : year.pattern.Matches t) :
    t.length = 4 ∧ ∀ c ∈ t, isDecimalDigit c = true :=
  Pattern.matches_exactly_one.1 ht

theorem matches_fraction (ht : fraction.pattern.Matches t) :
    1 ≤ t.length ∧ t.length ≤ 6 ∧ ∀ c ∈ t, c.isDigit = true := by
  obtain ⟨hlow, hhigh, hall⟩ := Pattern.matches_between_one.1 ht
  exact ⟨hlow, hhigh, fun c hc => isDigit_of_range (by decide) (by decide) (hall c hc)⟩

theorem matches_mark {m : Char} (ht : (mark m).pattern.Matches t) :
    ∃ c, t = [c] ∧ c.toLower = m.toLower := by
  obtain ⟨c, rfl, hc⟩ := ht
  exact ⟨c, rfl, eq_of_beq hc⟩

end Piece

/-! ## Layouts -/

/-- A date with dashes as a layout takes it. -/
inductive DashedText : Date → List Char → Prop where
  | intro {yr mo dy : List Char} (length : yr.length = 4)
      (year : ∀ c ∈ yr, isDecimalDigit c = true) (month : Piece.Short mo)
      (day : Piece.Short dy ∨ ∃ c, dy = [' ', c] ∧ isDecimalDigit c = true) :
      DashedText ⟨numeral yr, numeral mo, numeral (dy.filter (· != ' '))⟩
        (yr ++ '-' :: (mo ++ '-' :: dy))

/-- Hours, minutes and seconds as a layout takes them. -/
inductive ColonText : Clock → List Char → Prop where
  | intro {ho mi se : List Char} (hour : Piece.Short ho) (minute : Piece.Short mi)
      (second : Piece.Short se) :
      ColonText ⟨numeral ho, numeral mi, numeral se, 0⟩ (ho ++ ':' :: (mi ++ ':' :: se))

namespace Layout

variable {m : Moment} {x : Moment × List Char} {s : List Char} {l : Layout}

/-- A layout that takes a text takes a part of it with its first piece. -/
theorem scan_cons {p : Piece} (h : scan m (p :: l) s = some x) : ∃ t u, s = t ++ u ∧
    p.pattern.Matches t ∧ scan (p.enter m t) l u = some x := by
  obtain ⟨r, hr, hscan⟩ := List.exists_of_findSome?_eq_some h
  obtain ⟨t, rfl, ht⟩ := (Pattern.mem_rests_iff p.pattern s r).1 hr
  have hlen : (t ++ r).length - r.length = t.length := by
    rw [List.length_append, Nat.add_sub_cancel]
  rw [hlen, List.take_left] at hscan
  exact ⟨t, r, rfl, ht, hscan⟩

/-- A sign between two fields stands for itself. -/
theorem scan_sign {c : Char} (hc : c.toNat < 65) (h : scan m (.mark c :: l) s = some x) :
    ∃ u, s = c :: u ∧ scan m l u = some x := by
  obtain ⟨t, u, rfl, ht, hscan⟩ := scan_cons h
  obtain ⟨d, rfl, hd⟩ := Piece.matches_mark ht
  obtain rfl := eq_of_toLower hc hd
  exact ⟨u, rfl, hscan⟩

/-- Year, month and day stand between dashes. -/
theorem scan_dashed (h : scan m (dashed ++ l) s = some x) : ∃ d t u, s = t ++ u ∧
    DashedText d t ∧ scan { m with date := d } l u = some x := by
  obtain ⟨yr, s₁, rfl, hyr, h₁⟩ := scan_cons h
  obtain ⟨s₂, rfl, h₂⟩ := scan_sign (by decide) h₁
  obtain ⟨mo, s₃, rfl, hmo, h₃⟩ := scan_cons h₂
  obtain ⟨s₄, rfl, h₄⟩ := scan_sign (by decide) h₃
  obtain ⟨dy, u, rfl, hdy, h₅⟩ := scan_cons h₄
  obtain ⟨hlen, hdigits⟩ := Piece.matches_year hyr
  refine ⟨_, _, u, ?_, ⟨hlen, hdigits, Piece.short_of_month hmo, Piece.short_or_blank_of_day hdy⟩,
    h₅⟩
  simp only [List.append_assoc, List.cons_append]

/-- Hour, minute and second stand between colons. -/
theorem scan_clock (h : scan m (clock ++ l) s = some x) : ∃ c t u, s = t ++ u ∧
    ColonText c t ∧ scan { m with clock := { c with micro := m.clock.micro } } l u = some x := by
  obtain ⟨ho, s₁, rfl, hho, h₁⟩ := scan_cons h
  obtain ⟨s₂, rfl, h₂⟩ := scan_sign (by decide) h₁
  obtain ⟨mi, s₃, rfl, hmi, h₃⟩ := scan_cons h₂
  obtain ⟨s₄, rfl, h₄⟩ := scan_sign (by decide) h₃
  obtain ⟨se, u, rfl, hse, h₅⟩ := scan_cons h₄
  refine ⟨_, _, u, ?_, ⟨Piece.short_of_hour hho, Piece.short_of_minute hmi,
    Piece.short_of_second hse⟩, h₅⟩
  simp only [List.append_assoc, List.cons_append]

end Layout

end ShapeCheck.Calendar
