import ShapeCheck.Calendar.Text
import ShapeCheck.Proofs.Calendar.Overlap

/-
  Reading the ISO text of a moment gives the moment back (`readMoment?_isoText`). Each field is
  written in full, so the ISO forms read the date, the clock and the offset as they are; and where a
  layout reads the text first, it reads the same, since the text of an offset has no Z in it.
-/

namespace ShapeCheck.Calendar

open ShapeCheck.Text

/-! ## Digits -/

theorem digitChar_of_lt : ∀ k < 10,
    (Nat.digitChar k).isDigit = true ∧ digitValue? (Nat.digitChar k) = some k := by
  decide

theorem length_digits (w n : Nat) : (digits w n).length = w := by
  induction w generalizing n with
  | zero => rfl
  | succ w ih => rw [digits, List.length_append, ih, List.length_singleton]

theorem isDigit_digits (w n : Nat) : ∀ c ∈ digits w n, c.isDigit = true := by
  induction w generalizing n with
  | zero => exact nofun
  | succ w ih =>
    have hlast := (digitChar_of_lt (n % 10) (Nat.mod_lt n (by decide))).1
    exact List.forall_mem_append.2 ⟨ih (n / 10), List.forall_mem_singleton.2 hlast⟩

/-- The digits of a number write it, if there are enough of them. -/
theorem numeral_digits {w n : Nat} (hn : n < pow10 w) : numeral (digits w n) = n := by
  induction w generalizing n with
  | zero =>
    obtain rfl : n = 0 := Nat.lt_one_iff.1 hn
    rfl
  | succ w ih =>
    have hvalue := (digitChar_of_lt (n % 10) (Nat.mod_lt n (by decide))).2
    have hlt : n / 10 < pow10 w := by
      have : pow10 (w + 1) = pow10 w * 10 := rfl
      omega
    rw [digits, numeral_append_singleton, hvalue, ih hlt, Option.getD_some]
    exact Nat.div_add_mod n 10

theorem numeral_two {n : Nat} (hn : n < 100) : numeral (digits 2 n) = n := numeral_digits hn

theorem pair_digits (n : Nat) : Iso.Pair (digits 2 n) := ⟨length_digits 2 n, isDigit_digits 2 n⟩

/-! ## Fields -/

theorem dateText_isoChars {d : Date} (hd : d.Valid) : Iso.DateText d d.isoChars := by
  have hmonth := hd.month
  have hday := Nat.le_trans hd.day.2 (daysInMonth_le d.year d.month)
  have htext := Iso.DateText.intro (length_digits 4 d.year) (isDigit_digits 4 d.year)
    (pair_digits d.month) (pair_digits d.day)
  have hyear : d.year < 10000 := Nat.lt_succ_of_le hd.year.2
  rw [numeral_digits hyear, numeral_two (by omega), numeral_two (by omega)] at htext
  unfold Date.isoChars
  simp only [List.append_assoc, List.cons_append]
  exact htext

theorem fractionText_fractionChars {n : Nat} (hn : n < 1000000) :
    Iso.FractionText n (fractionChars n) := by
  unfold fractionChars
  split
  · rename_i hzero
    rw [hzero]
    exact .absent
  · have htext := Iso.FractionText.present (t := digits 6 n) (by rw [length_digits]; decide)
      (by rw [length_digits]) (isDigit_digits 6 n)
    have hone : pow10 (6 - 6) = 1 := rfl
    rw [length_digits, numeral_digits hn, hone, Nat.mul_one] at htext
    exact htext

theorem clockText_isoChars {c : Clock} (hc : c.Valid) : Iso.ClockText c c.isoChars := by
  have htext := Iso.ClockText.intro (pair_digits c.hour) (pair_digits c.minute)
    (pair_digits c.second) (fractionText_fractionChars hc.micro)
  rw [numeral_two (by have := hc.hour; omega), numeral_two (by have := hc.minute; omega),
    numeral_two (by have := hc.second; omega)] at htext
  unfold Clock.isoChars
  simp only [List.append_assoc, List.cons_append]
  exact htext

/-! ## Offsets -/

/-- The clock that an offset shows. -/
def offsetClock (seconds : Nat) : Clock :=
  { hour := seconds / 3600, minute := seconds / 60 % 60, second := seconds % 60 }

theorem micros_offsetClock (seconds : Nat) : (offsetClock seconds).micros = seconds * 1000000 := by
  simp only [Clock.micros, offsetClock]
  omega

/-- What an offset of whole seconds shows after its sign. -/
def offsetDigits (seconds : Nat) : List Char :=
  digits 2 (seconds / 3600) ++ ':' :: (digits 2 (seconds / 60 % 60) ++
    if seconds % 60 = 0 then [] else ':' :: digits 2 (seconds % 60))

theorem clock?_offsetDigits {seconds : Nat} (hs : seconds < 86400) :
    Iso.clock? (Iso.utf8 (offsetDigits seconds)) 0 = some ⟨offsetClock seconds, false⟩ := by
  have hhour := numeral_two (n := seconds / 3600) (by omega)
  have hminute := numeral_two (n := seconds / 60 % 60) (by omega)
  have hsecond := numeral_two (n := seconds % 60) (by omega)
  unfold offsetDigits offsetClock
  split
  · rename_i hzero
    rw [List.append_nil, Iso.clock?_of_hour_minute (pair_digits _) (pair_digits _), hhour, hminute,
      hzero]
    rfl
  · have htext := Iso.ClockText.intro (pair_digits (seconds / 3600))
      (pair_digits (seconds / 60 % 60)) (pair_digits (seconds % 60)) .absent
    rw [List.append_nil, hhour, hminute, hsecond] at htext
    exact Iso.clock?_of_clockText htext

/-- The sign of an offset. -/
def offsetSign (o : Int) : Char := if o < 0 then '-' else '+'

theorem offsetSign_mem (o : Int) : offsetSign o ∈ ['+', '-', 'Z'] := by
  unfold offsetSign
  split <;> decide

theorem offsetChars_eq {o : Int} (ho : (1000000 : Int) ∣ o) :
    offsetChars o = offsetSign o :: offsetDigits (o.natAbs / 1000000) := by
  have hmod : o.natAbs % 1000000 = 0 := by omega
  have hfraction : fractionChars 0 = [] := rfl
  unfold offsetChars offsetDigits offsetSign
  simp only [hmod, hfraction, and_true, List.append_nil, List.append_assoc, List.cons_append]

theorem offset?_offsetClock {o : Int} (hlt : o.natAbs < dayMicros) (ho : (1000000 : Int) ∣ o) :
    Iso.offset? (decide (o < 0)) (offsetClock (o.natAbs / 1000000)) = some o := by
  have hmicros : (offsetClock (o.natAbs / 1000000)).micros = o.natAbs := by
    rw [micros_offsetClock]
    omega
  rw [Iso.offset?_eq]
  by_cases hzero : (offsetClock (o.natAbs / 1000000)).hour = 0 ∧
      (offsetClock (o.natAbs / 1000000)).minute = 0 ∧ (offsetClock (o.natAbs / 1000000)).second = 0
  · -- an offset below a second would be read as zero, but there is none of whole seconds
    obtain ⟨hhour, hminute, hsecond⟩ := hzero
    have hnone : o.natAbs = 0 := by
      rw [← hmicros, Clock.micros, hhour, hminute, hsecond]
      rfl
    rw [if_pos ⟨hhour, hminute, hsecond⟩, Int.natAbs_eq_zero.1 hnone]
  · rw [if_neg hzero, hmicros, if_pos hlt]
    by_cases hneg : o < 0
    · rw [if_pos (decide_eq_true hneg), Int.ofNat_natAbs_of_nonpos (Int.le_of_lt hneg), Int.neg_neg]
    · rw [if_neg (by simpa using hneg), Int.natAbs_of_nonneg (Int.not_lt.1 hneg)]

/-- An offset of whole seconds is read after its sign. -/
theorem offsetAfter?_offsetDigits {o : Int} (hlt : o.natAbs < dayMicros)
    (ho : (1000000 : Int) ∣ o) :
    Iso.offsetAfter? (Iso.byte (offsetSign o))
      (Iso.utf8 (offsetDigits (o.natAbs / 1000000))) = some o := by
  have hseconds : o.natAbs / 1000000 < 86400 := by
    unfold dayMicros at hlt
    omega
  have hsign : Iso.byte (offsetSign o) ≠ Iso.byte 'Z' ∧
      (Iso.byte (offsetSign o) == Iso.byte '-') = decide (o < 0) := by
    unfold offsetSign
    by_cases hneg : o < 0
    · rw [if_pos hneg, decide_eq_true hneg]
      decide
    · rw [if_neg hneg, decide_eq_false hneg]
      decide
  rw [Iso.offsetAfter?_eq, if_neg hsign.1, clock?_offsetDigits hseconds, hsign.2, Option.bind_some,
    offset?_offsetClock hlt ho]
  rfl

/-! ## Ends of the text -/

/-- A text ends in a digit. -/
def EndsInDigit (s : List Char) : Prop := ∃ u c, s = u ++ [c] ∧ c.isDigit = true

theorem endsInDigit_append (s : List Char) {t : List Char} (ht : EndsInDigit t) :
    EndsInDigit (s ++ t) := by
  obtain ⟨u, c, rfl, hc⟩ := ht
  exact ⟨s ++ u, c, (List.append_assoc ..).symm, hc⟩

theorem endsInDigit_cons (c : Char) {t : List Char} (ht : EndsInDigit t) : EndsInDigit (c :: t) :=
  endsInDigit_append [c] ht

theorem endsInDigit_of_digits {t : List Char} (hne : t ≠ []) (ht : ∀ c ∈ t, c.isDigit = true) :
    EndsInDigit t :=
  ⟨t.dropLast, t.getLast hne, (List.dropLast_append_getLast hne).symm,
    ht _ (List.getLast_mem hne)⟩

theorem endsInDigit_digits (w n : Nat) : EndsInDigit (digits (w + 1) n) :=
  endsInDigit_of_digits (List.append_ne_nil_of_right_ne_nil _ nofun) (isDigit_digits (w + 1) n)

theorem endsInDigit_of_clockText {c : Clock} {t : List Char} (ht : Iso.ClockText c t) :
    EndsInDigit t := by
  obtain ⟨-, -, hsecond, he⟩ := ht
  refine endsInDigit_append _ (endsInDigit_cons _ (endsInDigit_append _ (endsInDigit_cons _ ?_)))
  cases he with
  | absent =>
    obtain ⟨a, b, rfl, -, hb⟩ := hsecond.exists_eq
    exact ⟨[a], b, rfl, hb⟩
  | present hpos _ hdigits =>
    have hne := List.ne_nil_of_length_pos hpos
    exact endsInDigit_append _ (endsInDigit_cons _ (endsInDigit_of_digits hne hdigits))

theorem digit_of_dateText {d : Date} {s : List Char} (hs : Iso.DateText d s) (u : List Char) :
    ∃ c v, s ++ u = c :: v ∧ c.isDigit = true := by
  obtain ⟨hlen, hyear, -, -⟩ := hs
  obtain ⟨a, b, c, e, rfl⟩ := List.length_eq_four.1 hlen
  exact ⟨a, _, rfl, hyear a (List.mem_cons_self ..)⟩

theorem endsInDigit_offsetDigits (seconds : Nat) : EndsInDigit (offsetDigits seconds) := by
  unfold offsetDigits
  refine endsInDigit_append _ (endsInDigit_cons _ ?_)
  split
  · rw [List.append_nil]
    exact endsInDigit_digits 1 _
  · exact endsInDigit_append _ (endsInDigit_cons _ (endsInDigit_digits 1 _))

/-- The blanks around a text that starts and ends with a digit are dropped. -/
theorem strip_around {before after s : List Char} (hb : ∀ c ∈ before, isBlank c = true)
    (ha : ∀ c ∈ after, isBlank c = true) (hstart : ∃ c u, s = c :: u ∧ c.isDigit = true)
    (hend : EndsInDigit s) : strip (before ++ s ++ after) = s := by
  obtain ⟨c, u, hs, hc⟩ := hstart
  obtain ⟨v, d, hs', hd⟩ := hend
  exact strip_between hb ha ⟨c, u, hs, not_isBlank_of_isDigit hc⟩
    ⟨v, d, hs', not_isBlank_of_isDigit hd⟩

/-! ## Reading what is written -/

/-- What is written after the time of a moment. -/
def Moment.offsetText (m : Moment) : List Char := (m.offset.map offsetChars).getD []

variable {m : Moment} {s t : List Char}

theorem offsetText_cases (ho : ∀ o ∈ m.offset, (1000000 : Int) ∣ o) :
    (m.offset = none ∧ m.offsetText = []) ∨ ∃ o, m.offset = some o ∧
      m.offsetText = offsetSign o :: offsetDigits (o.natAbs / 1000000) := by
  unfold Moment.offsetText
  cases hoffset : m.offset with
  | none => exact .inl ⟨rfl, rfl⟩
  | some o => exact .inr ⟨o, rfl, offsetChars_eq (ho o hoffset)⟩

theorem time?_full (hm : m.Valid) (ho : ∀ o ∈ m.offset, (1000000 : Int) ∣ o)
    (ht : Iso.ClockText m.clock t) : Iso.time? (Iso.utf8 (t ++ m.offsetText)) = some m.time := by
  have hunsigned := Iso.unsigned_of_clockText ht
  rw [Moment.time]
  rcases offsetText_cases ho with ⟨hnone, htext⟩ | ⟨o, hsome, htext⟩
  · rw [htext, hnone, List.append_nil, Iso.time?_unsigned hunsigned, Iso.clock?_of_clockText ht,
      Option.bind_some]
    exact if_neg (not_or.2 ⟨Bool.false_ne_true, not_not.2 hm.clock⟩)
  · rw [htext, hsome, Iso.time?_signed hunsigned (offsetSign_mem o), Iso.clock?_of_clockText ht,
      Option.bind_some, offsetAfter?_offsetDigits (hm.offset o hsome) (ho o hsome),
      Option.bind_some, if_neg (not_not.2 hm.clock)]

theorem not_mem_offsetText (ho : ∀ o ∈ m.offset, (1000000 : Int) ∣ o) : 'Z' ∉ m.offsetText := by
  have hdigits : ∀ n, 'Z' ∉ digits 2 n := fun n =>
    not_mem_of_class (by decide) (isDigit_digits 2 n)
  rcases offsetText_cases ho with ⟨-, htext⟩ | ⟨o, -, htext⟩
  · rw [htext]
    exact nofun
  · rw [htext, offsetDigits, offsetSign]
    simp only [List.mem_cons, List.mem_append, not_or]
    refine ⟨by split <;> decide, hdigits _, by decide, hdigits _, ?_⟩
    split
    · exact nofun
    · exact List.not_mem_cons_of_ne_of_not_mem (by decide) (hdigits _)

theorem not_mem_dateText {d : Date} (hs : Iso.DateText d s) : 'Z' ∉ s := by
  obtain ⟨-, hyear, hmonth, hday⟩ := hs
  exact not_mem_dashes (not_mem_of_class (by decide) hyear)
    (not_mem_of_class (by decide) hmonth.digits) (not_mem_of_class (by decide) hday.digits)

/-- A text that shows a moment in full, with an offset of whole seconds or none, has no Z in it. -/
theorem not_mem_full {separator : Char} (ho : ∀ o ∈ m.offset, (1000000 : Int) ∣ o)
    (hZ : separator ≠ 'Z') (hs : Iso.DateText m.date s) (ht : Iso.ClockText m.clock t) :
    'Z' ∉ s ++ separator :: (t ++ m.offsetText) := by
  simp only [List.mem_append, List.mem_cons, not_or]
  exact ⟨not_mem_dateText hs, hZ.symm, fun hmem => Iso.unsigned_of_clockText ht _ hmem (by decide),
    not_mem_offsetText ho⟩

/-- The ISO forms read a date and a time in full, behind any character that is no Z. -/
theorem isoMoment?_full {separator : Char} (hm : m.Valid) (ho : ∀ o ∈ m.offset, (1000000 : Int) ∣ o)
    (hZ : separator ≠ 'Z') (hs : Iso.DateText m.date s) (ht : Iso.ClockText m.clock t) :
    isoMoment? (s ++ separator :: (t ++ m.offsetText)) = some m := by
  rw [isoMoment?_eq, spellOutZulu_eq_self (not_mem_full ho hZ hs ht), Iso.moment?_of_dateText hs,
    if_pos hm.date, Iso.withTime?_cons, time?_full hm ho ht]
  rfl

/-- Reading a text that shows a moment in full gives the moment, whatever blanks surround it. -/
theorem readMoment?_full {separator : Char} {before after : List Char} (hm : m.Valid)
    (ho : ∀ o ∈ m.offset, (1000000 : Int) ∣ o) (hZ : separator ≠ 'Z')
    (hb : ∀ c ∈ before, isBlank c = true) (ha : ∀ c ∈ after, isBlank c = true)
    (hs : Iso.DateText m.date s) (ht : Iso.ClockText m.clock t) :
    readMoment? (String.ofList (before ++ (s ++ separator :: (t ++ m.offsetText)) ++ after)) =
      some m := by
  have hstrip : strip (String.ofList
      (before ++ (s ++ separator :: (t ++ m.offsetText)) ++ after)).toList =
        s ++ separator :: (t ++ m.offsetText) := by
    rw [String.toList_ofList]
    refine strip_around hb ha ?_ ?_
    · exact digit_of_dateText hs _
    · refine endsInDigit_append _ (endsInDigit_cons _ ?_)
      rcases offsetText_cases ho with ⟨-, htext⟩ | ⟨o, -, htext⟩
      · rw [htext, List.append_nil]
        exact endsInDigit_of_clockText ht
      · rw [htext]
        exact endsInDigit_append _ (endsInDigit_cons _ (endsInDigit_offsetDigits _))
  have hiso := isoMoment?_full hm ho hZ hs ht
  have hread := hiso
  rw [← hstrip] at hread
  rw [readMoment?_of_isoMoment? hread, hstrip]
  -- a layout may read the text first, but none that ends in a Z
  cases hfirst : Layout.all.findSome? (·.read? (s ++ separator :: (t ++ m.offsetText))) with
  | none => rfl
  | some m₁ =>
    obtain ⟨l, hl, hlayout⟩ := List.exists_of_findSome?_eq_some hfirst
    obtain ⟨hoffset, hsame, hcapital⟩ := Layout.read?_agrees hl hlayout hiso
    have hnone : l.getLast? ≠ some (.mark 'Z') := fun hlast =>
      not_mem_full ho hZ hs ht (hcapital hlast)
    rw [if_neg hnone, ← hoffset] at hsame
    rw [hsame]
    rfl

/-- Reading undoes writing. For every moment that exists and whose offset is of whole seconds or
absent, its ISO text with a T or a space between date and time, and with any blanks around it, is
read as the moment itself: date, time of day down to the microsecond, and offset, an absent one
staying absent. This holds as well if the fraction of a second is written with any digits, up to
six, that give the same microseconds, such as six zeros. -/
theorem readMoment?_isoText (m : Moment) (separator : Char) (before after : String) (hm : m.Valid)
    (ho : ∀ o ∈ m.offset, (1000000 : Int) ∣ o) (hseparator : separator = 'T' ∨ separator = ' ')
    (hb : ∀ c ∈ before.toList, isBlank c = true) (ha : ∀ c ∈ after.toList, isBlank c = true) :
    readMoment? (before ++ m.isoText separator ++ after) = some m ∧
      ∀ t, Iso.ClockText m.clock t →
        readMoment? (before ++ String.ofList
          (m.date.isoChars ++ separator :: (t ++ (m.offset.map offsetChars).getD [])) ++ after) =
            some m := by
  have hZ : separator ≠ 'Z' := by
    rcases hseparator with rfl | rfl <;> decide
  have hread : ∀ t, Iso.ClockText m.clock t → readMoment? (before ++ String.ofList
      (m.date.isoChars ++ separator :: (t ++ m.offsetText)) ++ after) = some m := by
    intro t ht
    have := readMoment?_full hm ho hZ hb ha (dateText_isoChars hm.date) ht
    rwa [String.ofList_append, String.ofList_append, String.ofList_toList,
      String.ofList_toList] at this
  exact ⟨hread _ (clockText_isoChars hm.clock), hread⟩

theorem readMoment?_isoText_newYear :
    readMoment? ("\n\t" ++ "0001-01-01 23:59:59-23:59:59" ++ "\x1f") =
        some ⟨⟨1, 1, 1⟩, ⟨23, 59, 59, 0⟩, some (-86399000000)⟩ ∧
      readMoment? ("\n\t" ++ "0001-01-01 23:59:59.000000-23:59:59" ++ "\x1f") =
        some ⟨⟨1, 1, 1⟩, ⟨23, 59, 59, 0⟩, some (-86399000000)⟩ := by
  let m : Moment := ⟨⟨1, 1, 1⟩, ⟨23, 59, 59, 0⟩, some (-86399000000)⟩
  have hm : m.Valid := ⟨by decide, by decide, by rintro o ⟨⟩; decide⟩
  have hzeros : Iso.ClockText m.clock "23:59:59.000000".toList :=
    .intro (pair_digits 23) (pair_digits 59) (pair_digits 59)
      (.present (t := digits 6 0) (by decide) (by decide) (isDigit_digits 6 0))
  have htext : m.isoText ' ' = "0001-01-01 23:59:59-23:59:59" := by decide +kernel
  have htext' : String.ofList (m.date.isoChars ++ ' ' ::
      ("23:59:59.000000".toList ++ (m.offset.map offsetChars).getD [])) =
        "0001-01-01 23:59:59.000000-23:59:59" := by
    decide +kernel
  obtain ⟨hshort, hfull⟩ := readMoment?_isoText m ' ' "\n\t" "\x1f" hm (by rintro o ⟨⟩; decide)
    (.inr rfl) (List.all_eq_true.1 (by decide)) (List.all_eq_true.1 (by decide))
  have hlong := hfull _ hzeros
  rw [htext] at hshort
  rw [htext'] at hlong
  exact ⟨hshort, hlong⟩

end ShapeCheck.Calendar
