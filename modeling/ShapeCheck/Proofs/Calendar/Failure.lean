import Mathlib.Data.List.Induction
import ShapeCheck.Proofs.Calendar.Scan
import ShapeCheck.Proofs.Calendar.Week
import ShapeCheck.Scalar.Basic

/-
  How a text fails to be a date. A layout makes a moment of the numbers that it finds, which could
  be too large for a machine word; but each is found in few digits, and what one piece enters stays
  below a million (`Piece.small_enter`), so a whole scan does (`Layout.small_of_scan`). What remains
  for a layout and for the ISO forms is that the text has another form, or that there is no such
  moment (`Refusal`). Both are of the kind that leaves the text to the next reader, so reading free
  text never fails (`readMoment_ok`), and no test of a value does (`Scalar.run_ok`).
-/

namespace ShapeCheck.Calendar

open ShapeCheck.Text

/-! ## Small numbers -/

theorem numeral_append_singleton (t : List Char) (c : Char) :
    numeral (t ++ [c]) = 10 * numeral t + (digitValue? c).getD 0 := by
  rw [numeral, List.foldl_append]
  rfl

theorem numeral_lt (t : List Char) : numeral t < pow10 t.length := by
  induction t using List.reverseRecOn with
  | nil => exact Nat.one_pos
  | append_singleton t c ih =>
    have hdigit : (digitValue? c).getD 0 < 10 := by
      cases hc : digitValue? c with
      | none => exact Nat.succ_pos 9
      | some d => exact digitValue?_lt hc
    have hpow : pow10 (t.length + 1) = pow10 t.length * 10 := rfl
    rw [numeral_append_singleton, List.length_append, List.length_singleton, hpow]
    omega

/-- The number of at most six digits is below a million. -/
theorem numeral_small {t : List Char} (ht : t.length ≤ 6) : numeral t < 1000000 :=
  Nat.lt_of_lt_of_le (numeral_lt t) (Nat.pow_le_pow_right (by decide) ht)

/-- The numbers of a moment are below a million. -/
def Moment.Small (m : Moment) : Prop := ∀ n ∈ m.numbers, n < 1000000

theorem Moment.small_iff {m : Moment} : m.Small ↔
    (m.date.year < 1000000 ∧ m.date.month < 1000000 ∧ m.date.day < 1000000) ∧
      m.clock.hour < 1000000 ∧ m.clock.minute < 1000000 ∧ m.clock.second < 1000000 ∧
        m.clock.micro < 1000000 := by
  simp only [Small, numbers, List.forall_mem_cons, List.not_mem_nil, false_implies,
    implies_true, and_true, and_assoc]

theorem Moment.Valid.small {m : Moment} (hdate : m.date.Valid) (hclock : m.clock.Valid) :
    m.Small := by
  have hyear := hdate.year
  have hmonth := hdate.month
  have hday := Nat.le_trans hdate.day.2 (daysInMonth_le m.date.year m.date.month)
  obtain ⟨hhour, hminute, hsecond, hmicro⟩ := hclock
  exact small_iff.2 ⟨⟨by omega, by omega, by omega⟩, by omega, by omega, by omega, hmicro⟩

theorem Moment.Small.fits {m : Moment} (hm : m.Small) :
    ¬m.numbers.any (maxWord < ·) = true := by
  rw [List.any_eq_true]
  rintro ⟨n, hn, hlarge⟩
  have hsmall := hm n hn
  have hword := of_decide_eq_true hlarge
  unfold maxWord at hword
  omega

namespace Piece

variable {p : Piece} {m : Moment} {t : List Char}

theorem Short.small (ht : Short t) : numeral t < 1000000 :=
  numeral_small (by rcases ht.length with h | h <;> omega)

theorem length_day_le (ht : day.pattern.Matches t) : t.length ≤ 2 := by
  rcases short_or_blank_of_day ht with ht | ⟨c, rfl, -⟩
  · rcases ht.length with h | h <;> omega
  · exact Nat.le_refl 2

/-- What a piece enters is small. -/
theorem small_enter (hm : m.Small) (ht : p.pattern.Matches t) : (p.enter m t).Small := by
  obtain ⟨⟨hyear, hmonth, hday⟩, hhour, hminute, hsecond, hmicro⟩ := Moment.small_iff.1 hm
  refine Moment.small_iff.2 ?_
  cases p with
  | year =>
    obtain ⟨hlen, -⟩ := matches_year ht
    exact ⟨⟨numeral_small (by omega), hmonth, hday⟩, hhour, hminute, hsecond, hmicro⟩
  | month => exact ⟨⟨hyear, (short_of_month ht).small, hday⟩, hhour, hminute, hsecond, hmicro⟩
  | day =>
    have hlen := Nat.le_trans (List.length_filter_le (· != ' ') t) (length_day_le ht)
    exact ⟨⟨hyear, hmonth, numeral_small (Nat.le_trans hlen (by decide))⟩, hhour, hminute,
      hsecond, hmicro⟩
  | hour => exact ⟨⟨hyear, hmonth, hday⟩, (short_of_hour ht).small, hminute, hsecond, hmicro⟩
  | minute => exact ⟨⟨hyear, hmonth, hday⟩, hhour, (short_of_minute ht).small, hsecond, hmicro⟩
  | second => exact ⟨⟨hyear, hmonth, hday⟩, hhour, hminute, (short_of_second ht).small, hmicro⟩
  | fraction =>
    obtain ⟨-, hlen, -⟩ := matches_fraction ht
    have hmicro : numeral t * pow10 (6 - t.length) < 1000000 :=
      calc numeral t * pow10 (6 - t.length)
          < pow10 t.length * pow10 (6 - t.length) :=
            Nat.mul_lt_mul_of_pos_right (numeral_lt t) (Nat.pow_pos (by decide))
        _ = pow10 6 := by
            have hsum : t.length + (6 - t.length) = 6 := Nat.add_sub_cancel' hlen
            exact (Nat.pow_add 10 t.length (6 - t.length)).symm.trans (congrArg pow10 hsum)
    exact ⟨⟨hyear, hmonth, hday⟩, hhour, hminute, hsecond, hmicro⟩
  | blanks => exact ⟨⟨hyear, hmonth, hday⟩, hhour, hminute, hsecond, hmicro⟩
  | mark c => exact ⟨⟨hyear, hmonth, hday⟩, hhour, hminute, hsecond, hmicro⟩

end Piece

/-! ## Failures of one reader -/

/-- A failure that refuses a text: it has not the form, or what it writes does not exist. -/
def Refusal (e : Misuse) : Prop := e = .unreadable ∨ e = .outOfRange

theorem Refusal.kind {e : Misuse} (he : Refusal e) : e.kind = .value := by
  rcases he with rfl | rfl <;> rfl

/-- A reading that has a result, or else refuses. -/
def Refusing {α : Type} (x : Except Misuse α) : Prop := ∀ e, x = .error e → Refusal e

section

variable {α β : Type}

theorem refusing_ok (a : α) : Refusing (.ok a : Except Misuse α) := nofun

theorem refusing_unreadable : Refusing (.error .unreadable : Except Misuse α) := by
  rintro e he
  cases he
  exact .inl rfl

theorem refusing_outOfRange : Refusing (.error .outOfRange : Except Misuse α) := by
  rintro e he
  cases he
  exact .inr rfl

theorem Refusing.bind {x : Except Misuse α} {f : α → Except Misuse β} (hx : Refusing x)
    (hf : ∀ a, Refusing (f a)) : Refusing (x >>= f) := by
  cases x with
  | error e =>
    rintro e' he
    cases he
    exact hx e rfl
  | ok a => exact hf a

end

namespace Layout

variable {l : Layout} {m m' : Moment} {s r : List Char}

/-- What a layout finds is small. -/
theorem small_of_scan (hm : m.Small) (h : l.scan m s = some (m', r)) : m'.Small := by
  induction l generalizing m s with
  | nil =>
    cases h
    exact hm
  | cons p l ih =>
    obtain ⟨t, u, -, ht, hscan⟩ := scan_cons h
    exact ih (Piece.small_enter hm ht) hscan

theorem toOption_checked (m : Moment) :
    m.checked.toOption = if m.date.Valid ∧ m.clock.Valid then some m else none := by
  unfold Moment.checked
  by_cases hvalid : m.date.Valid ∧ m.clock.Valid
  · rw [if_neg (Moment.Valid.small hvalid.1 hvalid.2).fits, if_pos hvalid, if_pos hvalid]
    rfl
  · rw [if_neg hvalid, if_neg hvalid]
    split <;> rfl

theorem read?_eq (l : Layout) (s : List Char) : l.read? s =
    match l.scan ⟨⟨1900, 1, 1⟩, {}, none⟩ s with
    | some (m, []) => if m.date.Valid ∧ m.clock.Valid then some m else none
    | _ => none := by
  unfold read? read
  rcases l.scan ⟨⟨1900, 1, 1⟩, {}, none⟩ s with _ | ⟨m, _ | ⟨c, r⟩⟩
  · rfl
  · exact toOption_checked m
  · rfl

/-- A layout reads a text or refuses it. No number that it finds is too large to ask whether the
moment exists. -/
theorem refusing_read (l : Layout) (s : List Char) : Refusing (l.read s) := by
  unfold read
  split
  · rename_i m hscan
    have hstart : Moment.Small ⟨⟨1900, 1, 1⟩, {}, none⟩ := Moment.small_iff.2 (by decide)
    rw [Moment.checked, if_neg (small_of_scan hstart hscan).fits]
    split
    · exact refusing_ok _
    · exact refusing_outOfRange
  · exact refusing_unreadable

end Layout

namespace Iso

variable {α : Type}

theorem refusing_formed (o : Option α) : Refusing (formed o) := by
  cases o with
  | none => exact refusing_unreadable
  | some a => exact refusing_ok a

theorem refusing_inRange (o : Option α) : Refusing (inRange o) := by
  cases o with
  | none => exact refusing_outOfRange
  | some a => exact refusing_ok a

theorem refusing_calendarDate (year month day : List Byte) :
    Refusing (calendarDate year month day) :=
  (refusing_formed _).bind fun _ => (refusing_formed _).bind fun _ =>
    (refusing_formed _).bind fun _ => refusing_inRange _

theorem refusing_weekDate (year week day : List Byte) : Refusing (weekDate year week day) :=
  (refusing_formed _).bind fun _ => (refusing_formed _).bind fun _ =>
    (refusing_formed _).bind fun _ => refusing_inRange _

theorem refusing_date (bs : List Byte) : Refusing (date bs) := by
  unfold date
  repeat' split
  all_goals first
    | exact refusing_weekDate _ _ _
    | exact refusing_calendarDate _ _ _
    | exact refusing_unreadable

theorem refusing_offset (negative : Bool) (t : Clock) : Refusing (offset negative t) := by
  unfold offset
  split
  · exact refusing_ok _
  · split
    · exact refusing_ok _
    · exact refusing_outOfRange

theorem refusing_offsetAfter (sign : Byte) (rest : List Byte) :
    Refusing (offsetAfter sign rest) := by
  unfold offsetAfter
  split
  · split
    · exact refusing_ok _
    · exact refusing_unreadable
  · refine (refusing_formed _).bind fun o => (refusing_offset _ _).bind fun n => ?_
    split
    · exact refusing_unreadable
    · exact refusing_ok _

theorem refusing_time (bs : List Byte) : Refusing (time bs) := by
  unfold time
  split
  · refine (refusing_formed _).bind fun r => ?_
    split
    · exact refusing_unreadable
    · exact refusing_inRange _
  · exact (refusing_formed _).bind fun r => (refusing_offsetAfter _ _).bind fun n =>
      refusing_inRange _

theorem refusing_moment (bs : List Byte) : Refusing (moment bs) := by
  unfold moment
  refine (refusing_formed _).bind fun n => (refusing_date _).bind fun d => ?_
  split
  · exact refusing_ok _
  · exact (refusing_time _).bind fun t => refusing_ok _

end Iso

/-- Every reader reads a text or refuses it. -/
theorem refusing_of_mem_readers {read : List Char → Except Misuse Moment} (hr : read ∈ readers)
    (s : List Char) : Refusing (read s) := by
  rcases List.mem_append.1 hr with hr | hr
  · obtain ⟨l, -, rfl⟩ := List.mem_map.1 hr
    exact l.refusing_read s
  · rw [List.mem_singleton.1 hr]
    exact Iso.refusing_moment _

/-! ## Reading free text -/

/-- Where every reader reads the text or refuses it, what the first one reads is the result. -/
theorem readFirst_ok {s : List Char} {rs : List (List Char → Except Misuse Moment)}
    (hrs : ∀ read ∈ rs, Refusing (read s)) :
    readFirst s rs = .ok (rs.findSome? fun read => (read s).toOption) := by
  induction rs with
  | nil => rfl
  | cons read rs ih =>
    obtain ⟨hread, hrs⟩ := List.forall_mem_cons.1 hrs
    rw [readFirst, List.findSome?_cons]
    cases hr : read s with
    | ok m => rfl
    | error e =>
      dsimp only
      rw [if_pos (hread e hr).kind, ih hrs]
      rfl

theorem readMoment_eq (text : String) : readMoment text =
    .ok (if (strip text.toList).isEmpty then none
      else (Layout.all.findSome? (·.read? (strip text.toList))).or
        (isoMoment? (strip text.toList))) := by
  unfold readMoment
  by_cases hblank : (strip text.toList).isEmpty = true
  · rw [if_pos hblank, if_pos hblank]
  · rw [if_neg hblank, if_neg hblank, readFirst_ok fun read hr => refusing_of_mem_readers hr _,
      readers, List.findSome?_append, List.findSome?_map, List.findSome?_singleton]
    rfl

theorem readMoment?_eq (text : String) : readMoment? text =
    if (strip text.toList).isEmpty then none
    else (Layout.all.findSome? (·.read? (strip text.toList))).or
      (isoMoment? (strip text.toList)) := by
  rw [readMoment?, readMoment_eq]
  rfl

/-- Reading free text does not fail. -/
theorem readMoment_ok (text : String) : readMoment text = .ok (readMoment? text) := by
  rw [readMoment_eq, readMoment?_eq]

end ShapeCheck.Calendar

namespace ShapeCheck

open ShapeCheck.Calendar

/-- No test of a value fails. -/
theorem Scalar.run_ok (k : Scalar) (v : Value) : k.run v = .ok (k.test v) := by
  have hok : ∃ b, k.run v = .ok b := by
    unfold run
    split
    all_goals first
      | exact ⟨_, rfl⟩
      | skip
    rw [readMoment_ok]
    exact ⟨_, rfl⟩
  obtain ⟨b, hb⟩ := hok
  rw [test, hb]
  cases b <;> rfl

theorem Scalar.test_date_str (text : String) :
    Scalar.date.test (.str text) = (readMoment? text).isSome := by
  have hrun : Scalar.date.run (.str text) = .ok (readMoment? text).isSome := by
    rw [run, readMoment_ok]
    rfl
  exact (Except.ok.inj ((run_ok .date (.str text)).symm.trans hrun))

end ShapeCheck
