import Mathlib.Data.Bool.AllAny
import ShapeCheck.Proofs.Calendar.RoundTrip

/-
  Dates with slashes. Such a text can be cut into its fields in one way only, so a layout with
  slashes reads it exactly if the date and the time that its numerals write exist
  (`Layout.read?_monthFirst`, `Layout.read?_dayFirst`). A field that would take the numeral of no
  existing date or time is one that fails on its own, or that the check of the whole moment refuses;
  either way the next layout is tried. The layouts with dashes and the ISO forms start with four
  digits, where this text has a slash.
-/

namespace ShapeCheck.Calendar

open ShapeCheck.Text

/-! ## Numerals -/

/-- A numeral of one or two digits of ASCII. -/
structure Figures (t : List Char) : Prop where
  length : t.length = 1 ∨ t.length = 2
  digits : ∀ c ∈ t, c.isDigit = true

variable {s t u v : List Char} {m : Moment} {c : Clock}

theorem exists_digitChar {x : Char} (hx : x.isDigit = true) : ∃ k < 10, x = Nat.digitChar k := by
  have hrange := Iso.char_isDigit_iff.1 hx
  refine ⟨x.toNat - 48, by omega, Char.toNat_inj.1 ?_⟩
  rw [Nat.toNat_digitChar_of_lt_ten (by omega)]
  omega

theorem numeral_digitChar {k : Nat} (hk : k < 10) : numeral [Nat.digitChar k] = k := by
  have hvalue := numeral_append_singleton [] (Nat.digitChar k)
  rw [(digitChar_of_lt k hk).2] at hvalue
  exact hvalue.trans (by rw [Option.getD_some]; exact Nat.zero_add k)

theorem numeral_digitChars {j k : Nat} (hj : j < 10) (hk : k < 10) :
    numeral [Nat.digitChar j, Nat.digitChar k] = 10 * j + k := by
  have hvalue := numeral_append_singleton [Nat.digitChar j] (Nat.digitChar k)
  rwa [(digitChar_of_lt k hk).2, numeral_digitChar hj] at hvalue

theorem Figures.cases (ht : Figures t) : (∃ k < 10, t = [Nat.digitChar k] ∧ numeral t = k) ∨
    ∃ j < 10, ∃ k < 10, t = [Nat.digitChar j, Nat.digitChar k] ∧ numeral t = 10 * j + k := by
  rcases ht.length with hlen | hlen
  · obtain ⟨x, rfl⟩ := List.length_eq_one_iff.1 hlen
    obtain ⟨k, hk, rfl⟩ := exists_digitChar (ht.digits x (List.mem_cons_self ..))
    exact .inl ⟨k, hk, rfl, numeral_digitChar hk⟩
  · obtain ⟨x, y, rfl⟩ := List.length_eq_two.1 hlen
    obtain ⟨j, hj, rfl⟩ := exists_digitChar (ht.digits x (List.mem_cons_self ..))
    obtain ⟨k, hk, rfl⟩ := exists_digitChar (ht.digits y (List.mem_cons_of_mem _
      (List.mem_cons_self ..)))
    exact .inr ⟨j, hj, k, hk, rfl, numeral_digitChars hj hk⟩

theorem Figures.exists_cons (ht : Figures t) : ∃ z u, t = z :: u ∧ z.isDigit = true := by
  cases t with
  | nil => exact absurd ht.length (by decide)
  | cons z u => exact ⟨z, u, rfl, ht.digits z (List.mem_cons_self ..)⟩

theorem Figures.decimal (ht : Figures t) : ∀ x ∈ t, isDecimalDigit x = true := fun x hx =>
  isDecimalDigit_of_isDigit (ht.digits x hx)

theorem Figures.ends (ht : Figures t) : EndsInDigit t := by
  refine endsInDigit_of_digits ?_ ht.digits
  rintro rfl
  exact absurd ht.length (by decide)

/-! ## Fields -/

namespace Piece

/-- The fields of one or two digits, each with the least and the greatest number that it takes. -/
def ranges : List (Piece × Nat × Nat) :=
  [(month, 1, 12), (day, 1, 31), (hour, 0, 23), (minute, 0, 59), (second, 0, 61)]

/-- A field takes all the digits of a number in its range, and it prefers to; it does not take the
digits of another number. -/
theorem rests_digits : ∀ f ∈ ranges, ∀ k < 10,
    (if f.2.1 ≤ k ∧ k ≤ f.2.2 then (f.1.pattern.rests [Nat.digitChar k]).head? = some []
      else [] ∉ f.1.pattern.rests [Nat.digitChar k]) ∧
    ∀ j < 10, if f.2.1 ≤ 10 * j + k ∧ 10 * j + k ≤ f.2.2 then
        (f.1.pattern.rests [Nat.digitChar j, Nat.digitChar k]).head? = some []
      else [] ∉ f.1.pattern.rests [Nat.digitChar j, Nat.digitChar k] := by
  decide +kernel

theorem rests_figures {p : Piece} {lo hi : Nat} (hp : (p, lo, hi) ∈ ranges) (ht : Figures t) :
    if lo ≤ numeral t ∧ numeral t ≤ hi then (p.pattern.rests t).head? = some []
      else [] ∉ p.pattern.rests t := by
  rcases ht.cases with ⟨k, hk, rfl, hn⟩ | ⟨j, hj, k, hk, rfl, hn⟩
  · rw [hn]
    exact (rests_digits (p, lo, hi) hp k hk).1
  · rw [hn]
    exact (rests_digits (p, lo, hi) hp k hk).2 j hj

theorem matches_figures {p : Piece} {lo hi : Nat} (hp : (p, lo, hi) ∈ ranges) (ht : Figures t) :
    p.pattern.Matches t ↔ lo ≤ numeral t ∧ numeral t ≤ hi := by
  have hmem : p.pattern.Matches t ↔ [] ∈ p.pattern.rests t := by
    simp only [Pattern.mem_rests_iff, List.append_nil, exists_eq_left']
  have hrests := rests_figures hp ht
  rw [hmem]
  split at hrests
  · rename_i hrange
    exact iff_of_true (List.mem_of_head? hrests) hrange
  · rename_i hrange
    exact iff_of_false hrests hrange

/-- The digits that a field takes, and the blank that may stand before a day. -/
theorem class_of_field {p : Piece} {lo hi : Nat} (hp : (p, lo, hi) ∈ ranges)
    (ht : p.pattern.Matches t) : t ≠ [] ∧ ∀ x ∈ t, isDecimalDigit x = true ∨ x = ' ' := by
  have hshort : Short t → t ≠ [] ∧ ∀ x ∈ t, isDecimalDigit x = true ∨ x = ' ' := by
    refine fun ht => ⟨?_, fun x hx => .inl (ht.digits x hx)⟩
    rintro rfl
    exact absurd ht.length (by decide)
  simp only [ranges, List.mem_cons, List.not_mem_nil, or_false, Prod.mk.injEq] at hp
  rcases hp with ⟨rfl, -⟩ | ⟨rfl, -⟩ | ⟨rfl, -⟩ | ⟨rfl, -⟩ | ⟨rfl, -⟩
  · exact hshort (short_of_month ht)
  · rcases short_or_blank_of_day ht with ht | ⟨x, rfl, hx⟩
    · exact hshort ht
    · exact ⟨nofun, List.forall_mem_cons.2 ⟨.inr rfl, List.forall_mem_singleton.2 (.inl hx)⟩⟩
  · exact hshort (short_of_hour ht)
  · exact hshort (short_of_minute ht)
  · exact hshort (short_of_second ht)

end Piece

/-! ## Layouts step by step -/

namespace Layout

variable {l : Layout} {p : Piece} {lo hi : Nat} {x : Moment × List Char} {y : Char}

/-- If there is one way to cut a text for a layout, the first piece takes what is cut off. -/
theorem scan_cons_eq (ht : p.pattern.Matches t) (hunique : ∀ t' u', t ++ u = t' ++ u' →
    p.pattern.Matches t' → scan (p.enter m t') l u' ≠ none → t' = t) :
    scan m (p :: l) (t ++ u) = scan (p.enter m t) l u := by
  have hlen : ∀ r : List Char, (t ++ r).length - r.length = t.length := fun r => by
    rw [List.length_append, Nat.add_sub_cancel]
  cases hscan : scan m (p :: l) (t ++ u) with
  | some x =>
    obtain ⟨t', u', hsplit, ht', hrest⟩ := scan_cons hscan
    obtain rfl := hunique t' u' hsplit ht' (by rw [hrest]; exact nofun)
    rw [List.append_cancel_left hsplit, hrest]
  | none =>
    have hmem : u ∈ p.pattern.rests (t ++ u) := (Pattern.mem_rests_iff ..).2 ⟨t, rfl, ht⟩
    have hnone := List.findSome?_eq_none_iff.1 hscan u hmem
    rw [hlen, List.take_left] at hnone
    exact hnone.symm

/-- A sign is taken as itself. -/
theorem scan_mark (m : Moment) (y : Char) (l : Layout) (u : List Char) :
    scan m (.mark y :: l) (y :: u) = scan m l u := by
  refine scan_cons_eq (t := [y]) ⟨y, rfl, beq_self_eq_true _⟩ fun t' u' hsplit ht' _ => ?_
  obtain ⟨z, rfl, -⟩ := ht'
  rw [(List.cons.inj hsplit).1]

/-- A field is cut off at the sign behind it. -/
theorem scan_field_iff (hp : (p, lo, hi) ∈ Piece.ranges) (ht : Figures t) (hy : y ∈ ['/', ':']) :
    scan m (p :: .mark y :: l) (t ++ y :: u) = some x ↔
      (lo ≤ numeral t ∧ numeral t ≤ hi) ∧ scan (p.enter m t) l u = some x := by
  have hsign : y.toNat < 65 ∧ ¬(isDecimalDigit y = true ∨ y = ' ') := by
    have hsigns : ∀ y ∈ ['/', ':'], y.toNat < 65 ∧ ¬(isDecimalDigit y = true ∨ y = ' ') :=
      List.all_iff_forall_prop.1 (by decide)
    exact hsigns y hy
  have hbefore : y ∉ t := fun hmem => hsign.2 (.inl (ht.decimal y hmem))
  -- what the field takes ends where the sign stands, since no field takes the sign
  have hcut : ∀ {t' u' : List Char} {x : Moment × List Char}, t ++ y :: u = t' ++ u' →
      p.pattern.Matches t' → scan (p.enter m t') (.mark y :: l) u' = some x →
      t' = t ∧ scan (p.enter m t') l u = some x := by
    intro t' u' x hsplit ht' hscan
    obtain ⟨w, rfl, hrest⟩ := scan_sign hsign.1 hscan
    have hoff : y ∉ t' := fun hmem => hsign.2 ((Piece.class_of_field hp ht').2 y hmem)
    obtain ⟨rfl, rfl⟩ := eq_of_append_cons_eq hbefore hoff hsplit
    exact ⟨rfl, hrest⟩
  rw [← Piece.matches_figures hp ht]
  constructor
  · intro h
    obtain ⟨t', u', hsplit, ht', hscan⟩ := scan_cons h
    obtain ⟨rfl, hrest⟩ := hcut hsplit ht' hscan
    exact ⟨ht', hrest⟩
  · rintro ⟨htaken, hscan⟩
    rw [scan_cons_eq htaken, scan_mark, hscan]
    intro t' u' hsplit ht' hsome
    obtain ⟨z, hz⟩ := Option.ne_none_iff_exists'.1 hsome
    exact (hcut hsplit ht' hz).1

/-- A year is four digits. -/
theorem scan_year_eq (hlen : t.length = 4) (ht : ∀ z ∈ t, z.isDigit = true) :
    scan m (.year :: l) (t ++ u) = scan (Piece.year.enter m t) l u := by
  have hyear : Piece.year.pattern.Matches t :=
    Pattern.matches_exactly_one.2 ⟨hlen, fun z hz => isDecimalDigit_of_isDigit (ht z hz)⟩
  refine scan_cons_eq hyear fun t' u' hsplit ht' _ => ?_
  exact (List.append_inj hsplit (hlen.trans (Piece.matches_year ht').1.symm)).1.symm

/-- Blanks end where the hour starts. -/
theorem scan_blanks_eq (hne : t ≠ []) (ht : ∀ z ∈ t, isBlank z = true)
    (hstart : isDecimalDigit y = true) :
    scan m (.blanks :: .hour :: l) (t ++ y :: u) = scan m (.hour :: l) (y :: u) := by
  have hblanks : Piece.blanks.pattern.Matches t := Pattern.matches_many1_one.2 ⟨hne, ht⟩
  refine scan_cons_eq hblanks fun t' u' hsplit ht' hsome => ?_
  obtain ⟨z, hz⟩ := Option.ne_none_iff_exists'.1 hsome
  obtain ⟨w, v, rfl, hw, -⟩ := scan_cons hz
  have hhour := Piece.short_of_hour hw
  cases w with
  | nil => exact absurd hhour.length (by decide)
  | cons a w =>
    exact (eq_of_append_eq ht (Pattern.matches_many1_one.1 ht').2
      (not_isBlank_of_isDecimalDigit hstart)
      (not_isBlank_of_isDecimalDigit (hhour.digits a (List.mem_cons_self ..))) hsplit).1.symm

/-- The last field of a layout takes what is left if its number is in its range. -/
theorem scan_last_iff (hp : (p, lo, hi) ∈ Piece.ranges) (ht : Figures t) {m' : Moment} :
    scan m [p] t = some (m', []) ↔
      (lo ≤ numeral t ∧ numeral t ≤ hi) ∧ m' = p.enter m t := by
  constructor
  · intro h
    obtain ⟨t', u', rfl, ht', hscan⟩ := scan_cons h
    cases hscan
    rw [List.append_nil] at ht ⊢
    exact ⟨(Piece.matches_figures hp ht).1 ht', rfl⟩
  · rintro ⟨hrange, rfl⟩
    have hrests := Piece.rests_figures hp ht
    rw [if_pos hrange] at hrests
    obtain ⟨r, hr⟩ := List.head?_eq_some_iff.1 hrests
    rw [scan, hr, List.findSome?_cons, List.length_nil, Nat.sub_zero, List.take_length]
    rfl

/-- A whole text is read if it is taken to its end and what it gives exists. -/
theorem read?_eq_some_iff : l.read? s = some m ↔
    scan ⟨⟨1900, 1, 1⟩, {}, none⟩ l s = some (m, []) ∧ m.date.Valid ∧ m.clock.Valid := by
  refine ⟨read?_eq_some, fun ⟨hscan, hvalid⟩ => ?_⟩
  rw [read?_eq, hscan]
  exact if_pos hvalid

/-! ## The time -/

/-- What follows a date with slashes: nothing, or blanks and the numerals of a time. -/
inductive TimeTail : Clock → List Char → Prop where
  | absent : TimeTail {} []
  | present {u ho mi se : List Char} (nonempty : u ≠ []) (blanks : ∀ z ∈ u, isBlank z = true)
      (hour : Figures ho) (minute : Figures mi) (second : Figures se) :
      TimeTail ⟨numeral ho, numeral mi, numeral se, 0⟩ (u ++ (ho ++ ':' :: (mi ++ ':' :: se)))

/-- The layout of what follows a date. -/
def timeLayout (t : List Char) : Layout := if t = [] then [] else .blanks :: clock

theorem scan_clock_iff {ho mi se : List Char} {m' : Moment} (hhour : Figures ho)
    (hminute : Figures mi) (hsecond : Figures se) :
    scan m clock (ho ++ ':' :: (mi ++ ':' :: se)) = some (m', []) ↔
      (numeral ho ≤ 23 ∧ numeral mi ≤ 59 ∧ numeral se ≤ 61) ∧
        m' = { m with clock := ⟨numeral ho, numeral mi, numeral se, m.clock.micro⟩ } := by
  have hho : (Piece.hour, 0, 23) ∈ Piece.ranges := by decide
  have hmi : (Piece.minute, 0, 59) ∈ Piece.ranges := by decide
  have hse : (Piece.second, 0, 61) ∈ Piece.ranges := by decide
  rw [clock, scan_field_iff hho hhour (by decide), scan_field_iff hmi hminute (by decide),
    scan_last_iff hse hsecond]
  simp only [Nat.zero_le, true_and, and_assoc]
  rfl

theorem scan_timeLayout_iff {m' : Moment} (ht : TimeTail c t) (hm : m.clock = {}) :
    scan m (timeLayout t) t = some (m', []) ↔
      (c.hour ≤ 23 ∧ c.minute ≤ 59 ∧ c.second ≤ 61) ∧ m' = { m with clock := c } := by
  cases ht with
  | absent =>
    rw [← hm]
    exact ⟨fun h => ⟨by rw [hm]; decide, by cases h; rfl⟩, fun h => by rw [h.2]; rfl⟩
  | @present u ho mi se hne hblanks hhour hminute hsecond =>
    obtain ⟨z, w, hz, hdigit⟩ := hhour.exists_cons
    have hnonempty : u ++ (ho ++ ':' :: (mi ++ ':' :: se)) ≠ [] :=
      List.append_ne_nil_of_left_ne_nil hne _
    have hstart : scan m (.blanks :: clock) (u ++ (ho ++ ':' :: (mi ++ ':' :: se))) =
        scan m clock (ho ++ ':' :: (mi ++ ':' :: se)) := by
      rw [hz]
      exact scan_blanks_eq hne hblanks (isDecimalDigit_of_isDigit hdigit)
    rw [timeLayout, if_neg hnonempty, hstart, scan_clock_iff hhour hminute hsecond, hm]

/-- No other layout of a time takes what follows a date. -/
theorem eq_timeLayout_of_scan {m' : Moment} (hl : l = [] ∨ l = .blanks :: clock)
    (h : scan m l t = some (m', [])) : l = timeLayout t := by
  rcases hl with rfl | rfl
  · cases h
    rfl
  · obtain ⟨u, v, rfl, hu, -⟩ := scan_cons h
    rw [timeLayout, if_neg]
    exact List.append_ne_nil_of_left_ne_nil (Pattern.matches_many1_one.1 hu).1 v

/-! ## The date -/

/-- A date with slashes and what follows it. -/
def slashes (a b y t : List Char) : List Char := a ++ '/' :: (b ++ '/' :: (y ++ t))

variable {a b y : List Char} {d : Date} {q : Piece}

/-- The fields of a date are cut off at the slashes, and the year after four digits. -/
theorem scan_slashes_iff {lo' hi' : Nat} (hp : (p, lo, hi) ∈ Piece.ranges)
    (hq : (q, lo', hi') ∈ Piece.ranges) (ha : Figures a) (hb : Figures b) (hlen : y.length = 4)
    (hy : ∀ z ∈ y, z.isDigit = true) :
    scan m (p :: .mark '/' :: q :: .mark '/' :: .year :: l) (slashes a b y t) = some x ↔
      (lo ≤ numeral a ∧ numeral a ≤ hi) ∧ (lo' ≤ numeral b ∧ numeral b ≤ hi') ∧
        scan (Piece.year.enter (q.enter (p.enter m a) b) y) l t = some x := by
  rw [slashes, scan_field_iff hp ha (by decide), scan_field_iff hq hb (by decide),
    scan_year_eq hlen hy]

theorem filter_figures (ha : Figures a) : a.filter (· != ' ') = a := by
  rw [List.filter_eq_self]
  rintro z hz
  rw [bne_iff_ne]
  exact ne_of_mem_of_not_mem hz (not_mem_of_class (by decide) ha.digits)

theorem scan_monthFirst_iff (ha : Figures a) (hb : Figures b) (hlen : y.length = 4)
    (hy : ∀ z ∈ y, z.isDigit = true) :
    scan m (monthFirst ++ l) (slashes a b y t) = some x ↔
      ((1 ≤ numeral a ∧ numeral a ≤ 12) ∧ (1 ≤ numeral b ∧ numeral b ≤ 31)) ∧
        scan { m with date := ⟨numeral y, numeral a, numeral b⟩ } l t = some x := by
  have hmonth : (Piece.month, 1, 12) ∈ Piece.ranges := by decide
  have hday : (Piece.day, 1, 31) ∈ Piece.ranges := by decide
  have henter : Piece.year.enter (Piece.day.enter (Piece.month.enter m a) b) y =
      { m with date := ⟨numeral y, numeral a, numeral (b.filter (· != ' '))⟩ } := rfl
  rw [filter_figures hb] at henter
  rw [and_assoc, ← henter]
  exact scan_slashes_iff hmonth hday ha hb hlen hy

theorem scan_dayFirst_iff (ha : Figures a) (hb : Figures b) (hlen : y.length = 4)
    (hy : ∀ z ∈ y, z.isDigit = true) :
    scan m (dayFirst ++ l) (slashes a b y t) = some x ↔
      ((1 ≤ numeral a ∧ numeral a ≤ 31) ∧ (1 ≤ numeral b ∧ numeral b ≤ 12)) ∧
        scan { m with date := ⟨numeral y, numeral b, numeral a⟩ } l t = some x := by
  have hmonth : (Piece.month, 1, 12) ∈ Piece.ranges := by decide
  have hday : (Piece.day, 1, 31) ∈ Piece.ranges := by decide
  have henter : Piece.year.enter (Piece.month.enter (Piece.day.enter m a) b) y =
      { m with date := ⟨numeral y, numeral b, numeral (a.filter (· != ' '))⟩ } := rfl
  rw [filter_figures ha] at henter
  rw [and_assoc, ← henter]
  exact scan_slashes_iff hday hmonth ha hb hlen hy

/-! ## Whole texts -/

/-- The moment of a date and a time, if both exist. -/
def existing (d : Date) (c : Clock) : Option Moment :=
  if d.Valid ∧ c.Valid then some ⟨d, c, none⟩ else none

/-- If the fields of a date take the numbers of all dates, a date and a time are read exactly if
they exist. -/
theorem read?_eq_existing {taken : Prop} (ht : TimeTail c t) (htaken : d.Valid → taken)
    (hscan : ∀ {m x}, scan m l s = some x ↔
      taken ∧ scan { m with date := d } (timeLayout t) t = some x) :
    l.read? s = existing d c := by
  refine Option.ext fun m' => ?_
  rw [read?_eq_some_iff, hscan, scan_timeLayout_iff ht rfl, existing,
    Option.ite_none_right_eq_some, Option.some.injEq]
  constructor
  · rintro ⟨⟨-, -, rfl⟩, hd, hc⟩
    exact ⟨⟨hd, hc⟩, rfl⟩
  · rintro ⟨⟨hd, hc⟩, rfl⟩
    have hhour := hc.hour
    have hminute := hc.minute
    have hsecond := hc.second
    exact ⟨⟨htaken hd, ⟨by omega, by omega, by omega⟩, rfl⟩, hd, hc⟩

theorem read?_monthFirst (ha : Figures a) (hb : Figures b) (hlen : y.length = 4)
    (hy : ∀ z ∈ y, z.isDigit = true) (ht : TimeTail c t) :
    (monthFirst ++ timeLayout t).read? (slashes a b y t) =
      existing ⟨numeral y, numeral a, numeral b⟩ c :=
  read?_eq_existing ht (fun hd => ⟨hd.month, hd.day.1,
    Nat.le_trans hd.day.2 (daysInMonth_le _ _)⟩) (scan_monthFirst_iff ha hb hlen hy)

theorem read?_dayFirst (ha : Figures a) (hb : Figures b) (hlen : y.length = 4)
    (hy : ∀ z ∈ y, z.isDigit = true) (ht : TimeTail c t) :
    (dayFirst ++ timeLayout t).read? (slashes a b y t) =
      existing ⟨numeral y, numeral b, numeral a⟩ c :=
  read?_eq_existing ht (fun hd => ⟨⟨hd.day.1, Nat.le_trans hd.day.2 (daysInMonth_le _ _)⟩,
    hd.month⟩) (scan_dayFirst_iff ha hb hlen hy)

/-- A layout starts with a year, or it is one of the two orders with or without a time. -/
theorem year_or_slashes_of_mem : ∀ l ∈ all, l.head? = some .year ∨
    ∃ o ∈ [monthFirst, dayFirst], ∃ e ∈ [[], .blanks :: clock], l = o ++ e := by
  decide

/-- A layout that reads a text with slashes has the slashes, and a time if the text has one. -/
theorem slashes_of_read? (ha : Figures a) (hb : Figures b) (hlen : y.length = 4)
    (hy : ∀ z ∈ y, z.isDigit = true) (hl : l ∈ all) (h : l.read? (slashes a b y t) = some m) :
    l = monthFirst ++ timeLayout t ∨ l = dayFirst ++ timeLayout t := by
  obtain ⟨hscan, -⟩ := read?_eq_some h
  rcases year_or_slashes_of_mem l hl with hyear | ⟨o, ho, e, he, rfl⟩
  · obtain ⟨l, rfl⟩ := List.head?_eq_some_iff.1 hyear
    obtain ⟨t', u', hsplit, ht', -⟩ := scan_cons hscan
    obtain ⟨hfour, hdecimal⟩ := Piece.matches_year ht'
    exact absurd (slash_of_length_four ha.length hsplit hfour)
      (not_mem_of_class (by decide) hdecimal)
  · simp only [List.mem_cons, List.not_mem_nil, or_false] at ho he
    rcases ho with rfl | rfl
    · obtain ⟨-, htime⟩ := (scan_monthFirst_iff ha hb hlen hy).1 hscan
      exact .inl (congrArg _ (eq_timeLayout_of_scan he htime))
    · obtain ⟨-, htime⟩ := (scan_dayFirst_iff ha hb hlen hy).1 hscan
      exact .inr (congrArg _ (eq_timeLayout_of_scan he htime))

/-- A search may leave out what gives nothing. -/
theorem findSome?_filter {α β : Type} {f : α → Option β} {p : α → Bool} {as : List α}
    (hnone : ∀ a ∈ as, f a ≠ none → p a = true) : (as.filter p).findSome? f = as.findSome? f := by
  induction as with
  | nil => rfl
  | cons a as ih =>
    obtain ⟨ha, has⟩ := List.forall_mem_cons.1 hnone
    rw [List.filter_cons, List.findSome?_cons]
    cases hfa : f a with
    | none =>
      split
      · rw [List.findSome?_cons, hfa]
        exact ih has
      · exact ih has
    | some b =>
      rw [if_pos (ha (by rw [hfa]; exact nofun)), List.findSome?_cons, hfa]

/-- Of the layouts of a text with slashes, the one with the month first is tried first. -/
theorem filter_slashes (t : List Char) :
    all.filter (fun l => l = monthFirst ++ timeLayout t ∨ l = dayFirst ++ timeLayout t) =
      [monthFirst ++ timeLayout t, dayFirst ++ timeLayout t] := by
  unfold timeLayout
  split <;> decide

/-- The layouts read a text with slashes in the first order in which its date exists. -/
theorem findSome?_slashes (ha : Figures a) (hb : Figures b) (hlen : y.length = 4)
    (hy : ∀ z ∈ y, z.isDigit = true) (ht : TimeTail c t) :
    all.findSome? (·.read? (slashes a b y t)) =
      (existing ⟨numeral y, numeral a, numeral b⟩ c).or
        (existing ⟨numeral y, numeral b, numeral a⟩ c) := by
  rw [← findSome?_filter, filter_slashes t, List.findSome?_cons, List.findSome?_singleton,
    read?_monthFirst ha hb hlen hy ht, read?_dayFirst ha hb hlen hy ht]
  · cases existing ⟨numeral y, numeral a, numeral b⟩ c <;> rfl
  · intro l hl hsome
    obtain ⟨m, hm⟩ := Option.ne_none_iff_exists'.1 hsome
    exact decide_eq_true (slashes_of_read? ha hb hlen hy hl hm)

end Layout

open Layout

/-- A text with slashes starts and ends with a digit. -/
theorem strip_slashes {a b y t : List Char} (ha : Figures a) (hlen : y.length = 4)
    (hy : ∀ z ∈ y, z.isDigit = true) (ht : TimeTail c t) :
    strip (slashes a b y t) = slashes a b y t := by
  have hyear : EndsInDigit y := endsInDigit_of_digits (List.ne_nil_of_length_pos (by omega)) hy
  have htail : EndsInDigit (y ++ t) := by
    cases ht with
    | absent => rwa [List.append_nil]
    | present hne hblanks hhour hminute hsecond =>
      exact endsInDigit_append _ (endsInDigit_append _ (endsInDigit_append _
        (endsInDigit_cons _ (endsInDigit_append _ (endsInDigit_cons _ hsecond.ends)))))
  have hstart : ∃ z u, slashes a b y t = z :: u ∧ z.isDigit = true := by
    obtain ⟨z, u, rfl, hz⟩ := ha.exists_cons
    exact ⟨z, _, rfl, hz⟩
  have hend : EndsInDigit (slashes a b y t) :=
    endsInDigit_append _ (endsInDigit_cons _ (endsInDigit_append _ (endsInDigit_cons _ htail)))
  have h : strip ([] ++ slashes a b y t ++ []) = slashes a b y t :=
    strip_around nofun nofun hstart hend
  rwa [List.nil_append, List.append_nil] at h

/-- Dates with slashes are read with the month first, or with the day first where that is no date.
`a` and `b` are any numerals of one or two digits, `y` is any year of four digits, and what follows
them is nothing, or blanks and a time. If the time does not exist, or neither date does, nothing is
read. Of all layouts only the two with slashes can read the text, with a time if there is one and
without it otherwise, and no ISO form does. -/
theorem readMoment?_slashes (a b y t : List Char) (c : Clock) (ha : Figures a) (hb : Figures b)
    (hlen : y.length = 4) (hy : ∀ z ∈ y, z.isDigit = true) (ht : TimeTail c t) :
    readMoment? (String.ofList (slashes a b y t)) =
        (if ¬ c.Valid then none
        else if (⟨numeral y, numeral a, numeral b⟩ : Date).Valid then
          some ⟨⟨numeral y, numeral a, numeral b⟩, c, none⟩
        else if (⟨numeral y, numeral b, numeral a⟩ : Date).Valid then
          some ⟨⟨numeral y, numeral b, numeral a⟩, c, none⟩
        else none) ∧
      (∀ l ∈ Layout.all, l.read? (slashes a b y t) ≠ none →
        l = monthFirst ++ timeLayout t ∨ l = dayFirst ++ timeLayout t) ∧
      isoMoment? (slashes a b y t) = none := by
  have hiso : isoMoment? (slashes a b y t) = none :=
    isoMoment?_eq_none_of_slash ha.length (not_mem_of_class (by decide) ha.digits)
  refine ⟨?_, fun l hl hsome => ?_, hiso⟩
  · have hne : (slashes a b y t).isEmpty = false := by
      rw [slashes, List.isEmpty_eq_false_iff]
      exact List.append_ne_nil_of_right_ne_nil _ nofun
    rw [readMoment?_eq, String.toList_ofList, strip_slashes ha hlen hy ht]
    rw [hne, if_neg Bool.false_ne_true, findSome?_slashes ha hb hlen hy ht, hiso, Option.or_none]
    by_cases hc : c.Valid
    · simp only [existing, hc, and_true, not_true, if_false]
      split <;> rfl
    · simp only [existing, hc, and_false, if_false, not_false_eq_true, if_true, Option.or_none]
  · obtain ⟨m, hm⟩ := Option.ne_none_iff_exists'.1 hsome
    exact slashes_of_read? ha hb hlen hy hl hm

theorem readMoment?_slashes_leapDay :
    readMoment? "29/02/2024\x1c 7:5:59" = some ⟨⟨2024, 2, 29⟩, ⟨7, 5, 59, 0⟩, none⟩ ∧
      readMoment? "29/02/2023\x1c 7:5:59" = none ∧
      (dayFirst ++ .blanks :: Layout.clock).read? "29/02/2024\x1c 7:5:59".toList ≠ none ∧
      isoMoment? "29/02/2024\x1c 7:5:59".toList = none := by
  have hnine : Figures "29".toList := ⟨by decide, List.all_eq_true.1 (by decide)⟩
  have htwo : Figures "02".toList := ⟨by decide, List.all_eq_true.1 (by decide)⟩
  have htime : TimeTail ⟨numeral ['7'], numeral ['5'], numeral "59".toList, 0⟩
      ("\x1c ".toList ++ (['7'] ++ ':' :: (['5'] ++ ':' :: "59".toList))) :=
    .present (by decide) (List.all_eq_true.1 (by decide))
      ⟨by decide, List.all_eq_true.1 (by decide)⟩ ⟨by decide, List.all_eq_true.1 (by decide)⟩
      ⟨by decide, List.all_eq_true.1 (by decide)⟩
  obtain ⟨hread, -, hiso⟩ := readMoment?_slashes "29".toList "02".toList "2024".toList
    "\x1c 7:5:59".toList _ hnine htwo (by decide) (List.all_eq_true.1 (by decide)) htime
  obtain ⟨hother, -, -⟩ := readMoment?_slashes "29".toList "02".toList "2023".toList
    "\x1c 7:5:59".toList _ hnine htwo (by decide) (List.all_eq_true.1 (by decide)) htime
  refine ⟨hread.trans (by decide), hother.trans (by decide), by decide +kernel, hiso⟩

end ShapeCheck.Calendar
