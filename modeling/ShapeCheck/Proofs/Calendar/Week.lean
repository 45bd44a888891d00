import ShapeCheck.Calendar.Basic

/-
  Counting days, and week dates. The days of the calendar are numbered from the first of January of
  year 1, a Monday, so that a number tells the weekday by its remainder, and no two dates have the
  same number (`Date.eq_of_dayNumber_eq`). A week belongs to the year that its Thursday is in
  (`Date.InWeek`); counting on from the first Monday, across either end of the year, arrives at
  exactly the day of the week that was asked for (`Date.ofWeek?_eq_some_iff`).
-/

namespace ShapeCheck.Calendar

/-! ## Years and months -/

theorem daysInYear_cases (year : Nat) :
    (isLeap year = true ∧ daysInYear year = 366) ∨
      (isLeap year = false ∧ daysInYear year = 365) := by
  unfold daysInYear
  cases isLeap year with
  | true => exact .inl ⟨rfl, rfl⟩
  | false => exact .inr ⟨rfl, rfl⟩

theorem isLeap_iff {year : Nat} :
    isLeap year = true ↔ year % 4 = 0 ∧ (year % 100 ≠ 0 ∨ year % 400 = 0) := by
  simp [isLeap]

/-- One more multiple of `n` has been passed if the new number is one. -/
theorem div_succ_of_mod (k n : Nat) :
    (k + 1) / n = k / n + if (k + 1) % n = 0 then 1 else 0 := by
  rw [Nat.succ_div]
  simp only [Nat.dvd_iff_mod_eq_zero]

theorem daysBeforeYear_succ {year : Nat} (hy : 1 ≤ year) :
    daysBeforeYear (year + 1) = daysBeforeYear year + daysInYear year := by
  obtain ⟨k, rfl⟩ : ∃ k, year = k + 1 := ⟨year - 1, by omega⟩
  simp only [daysBeforeYear, Nat.add_sub_cancel]
  have hle : k / 100 ≤ k / 4 := Nat.div_le_div_left (by omega) (by omega)
  rw [div_succ_of_mod k 4, div_succ_of_mod k 100, div_succ_of_mod k 400]
  rcases daysInYear_cases (k + 1) with ⟨hleap, hdays⟩ | ⟨hleap, hdays⟩
  · rw [isLeap_iff] at hleap
    rw [hdays, if_pos hleap.1]
    split <;> split <;> omega
  · have hleap : ¬((k + 1) % 4 = 0 ∧ ((k + 1) % 100 ≠ 0 ∨ (k + 1) % 400 = 0)) := by
      rw [← isLeap_iff, hleap]
      exact Bool.false_ne_true
    rw [hdays]
    split <;> split <;> split <;> omega

theorem daysBeforeYear_mono {a b : Nat} (h : a ≤ b) : daysBeforeYear a ≤ daysBeforeYear b := by
  induction h with
  | refl => exact Nat.le_refl _
  | @step b _ ih =>
    cases b with
    | zero => exact ih
    | succ b =>
      have hsucc : daysBeforeYear (b + 2) = daysBeforeYear (b + 1) + daysInYear (b + 1) :=
        daysBeforeYear_succ (Nat.succ_pos b)
      exact Nat.le_trans ih (hsucc ▸ Nat.le_add_right ..)

theorem daysInMonth_le (year month : Nat) : daysInMonth year month ≤ 31 := by
  unfold daysInMonth
  repeat' split
  all_goals omega

theorem daysBeforeMonth_succ {year month : Nat} (hm : 1 ≤ month) :
    daysBeforeMonth year (month + 1) = daysBeforeMonth year month + daysInMonth year month := by
  obtain ⟨m, rfl⟩ : ∃ m, month = m + 1 := ⟨month - 1, by omega⟩
  rfl

theorem daysBeforeMonth_mono (year : Nat) {a b : Nat} (h : a ≤ b) :
    daysBeforeMonth year a ≤ daysBeforeMonth year b := by
  induction h with
  | refl => exact Nat.le_refl _
  | @step b _ ih =>
    cases b with
    | zero => exact ih
    | succ b =>
      have hsucc : daysBeforeMonth year (b + 2) =
          daysBeforeMonth year (b + 1) + daysInMonth year (b + 1) :=
        daysBeforeMonth_succ (Nat.succ_pos b)
      exact Nat.le_trans ih (hsucc ▸ Nat.le_add_right ..)

theorem daysBeforeMonth_end (year : Nat) : daysBeforeMonth year 13 = daysInYear year := by
  simp only [daysBeforeMonth, daysInMonth, daysInYear]
  cases isLeap year <;> rfl

/-! ## Dates by number -/

namespace Date

/-- A date whose month and day exist in its year, wherever the year is. -/
structure Fits (d : Date) : Prop where
  month : 1 ≤ d.month ∧ d.month ≤ 12
  day : 1 ≤ d.day ∧ d.day ≤ daysInMonth d.year d.month

theorem valid_iff_fits {d : Date} : d.Valid ↔ (1 ≤ d.year ∧ d.year ≤ 9999) ∧ d.Fits :=
  ⟨fun h => ⟨h.year, h.month, h.day⟩, fun h => ⟨h.1, h.2.month, h.2.day⟩⟩

/-- The days of the year before a date. -/
def yearDay (d : Date) : Nat := daysBeforeMonth d.year d.month + (d.day - 1)

theorem dayNumber_eq (d : Date) : d.dayNumber = daysBeforeYear d.year + d.yearDay :=
  Nat.add_assoc ..

variable {d e : Date}

theorem Fits.yearDay_lt_month (hd : d.Fits) :
    d.yearDay < daysBeforeMonth d.year (d.month + 1) := by
  rw [daysBeforeMonth_succ hd.month.1, yearDay]
  have := hd.day
  omega

theorem Fits.yearDay_lt (hd : d.Fits) : d.yearDay < daysInYear d.year := by
  rw [← daysBeforeMonth_end]
  exact Nat.lt_of_lt_of_le hd.yearDay_lt_month
    (daysBeforeMonth_mono d.year (Nat.succ_le_succ hd.month.2))

theorem Fits.dayNumber_lt (hd : d.Fits) (hy : 1 ≤ d.year) :
    d.dayNumber < daysBeforeYear (d.year + 1) := by
  rw [daysBeforeYear_succ hy, dayNumber_eq]
  exact Nat.add_lt_add_left hd.yearDay_lt _

theorem Fits.eq_of_yearDay_eq (hd : d.Fits) (he : e.Fits) (hy : d.year = e.year)
    (h : d.yearDay = e.yearDay) : d = e := by
  -- the month with the smaller number would be over before the other date
  have hm : d.month = e.month := by
    have hdlt := hd.yearDay_lt_month
    have helt := he.yearDay_lt_month
    rw [h, hy] at hdlt
    rcases Nat.lt_trichotomy d.month e.month with hlt | heq | hgt
    · have hmono := daysBeforeMonth_mono e.year (show d.month + 1 ≤ e.month from hlt)
      have hle : daysBeforeMonth e.year e.month ≤ e.yearDay := Nat.le_add_right ..
      omega
    · exact heq
    · have hmono := daysBeforeMonth_mono e.year (show e.month + 1 ≤ d.month from hgt)
      have hle : daysBeforeMonth e.year d.month ≤ d.yearDay := hy ▸ Nat.le_add_right ..
      omega
  have hday : d.day = e.day := by
    simp only [yearDay, hy, hm] at h
    have := hd.day
    have := he.day
    omega
  cases d
  cases e
  cases hy
  cases hm
  cases hday
  rfl

theorem eq_of_dayNumber_eq (hd : d.Valid) (he : e.Valid) (h : d.dayNumber = e.dayNumber) :
    d = e := by
  have hdf := (valid_iff_fits.1 hd).2
  have hef := (valid_iff_fits.1 he).2
  have hy : d.year = e.year := by
    have hdlt := hdf.dayNumber_lt hd.year.1
    have helt := hef.dayNumber_lt he.year.1
    have hdle : daysBeforeYear d.year ≤ d.dayNumber := dayNumber_eq d ▸ Nat.le_add_right ..
    have hele : daysBeforeYear e.year ≤ e.dayNumber := dayNumber_eq e ▸ Nat.le_add_right ..
    rcases Nat.lt_trichotomy d.year e.year with hlt | heq | hgt
    · have hmono := daysBeforeYear_mono (show d.year + 1 ≤ e.year from hlt)
      omega
    · exact heq
    · have hmono := daysBeforeYear_mono (show e.year + 1 ≤ d.year from hgt)
      omega
  rw [dayNumber_eq, dayNumber_eq, hy] at h
  exact hdf.eq_of_yearDay_eq hef hy (Nat.add_left_cancel h)

/-! ## Counting on from the start of a year -/

theorem inYear_spec {year month n fuel : Nat} (hm : 1 ≤ month) (hf : month + fuel = 12)
    (hn : daysBeforeMonth year month + n < daysInYear year) :
    (inYear year month n fuel).year = year ∧ (inYear year month n fuel).Fits ∧
      (inYear year month n fuel).yearDay = daysBeforeMonth year month + n := by
  induction fuel generalizing month n with
  | zero =>
    obtain rfl : month = 12 := hf
    rw [← daysBeforeMonth_end, daysBeforeMonth_succ (by omega)] at hn
    refine ⟨rfl, ⟨⟨hm, Nat.le_refl _⟩, Nat.succ_pos n, ?_⟩, rfl⟩
    exact Nat.lt_of_add_lt_add_left hn
  | succ fuel ih =>
    rw [inYear]
    split
    · rename_i hlt
      have hm' : month ≤ 12 := by omega
      exact ⟨rfl, ⟨⟨hm, hm'⟩, Nat.succ_pos n, hlt⟩, rfl⟩
    · rename_i hge
      have hsum : daysBeforeMonth year (month + 1) + (n - daysInMonth year month) =
          daysBeforeMonth year month + n := by
        rw [daysBeforeMonth_succ hm]
        omega
      rw [← hsum] at hn ⊢
      exact ih (by omega) (by omega) hn

/-- Counting on from the start of a year, at most to the ends of the neighbouring years. -/
theorem ofYearDay_spec {year : Nat} {n : Int} (hlow : -(daysInYear (year - 1) : Int) ≤ n)
    (hhigh : n < daysInYear year + daysInYear (year + 1)) (hy : 1 ≤ year) :
    (ofYearDay year n).Fits ∧ year - 1 ≤ (ofYearDay year n).year ∧
      (ofYearDay year n).year ≤ year + 1 ∧ (0 ≤ n → year ≤ (ofYearDay year n).year) ∧
      (1 ≤ (ofYearDay year n).year →
        ((ofYearDay year n).dayNumber : Int) = daysBeforeYear year + n) := by
  have hstart : ∀ y k, k < daysInYear y → (inYear y 1 k 11).year = y ∧ (inYear y 1 k 11).Fits ∧
      (inYear y 1 k 11).yearDay = k := by
    intro y k hk
    have hzero : daysBeforeMonth y 1 + k = k := Nat.zero_add k
    obtain ⟨hyear, hfits, hday⟩ :=
      @inYear_spec y 1 k 11 (Nat.le_refl 1) rfl (hzero.symm ▸ hk)
    exact ⟨hyear, hfits, hday.trans hzero⟩
  rw [ofYearDay]
  split
  · -- a day of the year before
    obtain ⟨hyear, hfits, hday⟩ := hstart (year - 1) (n + daysInYear (year - 1)).toNat (by omega)
    refine ⟨hfits, by omega, by omega, by omega, fun hpos => ?_⟩
    have hsucc := daysBeforeYear_succ (hyear ▸ hpos)
    rw [show year - 1 + 1 = year by omega] at hsucc
    rw [dayNumber_eq, hyear, hday, hsucc]
    omega
  · split
    · obtain ⟨hyear, hfits, hday⟩ := hstart year n.toNat (by omega)
      refine ⟨hfits, by omega, by omega, by omega, fun _ => ?_⟩
      rw [dayNumber_eq, hyear, hday]
      omega
    · -- a day of the year after
      obtain ⟨hyear, hfits, hday⟩ := hstart (year + 1) (n - daysInYear year).toNat (by omega)
      refine ⟨hfits, by omega, by omega, by omega, fun _ => ?_⟩
      rw [dayNumber_eq, hyear, hday, daysBeforeYear_succ hy]
      omega

/-! ## Weeks -/

/-- The number of the Thursday of the week of a date. -/
def thursday (d : Date) : Nat := d.dayNumber / 7 * 7 + 3

/-- A date is a day of a week of a year: the Thursday of its week is in the year, and it is the
Thursday of that number. -/
structure InWeek (d : Date) (year week day : Nat) : Prop where
  weekday : day = d.dayNumber % 7 + 1
  year_pos : 1 ≤ year
  bounds : daysBeforeYear year ≤ d.thursday ∧ d.thursday < daysBeforeYear (year + 1)
  week : week = (d.thursday - daysBeforeYear year) / 7 + 1

theorem firstMonday_cases (year : Nat) :
    (3 < newYearWeekday year ∧ newYearWeekday year < 7 ∧
      firstMonday year = 7 - (newYearWeekday year : Int)) ∨
    (newYearWeekday year ≤ 3 ∧ firstMonday year = -(newYearWeekday year : Int)) := by
  by_cases hw : 3 < newYearWeekday year
  · exact .inl ⟨hw, Nat.mod_lt _ (by omega), if_pos hw⟩
  · exact .inr ⟨by omega, if_neg hw⟩

/-- The first Monday is a Monday, at most three days away from the first of January. -/
theorem firstMonday_spec (year : Nat) : -3 ≤ firstMonday year ∧ firstMonday year ≤ 3 ∧
    (daysBeforeYear year + firstMonday year) % 7 = 0 := by
  have hw : newYearWeekday year = daysBeforeYear year % 7 := rfl
  rcases firstMonday_cases year with h | h <;> omega

theorem hasLongYear_iff {year : Nat} : hasLongYear year = true ↔
    firstMonday year = -3 ∨ (firstMonday year = -2 ∧ isLeap year = true) := by
  simp only [hasLongYear, Bool.or_eq_true, Bool.and_eq_true, beq_iff_eq]
  refine or_congr ?_ (and_congr_left' ?_) <;>
    rcases firstMonday_cases year with h | h <;> omega

theorem ofWeek?_ok_iff {year week day : Nat} : ofWeek? year week day = some d ↔
    (1 ≤ year ∧ year ≤ 9999) ∧
      (1 ≤ week ∧ week ≤ 53 ∧ (week = 53 → hasLongYear year = true)) ∧ (1 ≤ day ∧ day ≤ 7) ∧
      d.Valid ∧ ofYearDay year (firstMonday year + (week - 1) * 7 + (day - 1)) = d := by
  simp only [ofWeek?, Option.ite_none_left_eq_some, Option.ite_none_right_eq_some, not_or,
    Nat.not_lt, not_and, Bool.not_eq_true', Bool.not_eq_false, Option.some.injEq]
  refine and_congr_right fun _ => and_congr_right fun _ => and_congr_right fun _ => ?_
  exact and_congr_left fun hd => by rw [hd]

variable {year week day : Nat}

theorem dayNumber_lt_of_valid (hd : d.Valid) : d.dayNumber < daysBeforeYear 10000 :=
  Nat.lt_of_lt_of_le ((valid_iff_fits.1 hd).2.dayNumber_lt hd.year.1)
    (daysBeforeYear_mono (Nat.succ_le_succ hd.year.2))

/-- The last day of the calendar is a Friday, so no week of a later year starts in it. -/
theorem InWeek.year_le (hd : d.Valid) (hw : d.InWeek year week day) : year ≤ 9999 := by
  have hend : daysBeforeYear 10000 = 3652059 := by decide
  have hlast := dayNumber_lt_of_valid hd
  have hthursday := hw.bounds.1
  rw [thursday] at hthursday
  rcases Nat.lt_or_ge 9999 year with hgt | hle
  · have hmono := daysBeforeYear_mono (show 10000 ≤ year from hgt)
    omega
  · exact hle

theorem le_daysInYear (year : Nat) : 365 ≤ daysInYear year := by
  rcases daysInYear_cases year with ⟨-, h⟩ | ⟨-, h⟩ <;> omega

/-- Counting from the first Monday arrives at the day of the week. -/
theorem inWeek_of_dayNumber (hyear : 1 ≤ year)
    (hweek : 1 ≤ week ∧ week ≤ 53 ∧ (week = 53 → hasLongYear year = true))
    (hday : 1 ≤ day ∧ day ≤ 7)
    (hd : (d.dayNumber : Int) =
      daysBeforeYear year + (firstMonday year + (week - 1) * 7 + (day - 1))) :
    d.InWeek year week day := by
  obtain ⟨hlow, hhigh, hmonday⟩ := firstMonday_spec year
  have hthursday : (d.thursday : Int) =
      daysBeforeYear year + firstMonday year + (week - 1) * 7 + 3 := by
    rw [thursday]
    omega
  refine ⟨by omega, hyear, ⟨by omega, ?_⟩, by omega⟩
  rw [daysBeforeYear_succ hyear]
  by_cases h53 : week = 53
  · rcases hasLongYear_iff.1 (hweek.2.2 h53) with h | ⟨h, hleap⟩
    · have := le_daysInYear year
      omega
    · rw [daysInYear, if_pos hleap]
      omega
  · have := le_daysInYear year
    omega

/-- The day of a week is the one that counting from the first Monday arrives at. -/
theorem InWeek.dayNumber_eq (hw : d.InWeek year week day) : (d.dayNumber : Int) =
    daysBeforeYear year + (firstMonday year + (week - 1) * 7 + (day - 1)) := by
  obtain ⟨hlow, hhigh, hmonday⟩ := firstMonday_spec year
  obtain ⟨hweekday, -, ⟨hthursday, -⟩, hweek⟩ := hw
  rw [thursday] at hthursday hweek
  omega

theorem InWeek.week_range (hw : d.InWeek year week day) :
    1 ≤ week ∧ week ≤ 53 ∧ (week = 53 → hasLongYear year = true) := by
  obtain ⟨hlow, hhigh, hmonday⟩ := firstMonday_spec year
  obtain ⟨-, hyear, ⟨hthursday, hnext⟩, hweek⟩ := hw
  rw [daysBeforeYear_succ hyear] at hnext
  rw [hasLongYear_iff]
  rw [thursday] at hthursday hnext hweek
  rcases daysInYear_cases year with ⟨hleap, hdays⟩ | ⟨-, hdays⟩
  · exact ⟨by omega, by omega, fun h53 => by simp only [hleap, and_true]; omega⟩
  · exact ⟨by omega, by omega, fun h53 => .inl (by omega)⟩

/-- A week date is read exactly if the calendar has the day, in its own year or the next one or the
one before. -/
theorem ofWeek?_eq_some_iff :
    ofWeek? year week day = some d ↔ d.Valid ∧ d.InWeek year week day := by
  rw [ofWeek?_ok_iff]
  obtain ⟨hlow, hhigh, -⟩ := firstMonday_spec year
  have hbefore := le_daysInYear (year - 1)
  have hthis := le_daysInYear year
  have hafter := le_daysInYear (year + 1)
  constructor
  · rintro ⟨hyear, hweek, hday, hd, hcount⟩
    have hspec := ofYearDay_spec (n := firstMonday year + (week - 1) * 7 + (day - 1))
      (by omega) (by omega) hyear.1
    rw [hcount] at hspec
    exact ⟨hd, inWeek_of_dayNumber hyear.1 hweek hday (hspec.2.2.2.2 hd.year.1)⟩
  · rintro ⟨hd, hw⟩
    have hweek := hw.week_range
    have hday : 1 ≤ day ∧ day ≤ 7 := by
      have := hw.weekday
      omega
    have hnumber := hw.dayNumber_eq
    have hyear : 1 ≤ year ∧ year ≤ 9999 := ⟨hw.year_pos, hw.year_le hd⟩
    obtain ⟨hfits, hlast, hnext, hfirst, hcount⟩ :=
      ofYearDay_spec (n := firstMonday year + (week - 1) * 7 + (day - 1))
        (by omega) (by omega) hyear.1
    generalize ofYearDay year (firstMonday year + (week - 1) * 7 + (day - 1)) = e at *
    have hpos : 1 ≤ e.year := by
      rcases Nat.lt_or_ge 1 year with hyear' | hyear'
      · omega
      · -- the days of the first year are counted from zero
        obtain rfl : year = 1 := by omega
        have hzero : daysBeforeYear 1 = 0 := rfl
        exact hfirst (by omega)
    have hsame : e.dayNumber = d.dayNumber := by
      have := hcount hpos
      omega
    have he : e.Valid := by
      refine valid_iff_fits.2 ⟨⟨hpos, ?_⟩, hfits⟩
      have hend := dayNumber_lt_of_valid hd
      rcases Nat.lt_or_ge 9999 e.year with hgt | hle
      · have hmono := daysBeforeYear_mono (show 10000 ≤ e.year from hgt)
        have hle : daysBeforeYear e.year ≤ e.dayNumber := dayNumber_eq e ▸ Nat.le_add_right ..
        omega
      · exact hle
    exact ⟨hyear, hweek, hday, hd, eq_of_dayNumber_eq he hd hsame⟩

end Date

end ShapeCheck.Calendar
