import ShapeCheck.Proofs.Calendar.Failure

/-
  Whatever is read as a moment exists. A layout checks the date and the time that its fields give
  and knows no offset (`Layout.read?_valid`). The ISO forms have three kinds of dates, each of which
  exists once it is read (`Iso.date?_valid`), and an offset that stays below a day
  (`Iso.offset?_lt`). So every text that is read gives a day of the calendar, a time of that day
  and, if there is one, an offset of less than a day (`readMoment?_valid`).
-/

namespace ShapeCheck.Calendar

/-! ## Layouts -/

namespace Layout

theorem offset_enter (p : Piece) (m : Moment) (text : List Char) :
    (p.enter m text).offset = m.offset := by
  cases p <;> rfl

/-- No piece of a layout is an offset. -/
theorem offset_of_scan {l : Layout} {m m' : Moment} {s r : List Char}
    (h : l.scan m s = some (m', r)) : m'.offset = m.offset := by
  induction l generalizing m s with
  | nil =>
    cases h
    rfl
  | cons p l ih =>
    obtain ⟨u, -, hu⟩ := List.exists_of_findSome?_eq_some h
    rw [ih hu, offset_enter]

theorem read?_eq_some {l : Layout} {s : List Char} {m : Moment} (h : l.read? s = some m) :
    l.scan ⟨⟨1900, 1, 1⟩, {}, none⟩ s = some (m, []) ∧ m.date.Valid ∧ m.clock.Valid := by
  rw [read?_eq] at h
  split at h
  · rename_i m' hscan
    obtain ⟨hvalid, hm⟩ := Option.ite_none_right_eq_some.1 h
    cases hm
    exact ⟨hscan, hvalid⟩
  · contradiction

theorem read?_valid {l : Layout} {s : List Char} {m : Moment} (h : l.read? s = some m) :
    m.Valid ∧ m.offset = none := by
  obtain ⟨hscan, hdate, hclock⟩ := read?_eq_some h
  have hoffset : m.offset = none := offset_of_scan hscan
  refine ⟨⟨hdate, hclock, fun o ho => ?_⟩, hoffset⟩
  rw [hoffset] at ho
  contradiction

end Layout

/-! ## ISO forms -/

theorem Clock.valid_midnight : ({} : Clock).Valid := by decide

namespace Iso

theorem date_valid_of_inRange {d e : Date}
    (h : inRange (if d.Valid then some d else none) = .ok e) :
    e.Valid := by
  obtain ⟨hvalid, he⟩ := Option.ite_none_right_eq_some.1 (inRange_ok_iff.1 h)
  cases he
  exact hvalid

theorem calendarDate_valid {year month day : List Byte} {d : Date}
    (h : calendarDate year month day = .ok d) : d.Valid := by
  obtain ⟨y, -, h⟩ := formed_bind_ok_iff.1 h
  obtain ⟨m, -, h⟩ := formed_bind_ok_iff.1 h
  obtain ⟨n, -, h⟩ := formed_bind_ok_iff.1 h
  exact date_valid_of_inRange h

theorem weekDate_valid {year week day : List Byte} {d : Date}
    (h : weekDate year week day = .ok d) : d.Valid := by
  obtain ⟨y, -, h⟩ := formed_bind_ok_iff.1 h
  obtain ⟨w, -, h⟩ := formed_bind_ok_iff.1 h
  obtain ⟨n, -, h⟩ := formed_bind_ok_iff.1 h
  exact (Date.ofWeek?_eq_some_iff.1 (inRange_ok_iff.1 h)).1

/-- What is read as a date is a calendar date or a week date that exists. -/
theorem date?_valid {bs : List Byte} {d : Date} (h : date? bs = some d) : d.Valid := by
  have h := toOption_eq_some_iff.1 h
  unfold date at h
  repeat' split at h
  all_goals first
    | exact weekDate_valid h
    | exact calendarDate_valid h
    | contradiction

theorem offset?_lt {negative : Bool} {t : Clock} {o : Int} (h : offset? negative t = some o) :
    o.natAbs < dayMicros := by
  rw [offset?_eq] at h
  split at h
  · cases h
    decide
  · split at h
    · rename_i hlt
      cases h
      split <;> omega
    · contradiction

theorem offsetAfter?_lt {sign : Byte} {rest : List Byte} {o : Int}
    (h : offsetAfter? sign rest = some o) : o.natAbs < dayMicros := by
  rw [offsetAfter?_eq] at h
  split at h
  · split at h
    · cases h
      decide
    · contradiction
  · simp only [Option.bind_eq_some_iff, Option.ite_none_left_eq_some] at h
    obtain ⟨r, -, o', ho, -, h⟩ := h
    cases h
    exact offset?_lt ho

theorem time?_valid {bs : List Byte} {t : Time} (h : time? bs = some t) :
    t.clock.Valid ∧ ∀ o ∈ t.offset, o.natAbs < dayMicros := by
  rw [time?_eq] at h
  split at h
  · simp only [Option.bind_eq_some_iff, Option.ite_none_left_eq_some, not_or,
      Decidable.not_not] at h
    obtain ⟨r, -, ⟨-, hvalid⟩, h⟩ := h
    cases h
    exact ⟨hvalid, nofun⟩
  · simp only [Option.bind_eq_some_iff, Option.ite_none_left_eq_some, Decidable.not_not] at h
    obtain ⟨r, -, o, ho, hvalid, h⟩ := h
    cases h
    refine ⟨hvalid, fun o' ho' => ?_⟩
    cases ho'
    exact offsetAfter?_lt ho

theorem moment?_valid {bs : List Byte} {m : Moment} (h : moment? bs = some m) : m.Valid := by
  simp only [moment?_eq, Option.bind_eq_some_iff] at h
  obtain ⟨n, -, d, hd, h⟩ := h
  unfold withTime? at h
  split at h
  · cases h
    exact ⟨date?_valid hd, Clock.valid_midnight, nofun⟩
  · obtain ⟨t, ht, h⟩ := Option.bind_eq_some_iff.1 h
    cases h
    exact ⟨date?_valid hd, (time?_valid ht).1, (time?_valid ht).2⟩

end Iso

theorem isoMoment?_valid {s : List Char} {m : Moment} (h : isoMoment? s = some m) : m.Valid :=
  Iso.moment?_valid h

theorem readMoment?_eq_some {text : String} {m : Moment} (h : readMoment? text = some m) :
    (∃ l ∈ Layout.all, l.read? (Text.strip text.toList) = some m) ∨
      isoMoment? (Text.strip text.toList) = some m := by
  rw [readMoment?_eq] at h
  split at h
  · contradiction
  · rcases Option.or_eq_some_iff.1 h with h | ⟨-, h⟩
    · exact .inl (List.exists_of_findSome?_eq_some h)
    · exact .inr h

/-- Everything that is read exists: a day of the calendar, a time of that day and an offset of less
than a day, and the layouts never give an offset. This holds of each layout and of the ISO forms
alone, and a week date is read as the one day that has its year, its week and its weekday, also if
that day is in a neighbouring year. -/
theorem readMoment?_valid :
    (∀ text m, readMoment? text = some m → m.Valid) ∧
    (∀ l ∈ Layout.all, ∀ s m, l.read? s = some m → m.Valid ∧ m.offset = none) ∧
    (∀ s m, isoMoment? s = some m → m.Valid) ∧
    ∀ year week day d, Date.ofWeek? year week day = some d ↔ d.Valid ∧ d.InWeek year week day := by
  refine ⟨fun text m h => ?_, fun l _ s m => Layout.read?_valid, fun s m => isoMoment?_valid,
    fun year week day d => Date.ofWeek?_eq_some_iff⟩
  rcases readMoment?_eq_some h with ⟨l, -, h⟩ | h
  · exact (Layout.read?_valid h).1
  · exact isoMoment?_valid h

/-- The Friday of the last week of 2020 is New Year's Day of 2021. -/
theorem readMoment?_valid_newYear :
    ∃ m, readMoment? " 2020W535T235959,9999999-23:59:59.75\n" = some m ∧
      m.date = ⟨2021, 1, 1⟩ ∧ m.Valid ∧ m.date.InWeek 2020 53 5 := by
  obtain ⟨hall, -, -, hweek⟩ := readMoment?_valid
  have hnone : Layout.all.findSome?
      (·.read? (Text.strip " 2020W535T235959,9999999-23:59:59.75\n".toList)) = none := by
    decide +kernel
  have hiso : isoMoment? (Text.strip " 2020W535T235959,9999999-23:59:59.75\n".toList) =
      some ⟨⟨2021, 1, 1⟩, ⟨23, 59, 59, 999999⟩, some (-86399750000)⟩ := by
    rw [isoMoment?_eq]
    decide +kernel
  have hread : readMoment? " 2020W535T235959,9999999-23:59:59.75\n" =
      some ⟨⟨2021, 1, 1⟩, ⟨23, 59, 59, 999999⟩, some (-86399750000)⟩ := by
    rw [readMoment?_eq, hnone, hiso]
    decide +kernel
  exact ⟨_, hread, rfl, hall _ _ hread, ((hweek 2020 53 5 _).1 (by decide)).2⟩

end ShapeCheck.Calendar
