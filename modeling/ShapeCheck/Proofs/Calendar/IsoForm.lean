import Mathlib.Data.List.Basic
import Mathlib.Data.List.TakeWhile
import ShapeCheck.Proofs.Calendar.Bytes

/-
  The extended ISO form, with dashes in the date and colons in the time. A date whose fields are
  digits is read as what they write (`Iso.moment?_of_dateText`), and where a dash follows the year,
  nothing else is read (`Iso.extended_of_moment?`). Behind one character of any kind is the time
  (`Iso.withTime?_cons`). It is cut at the first sign (`Iso.time?_unsigned`, `Iso.time?_signed`),
  and the clock before it has two digits in each field (`Iso.clock?_of_clockText`,
  `Iso.pairs_of_clock?`).
-/

namespace ShapeCheck.Calendar

open ShapeCheck.Text

namespace Iso

/-- Two digits of ASCII. -/
structure Pair (t : List Char) : Prop where
  length : t.length = 2
  digits : ∀ c ∈ t, c.isDigit = true

variable {t u : List Char} {bs : List Byte} {stop : Byte}

theorem Pair.exists_eq (ht : Pair t) : ∃ a b, t = [a, b] ∧ a.isDigit = true ∧ b.isDigit = true := by
  obtain ⟨a, b, rfl⟩ := List.length_eq_two.1 ht.length
  obtain ⟨ha, hb⟩ := List.forall_mem_cons.1 ht.digits
  exact ⟨a, b, rfl, ha, hb b (List.mem_singleton_self b)⟩

/-- The bytes of two digits, and what they write. -/
theorem Pair.bytes (ht : Pair t) (u : List Char) : ∃ a b, utf8 (t ++ u) = a :: b :: utf8 u ∧
    number? [a, b] = some (numeral t) ∧ isDigit a = true ∧ isDigit b = true := by
  have hnumber := number?_bytes ht.digits
  obtain ⟨a, b, rfl, ha, hb⟩ := ht.exists_eq
  refine ⟨byte a, byte b, ?_, hnumber, ?_, ?_⟩
  · rw [utf8_append, utf8_digits ht.digits]
    rfl
  · rwa [isDigit_byte (lt_of_isDigit ha)]
  · rwa [isDigit_byte (lt_of_isDigit hb)]

/-! ## The date -/

/-- Every form of a date starts with the four digits of the year. -/
theorem year_of_date? {d : Date} (h : date? bs = some d) : ∃ a b c e rest,
    bs = a :: b :: c :: e :: rest ∧ ∀ x ∈ [a, b, c, e], isDigit x = true := by
  have hyear : ∀ {year : List Byte} {f : Nat → Except Misuse Date},
      (do f (← formed (number? year)) : Except Misuse Date) = .ok d →
        ∀ x ∈ year, isDigit x = true := by
    intro year f h
    obtain ⟨n, hn, -⟩ := formed_bind_ok_iff.1 h
    exact digits_of_number? hn
  have h := toOption_eq_some_iff.1 h
  unfold date calendarDate weekDate at h
  repeat' split at h
  all_goals first
    | exact ⟨_, _, _, _, _, rfl, hyear h⟩
    | contradiction

/-- A text that is read starts with the four digits of the year. -/
theorem year_of_moment? {s : List Char} {m : Moment} (h : moment? (utf8 s) = some m) :
    ∃ t u, s = t ++ u ∧ t.length = 4 ∧ ∀ c ∈ t, c.isDigit = true := by
  rw [moment?_eq] at h
  obtain ⟨n, -, h⟩ := Option.bind_eq_some_iff.1 h
  obtain ⟨d, hd, -⟩ := Option.bind_eq_some_iff.1 h
  obtain ⟨a, b, c, e, rest, htake, hyear⟩ := year_of_date? hd
  have hbytes : [a, b, c, e] ++ (rest ++ (utf8 s).drop n) = utf8 s := by
    have hsplit := List.take_append_drop n (utf8 s)
    rw [htake] at hsplit
    exact hsplit
  obtain ⟨t, u, hs, hlen, ht, -⟩ := exists_digits_of_utf8 hbytes.symm hyear
  exact ⟨t, u, hs, hlen, ht⟩

variable {a b c e x y : Byte}

/-- With a dash after the year and no W after that, a date takes ten bytes, or all seven. -/
theorem dateLength?_dashed (hx : x ≠ byte 'W') :
    dateLength? (a :: b :: c :: e :: byte '-' :: x :: bs) =
      if bs.length = 0 then none else if bs.length = 1 then some 7 else some 10 := by
  have hlen : (a :: b :: c :: e :: byte '-' :: x :: bs).length = bs.length + 6 := rfl
  unfold dateLength?
  dsimp only
  rw [hlen]
  by_cases h0 : bs.length = 0
  · rw [if_pos (by omega), if_pos h0]
  · rw [if_neg (by omega), if_neg h0]
    by_cases h1 : bs.length = 1
    · rw [if_pos (by omega), if_pos h1]
    · rw [if_neg (by omega), if_neg h1]
      refine (if_pos rfl).trans (if_neg ?_)
      exact hx

/-- A text with a dash after the year and no W after that is read as year, month and day, with a
dash between any two of them. -/
theorem moment?_extended (hx : x ≠ byte 'W') {f g : Byte} (rest : List Byte) :
    moment? (a :: b :: c :: e :: byte '-' :: x :: y :: byte '-' :: f :: g :: rest) =
      (calendarDate? [a, b, c, e] [x, y] [f, g]).bind (withTime? · rest) := by
  have hdate : date? [a, b, c, e, byte '-', x, y, byte '-', f, g] =
      calendarDate? [a, b, c, e] [x, y] [f, g] := by
    unfold date? date calendarDate?
    dsimp only
    rw [if_pos rfl, if_neg hx, if_pos rfl]
  rw [moment?_eq, dateLength?_dashed hx]
  exact congrArg (Option.bind · (withTime? · rest)) hdate

theorem digits_of_moment? {m : Moment} (hx : x ≠ byte 'W')
    (h : moment? (a :: b :: c :: e :: byte '-' :: x :: bs) = some m) :
    ∃ y f g rest, bs = y :: byte '-' :: f :: g :: rest ∧
      ∀ d ∈ [x, y, f, g], isDigit d = true := by
  rw [moment?_eq, dateLength?_dashed hx] at h
  obtain ⟨n, hn, h⟩ := Option.bind_eq_some_iff.1 h
  obtain ⟨d, hdate, -⟩ := Option.bind_eq_some_iff.1 h
  have hd := toOption_eq_some_iff.1 hdate
  have hW : byte '-' ≠ byte 'W' := by decide
  unfold date at hd
  -- only with ten bytes is there a form for the date
  rcases bs with _ | ⟨y, _ | ⟨z, _ | ⟨f, _ | ⟨g, rest⟩⟩⟩⟩
  · contradiction
  · cases hn
    simp only [List.take_succ_cons, List.take_zero, if_neg hW] at hd
    contradiction
  · cases hn
    simp only [List.take_succ_cons, List.take_nil, if_neg hW, if_neg hx] at hd
    contradiction
  · cases hn
    contradiction
  · cases hn
    simp only [List.take_succ_cons, List.take_zero, if_neg hx, ite_true] at hd
    split at hd
    swap
    · contradiction
    rename_i hz
    subst hz
    refine ⟨y, f, g, rest, rfl, ?_⟩
    obtain ⟨k, -, hd⟩ := formed_bind_ok_iff.1 hd
    obtain ⟨m, hm, hd⟩ := formed_bind_ok_iff.1 hd
    obtain ⟨n, hn, -⟩ := formed_bind_ok_iff.1 hd
    show ∀ d ∈ [x, y] ++ [f, g], isDigit d = true
    exact List.forall_mem_append.2 ⟨digits_of_number? hm, digits_of_number? hn⟩

/-! ## Digits of a text -/

/-- A text does not start with a digit. -/
def Stops (u : List Char) : Prop := ∀ c v, u = c :: v → c.isDigit = false

theorem stops_nil : Stops [] := fun _ _ h => nomatch h

theorem stops_cons {c : Char} (hc : c.isDigit = false) (u : List Char) : Stops (c :: u) := by
  intro d v h
  cases h
  exact hc

/-- One or two characters before a stop are two digits if two bytes are digits. -/
theorem pair_of_digits (ht : t.length = 1 ∨ t.length = 2) (hu : Stops u)
    (h : utf8 (t ++ u) = x :: y :: bs) (hx : isDigit x = true) (hy : isDigit y = true) :
    Pair t ∧ bs = utf8 u := by
  have hxy : ∀ b ∈ [x, y], isDigit b = true :=
    List.forall_mem_cons.2 ⟨hx, List.forall_mem_singleton.2 hy⟩
  obtain ⟨t', u', hsplit, hlen, hdigits, hrest⟩ :=
    exists_digits_of_utf8 (h : _ = [x, y] ++ bs) hxy
  rcases ht with ht | ht
  · -- the second digit would be what stops the field
    obtain ⟨a, rfl⟩ := List.length_eq_one_iff.1 ht
    obtain ⟨c, d, rfl⟩ := List.length_eq_two.1 hlen
    obtain ⟨rfl, hrest'⟩ := List.cons.inj hsplit
    have hd := hu d u' hrest'
    rw [hdigits d (List.mem_cons_of_mem _ (List.mem_singleton_self d))] at hd
    contradiction
  · obtain ⟨rfl, rfl⟩ := List.append_inj hsplit (ht.trans hlen.symm)
    exact ⟨⟨ht, hdigits⟩, hrest⟩

/-- A text that does not start with a certain sign of ASCII does not start with its byte either. -/
theorem utf8_cons_ne {c d : Char} {s : List Char} (hd : d.toNat < 128) (hne : c ≠ d) :
    ∃ x xs, utf8 (c :: s) = x :: xs ∧ x ≠ byte d := by
  rw [utf8_cons]
  rcases encode_cases c with ⟨hc, he⟩ | ⟨b, bs, he, -, hwide⟩
  · exact ⟨_, _, by rw [he, List.singleton_append], fun h => hne (byte_inj hc hd h)⟩
  · refine ⟨b, bs ++ utf8 s, by rw [he, List.cons_append], ?_⟩
    rintro rfl
    have := hwide _ (List.mem_cons_self ..)
    rw [toNat_byte hd] at this
    omega

/-- If a year, a month and a day are read as a date with dashes, their fields are complete. -/
theorem extended_of_moment? {yr mo dy tail : List Char} {m : Moment} (hyr : yr.length = 4)
    (hmo : mo.length = 1 ∨ mo.length = 2) (hW : 'W' ∉ mo) (hdy : dy.length = 1 ∨ dy.length = 2)
    (htail : Stops tail)
    (h : moment? (utf8 (yr ++ '-' :: (mo ++ '-' :: (dy ++ tail)))) = some m) :
    (∀ c ∈ yr, c.isDigit = true) ∧ Pair mo ∧ Pair dy := by
  obtain ⟨t, u, hsplit, hlen, hdigits⟩ := year_of_moment? h
  obtain ⟨rfl, rfl⟩ := List.append_inj hsplit (hyr.trans hlen.symm)
  refine ⟨hdigits, ?_⟩
  rw [utf8_append, utf8_digits hdigits, utf8_cons_ascii (by decide)] at h
  obtain ⟨a, b, c, e, rfl⟩ := List.length_eq_four.1 hyr
  -- the month starts with a byte that is no W
  obtain ⟨v, w, rfl⟩ := List.exists_cons_of_length_pos (by omega : 0 < mo.length)
  obtain ⟨x, xs, hx, hne⟩ := utf8_cons_ne (s := w ++ '-' :: (dy ++ tail)) (by decide)
    (ne_of_mem_of_not_mem (List.mem_cons_self ..) hW)
  rw [← List.cons_append] at hx
  rw [hx] at h
  obtain ⟨y, f, g, rest, rfl, hall⟩ := digits_of_moment? hne h
  simp only [List.forall_mem_cons] at hall
  obtain ⟨hxd, hyd, hfd, hgd, -⟩ := hall
  obtain ⟨hpair, hrest⟩ := pair_of_digits hmo (stops_cons (by decide) _) hx hxd hyd
  rw [utf8_cons_ascii (by decide)] at hrest
  obtain ⟨hpair', -⟩ := pair_of_digits hdy htail (List.cons.inj hrest).2.symm hfd hgd
  exact ⟨hpair, hpair'⟩

theorem calendarDate?_of_numbers {year month day : List Byte} {yr mo dy : Nat}
    (hyr : number? year = some yr) (hmo : number? month = some mo) (hdy : number? day = some dy) :
    calendarDate? year month day =
      if (⟨yr, mo, dy⟩ : Date).Valid then some ⟨yr, mo, dy⟩ else none := by
  rw [calendarDate?_eq, hyr, hmo, hdy]
  rfl

/-- A year, a month and a day in digits, with dashes between them, are read as the date that they
write. -/
theorem moment?_of_digits {yr mo dy : List Char} (hlen : yr.length = 4)
    (hyr : ∀ c ∈ yr, c.isDigit = true) (hmo : Pair mo) (hdy : Pair dy) (tail : List Char) :
    moment? (utf8 (yr ++ '-' :: (mo ++ '-' :: (dy ++ tail)))) =
      if (⟨numeral yr, numeral mo, numeral dy⟩ : Date).Valid then
        withTime? ⟨numeral yr, numeral mo, numeral dy⟩ (utf8 tail)
      else none := by
  obtain ⟨x, y, hxy, hmonth, hx, -⟩ := hmo.bytes ('-' :: (dy ++ tail))
  obtain ⟨f, g, hfg, hday, -, -⟩ := hdy.bytes tail
  have hyear := number?_bytes hyr
  have hxW : x ≠ byte 'W' := by
    rintro rfl
    contradiction
  rw [utf8_append, utf8_digits hyr, utf8_cons_ascii (by decide), hxy, utf8_cons_ascii (by decide),
    hfg]
  obtain ⟨a, b, c, e, rfl⟩ := List.length_eq_four.1 hlen
  refine (moment?_extended hxW (utf8 tail)).trans ?_
  have hdate : calendarDate? [byte a, byte b, byte c, byte e] [x, y] [f, g] = _ :=
    calendarDate?_of_numbers hyear hmonth hday
  rw [hdate]
  split <;> rfl

/-! ## The separator -/

/-- After the date one character of any kind is skipped. -/
theorem withTime?_cons (d : Date) (c : Char) (s : List Char) :
    withTime? d (utf8 (c :: s)) = (time? (utf8 s)).map fun t => ⟨d, t.clock, t.offset⟩ := by
  have hskip : ∀ b bs, charLength b = bs.length + 1 →
      withTime? d (b :: bs ++ utf8 s) = (time? (utf8 s)).map fun t => ⟨d, t.clock, t.offset⟩ := by
    intro b bs hb
    have hdrop : (bs ++ utf8 s).drop (charLength b - 1) = utf8 s := by
      rw [hb, Nat.add_sub_cancel, List.drop_left]
    rw [List.cons_append, withTime?, hdrop]
    cases time? (utf8 s) <;> rfl
  rw [utf8_cons]
  rcases encode_cases c with ⟨hc, he⟩ | ⟨b, bs, he, hb, -⟩
  · have hone : charLength (byte c) = 1 := by
      rw [byte, Nat.toUInt8, charLength_ofNat (by omega), if_pos hc]
    rw [he]
    exact hskip _ [] hone
  · rw [he]
    exact hskip b bs hb

/-! ## The clock -/

theorem utf8_ne_nil (c : Char) (s : List Char) : utf8 (c :: s) ≠ [] := by
  rw [utf8_cons]
  rcases encode_cases c with ⟨-, he⟩ | ⟨b, bs, he, -⟩
  · rw [he]
    exact nofun
  · rw [he]
    exact nofun

/-- Ends a clock reading with what follows the seconds. -/
def ending? (t : Clock) (bs : List Byte) (stop : Byte) : Option Reading :=
  (next? bs stop true).bind fun
    | .done leftOver => some ⟨t, leftOver⟩
    | .fraction bs => withFraction? t bs stop
    | .field bs => withFraction? t bs stop

theorem twoDigits?_pair (ht : Pair t) (u : List Char) :
    twoDigits? (utf8 (t ++ u)) = some (numeral t, utf8 u) := by
  obtain ⟨a, b, hab, hnumber, -, -⟩ := ht.bytes u
  rw [hab, twoDigits?, hnumber]
  rfl

theorem digits_of_twoDigits? {p : Nat × List Byte} (h : twoDigits? bs = some p) :
    ∃ x y rest, bs = x :: y :: rest ∧ isDigit x = true ∧ isDigit y = true := by
  unfold twoDigits? at h
  split at h
  · rename_i x y rest
    obtain ⟨n, hn, -⟩ := Option.map_eq_some_iff.1 h
    have hxy := digits_of_number? hn
    exact ⟨x, y, rest, rfl, hxy x (List.mem_cons_self ..),
      hxy y (List.mem_cons_of_mem _ (List.mem_singleton_self y))⟩
  · contradiction

theorem pair_of_twoDigits? {p : Nat × List Byte} (ht : t.length = 1 ∨ t.length = 2) (hu : Stops u)
    (h : twoDigits? (utf8 (t ++ u)) = some p) : Pair t := by
  obtain ⟨x, y, rest, hbytes, hx, hy⟩ := digits_of_twoDigits? h
  exact (pair_of_digits ht hu hbytes hx hy).1

theorem next?_colon {u : List Char} (hu : u ≠ []) :
    next? (utf8 (':' :: u)) stop true = some (.field (utf8 u)) := by
  obtain ⟨c, s, rfl⟩ := List.exists_cons_of_ne_nil hu
  obtain ⟨b, bs, hb⟩ := List.exists_cons_of_ne_nil (utf8_ne_nil c s)
  rw [utf8_cons_ascii (by decide), hb]
  rfl

theorem hasColon (u : List Char) : decide ((utf8 (':' :: u)).headD stop = byte ':') = true := by
  rw [utf8_cons_ascii (by decide)]
  exact decide_eq_true rfl

variable {ho mi se e : List Char}

/-- Hours, minutes and seconds in two digits each, with colons between them. -/
theorem clock?_of_pairs (hho : Pair ho) (hmi : Pair mi) (hse : Pair se) :
    clock? (utf8 (ho ++ ':' :: (mi ++ ':' :: (se ++ e)))) stop =
      ending? { hour := numeral ho, minute := numeral mi, second := numeral se } (utf8 e) stop := by
  have hmi' : mi ++ ':' :: (se ++ e) ≠ [] := List.append_ne_nil_of_right_ne_nil _ nofun
  have hse' : se ++ e ≠ [] := by
    obtain ⟨a, b, rfl, -⟩ := hse.exists_eq
    exact nofun
  simp only [clock?, twoDigits?_pair hho, hasColon, next?_colon hmi', twoDigits?_pair hmi,
    next?_colon hse', twoDigits?_pair hse, Option.bind_eq_bind, Option.bind_some]
  rfl

/-- Hours and minutes alone. -/
theorem clock?_of_hour_minute (hho : Pair ho) (hmi : Pair mi) :
    clock? (utf8 (ho ++ ':' :: mi)) stop =
      some ⟨{ hour := numeral ho, minute := numeral mi }, stop != 0⟩ := by
  have hmi' : mi ≠ [] := by
    obtain ⟨a, b, rfl, -⟩ := hmi.exists_eq
    exact nofun
  have hread : twoDigits? (utf8 mi) = some (numeral mi, []) := by
    have := twoDigits?_pair hmi []
    rwa [List.append_nil] at this
  simp only [clock?, twoDigits?_pair hho, hasColon, next?_colon hmi', hread, Option.bind_eq_bind,
    Option.bind_some]
  rfl

/-- A clock that is read starts with a digit. -/
theorem digit_of_clock? {s : List Char} {r : Reading} (h : clock? (utf8 s) stop = some r) :
    ∃ c v, s = c :: v ∧ c.isDigit = true := by
  obtain ⟨p, hp, -⟩ := Option.bind_eq_some_iff.1 h
  obtain ⟨x, y, rest, hbytes, hx, -⟩ := digits_of_twoDigits? hp
  obtain ⟨c, v, rfl, hc, -⟩ := exists_digit_of_utf8 hbytes hx
  exact ⟨c, v, rfl, hc⟩

/-- A clock with colons that is read has two digits in each field. -/
theorem pairs_of_clock? {r : Reading} (hho : ho.length = 1 ∨ ho.length = 2)
    (hmi : mi.length = 1 ∨ mi.length = 2) (hse : se.length = 1 ∨ se.length = 2) (he : Stops e)
    (h : clock? (utf8 (ho ++ ':' :: (mi ++ ':' :: (se ++ e)))) stop = some r) :
    Pair ho ∧ Pair mi ∧ Pair se := by
  have hmi' : mi ++ ':' :: (se ++ e) ≠ [] := List.append_ne_nil_of_right_ne_nil _ nofun
  have hse' : se ++ e ≠ [] := by
    obtain ⟨c, t, rfl⟩ := List.exists_cons_of_length_pos (by omega : 0 < se.length)
    exact nofun
  unfold clock? at h
  obtain ⟨p, hp, h₁⟩ := Option.bind_eq_some_iff.1 h
  have hho := pair_of_twoDigits? hho (stops_cons (by decide) _) hp
  rw [twoDigits?_pair hho] at hp
  cases hp
  simp only [hasColon, next?_colon hmi', Option.bind_eq_bind, Option.bind_some] at h₁
  obtain ⟨p, hp, h₂⟩ := Option.bind_eq_some_iff.1 h₁
  have hmi := pair_of_twoDigits? hmi (stops_cons (by decide) _) hp
  rw [twoDigits?_pair hmi] at hp
  cases hp
  simp only [next?_colon hse', Option.bind_some] at h₂
  obtain ⟨p, hp, -⟩ := Option.bind_eq_some_iff.1 h₂
  exact ⟨hho, hmi, pair_of_twoDigits? hse he hp⟩

/-- The fraction of a second, with its point, if there is one. -/
inductive FractionText : Nat → List Char → Prop where
  | absent : FractionText 0 []
  | present {t : List Char} (pos : 1 ≤ t.length) (le : t.length ≤ 6)
      (digits : ∀ c ∈ t, c.isDigit = true) :
      FractionText (numeral t * pow10 (6 - t.length)) ('.' :: t)

variable {n : Nat} {c : Clock}

theorem ending?_fraction (hc : c.micro = 0) (he : FractionText n e) :
    ending? c (utf8 e) stop = some ⟨{ c with micro := n }, stop != 0⟩ := by
  cases he with
  | absent =>
    rw [← hc]
    rfl
  | @present t hpos hle hdigits =>
    have hmin : min 6 (t.map byte).length = t.length := by
      rw [List.length_map]
      omega
    have hfraction : fraction? (t.map byte) stop =
        some (numeral t * pow10 (6 - t.length), stop != 0) := by
      have htake : (t.map byte).take t.length = t.map byte :=
        List.take_of_length_le (Nat.le_of_eq (List.length_map ..))
      have hdrop : (t.map byte).drop t.length = [] :=
        List.drop_of_length_le (Nat.le_of_eq (List.length_map ..))
      simp only [fraction?, hmin, htake, hdrop, number?_bytes hdigits, Option.bind_eq_bind,
        Option.bind_some]
      rfl
    obtain ⟨d, u, rfl⟩ := List.exists_cons_of_length_pos hpos
    rw [utf8_cons_ascii (by decide), utf8_digits hdigits]
    show withFraction? c ((d :: u).map byte) stop = _
    rw [withFraction?, hfraction]
    rfl

/-- A small z after a fraction is left over. -/
theorem leftOver_of_fraction? {p : Nat × Bool} (ht : t.length ≤ 6)
    (h : fraction? (t.map byte ++ [byte 'z']) stop = some p) : p.2 = true := by
  have hlen : (t.map byte ++ [byte 'z']).length = t.length + 1 := by
    rw [List.length_append, List.length_map, List.length_singleton]
  have hz : isDigit (byte 'z') = false := rfl
  unfold fraction? at h
  obtain ⟨n, hn, h⟩ := Option.bind_eq_some_iff.1 h
  cases h
  rcases Nat.lt_or_eq_of_le ht with hlt | heq
  · -- the z would be one of the digits of the fraction
    have hk : (t.map byte ++ [byte 'z']).length ≤ min 6 (t.map byte ++ [byte 'z']).length := by
      omega
    rw [List.take_of_length_le hk] at hn
    have := digits_of_number? hn (byte 'z') (List.mem_append_right _ (List.mem_singleton_self _))
    rw [hz] at this
    contradiction
  · have hk : min 6 (t.map byte ++ [byte 'z']).length = (t.map byte).length := by
      rw [hlen, List.length_map]
      omega
    dsimp only
    rw [hk, List.drop_left]
    rfl

/-- A small z after the seconds is left over. -/
theorem leftOver_of_ending? {r : Reading} (he : FractionText n e)
    (h : ending? c (utf8 (e ++ ['z'])) stop = some r) : r.leftOver = true := by
  cases he with
  | absent =>
    cases h
    rfl
  | @present t hpos hle hdigits =>
    obtain ⟨d, u, rfl⟩ := List.exists_cons_of_length_pos hpos
    rw [List.cons_append, utf8_cons_ascii (by decide), utf8_append, utf8_digits hdigits] at h
    obtain ⟨p, hp, rfl⟩ := Option.map_eq_some_iff.1
      (h : withFraction? c ((d :: u).map byte ++ [byte 'z']) stop = some r)
    exact leftOver_of_fraction? hle hp

/-! ## Texts in full -/

/-- A date that is written in full: four digits, two digits and two digits between dashes. -/
inductive DateText : Date → List Char → Prop where
  | intro {yr mo dy : List Char} (length : yr.length = 4) (year : ∀ c ∈ yr, c.isDigit = true)
      (month : Pair mo) (day : Pair dy) :
      DateText ⟨numeral yr, numeral mo, numeral dy⟩ (yr ++ '-' :: (mo ++ '-' :: dy))

/-- A time of day that is written in full: two digits for each field, colons between them, and at
most six digits for the fraction. -/
inductive ClockText : Clock → List Char → Prop where
  | intro {ho mi se e : List Char} {n : Nat} (hour : Pair ho) (minute : Pair mi) (second : Pair se)
      (fraction : FractionText n e) :
      ClockText ⟨numeral ho, numeral mi, numeral se, n⟩ (ho ++ ':' :: (mi ++ ':' :: (se ++ e)))

variable {d : Date} {s : List Char}

theorem moment?_of_dateText (hd : DateText d s) (tail : List Char) :
    moment? (utf8 (s ++ tail)) = if d.Valid then withTime? d (utf8 tail) else none := by
  obtain ⟨hlen, hyear, hmonth, hday⟩ := hd
  simp only [List.append_assoc, List.cons_append]
  exact moment?_of_digits hlen hyear hmonth hday tail

theorem clock?_of_clockText (hc : ClockText c s) : clock? (utf8 s) stop = some ⟨c, stop != 0⟩ := by
  obtain ⟨hho, hmi, hse, he⟩ := hc
  rw [clock?_of_pairs hho hmi hse]
  exact ending?_fraction rfl he

/-! ## Offsets -/

/-- A text without a character that introduces an offset. -/
def Unsigned (s : List Char) : Prop := ∀ c ∈ s, c ∉ ['+', '-', 'Z']

theorem ascii_of_sign : ∀ c ∈ ['+', '-', 'Z'], c.toNat < 128 :=
  List.forall_mem_cons.2 ⟨by decide, List.forall_mem_cons.2 ⟨by decide,
    List.forall_mem_singleton.2 (by decide)⟩⟩

theorem isSign_iff {b : Byte} : isSign b = true ↔ ∃ c ∈ ['+', '-', 'Z'], b = byte c := by
  simp only [isSign, Bool.or_eq_true, beq_iff_eq, List.mem_cons, List.not_mem_nil, or_false,
    exists_eq_or_imp, exists_eq_left, or_assoc]

theorem not_isSign_of_unsigned (hs : Unsigned s) : ∀ b ∈ utf8 s, (!isSign b) = true := by
  intro b hb
  rw [Bool.not_eq_true', Bool.eq_false_iff]
  intro hsign
  obtain ⟨sign, hmem, rfl⟩ := isSign_iff.1 hsign
  have hascii := ascii_of_sign sign hmem
  obtain ⟨x, hx, hb⟩ := List.mem_flatMap.1 hb
  rcases encode_cases x with ⟨hlt, he⟩ | ⟨y, ys, he, -, hwide⟩
  · rw [he, List.mem_singleton] at hb
    rw [byte_inj hascii hlt hb] at hmem
    exact hs x hx hmem
  · rw [he] at hb
    have := hwide _ hb
    rw [toNat_byte hascii] at this
    omega

/-- Without a sign there is no offset, and nothing may be left over. -/
theorem time?_unsigned (hs : Unsigned s) : time? (utf8 s) =
    (clock? (utf8 s) 0).bind fun r =>
      if r.leftOver ∨ ¬ r.clock.Valid then none else some ⟨r.clock, none⟩ := by
  have hdrop : (utf8 s).dropWhile (!isSign ·) = [] :=
    List.dropWhile_eq_nil_iff.2 (not_isSign_of_unsigned hs)
  rw [time?_eq, hdrop]

/-- The first sign ends the clock and introduces the offset. -/
theorem time?_signed {sign : Char} (hs : Unsigned s) (hsign : sign ∈ ['+', '-', 'Z'])
    (u : List Char) : time? (utf8 (s ++ sign :: u)) =
      (clock? (utf8 s) (byte sign)).bind fun r => (offsetAfter? (byte sign) (utf8 u)).bind fun o =>
        if ¬ r.clock.Valid then none else some ⟨r.clock, some o⟩ := by
  have hascii := ascii_of_sign sign hsign
  have hstop : (!isSign (byte sign)) = false := by
    rw [isSign_iff.2 ⟨sign, hsign, rfl⟩]
    rfl
  have hbytes : utf8 (s ++ sign :: u) = utf8 s ++ byte sign :: utf8 u := by
    rw [utf8_append, utf8_cons_ascii hascii]
  have hdrop : (utf8 (s ++ sign :: u)).dropWhile (!isSign ·) = byte sign :: utf8 u := by
    rw [hbytes, List.dropWhile_append_of_pos (not_isSign_of_unsigned hs), List.dropWhile_cons,
      hstop]
    rfl
  have htake : (utf8 (s ++ sign :: u)).takeWhile (!isSign ·) = utf8 s := by
    rw [hbytes, List.takeWhile_append_of_pos (not_isSign_of_unsigned hs), List.takeWhile_cons,
      hstop]
    exact List.append_nil _
  rw [time?_eq, hdrop]
  dsimp only
  rw [htake]

/-- Characters of a class that no sign is in are no signs. -/
theorem unsigned_of_class {p : Char → Bool} (hp : ['+', '-', 'Z'].any p = false)
    (ht : ∀ x ∈ t, p x = true) : Unsigned t := by
  intro x hx hmem
  exact List.any_eq_false.1 hp x hmem (ht x hx)

theorem unsigned_of_digits (ht : ∀ c ∈ t, c.isDigit = true) : Unsigned t :=
  unsigned_of_class (by decide) ht

theorem unsigned_append {u v : List Char} : Unsigned (u ++ v) ↔ Unsigned u ∧ Unsigned v :=
  List.forall_mem_append

theorem unsigned_cons {x : Char} : Unsigned (x :: s) ↔ x ∉ ['+', '-', 'Z'] ∧ Unsigned s :=
  List.forall_mem_cons

theorem unsigned_of_fractionText (he : FractionText n e) : Unsigned e := by
  cases he with
  | absent => exact nofun
  | present _ _ hdigits => exact unsigned_cons.2 ⟨by decide, unsigned_of_digits hdigits⟩

theorem unsigned_of_clockText (hc : ClockText c s) : Unsigned s := by
  obtain ⟨hho, hmi, hse, he⟩ := hc
  simp only [unsigned_append, unsigned_cons]
  exact ⟨unsigned_of_digits hho.digits, by decide, unsigned_of_digits hmi.digits, by decide,
    unsigned_of_digits hse.digits, unsigned_of_fractionText he⟩

end Iso

end ShapeCheck.Calendar
