import ShapeCheck.Proofs.Calendar.IsoForm
import ShapeCheck.Proofs.Calendar.Validity

/-
  The texts that both a layout and an ISO form read. The ISO forms start with the year, so a layout
  with slashes reads none of them. Of the texts that a layout with dashes reads, the ISO forms read
  those whose fields are written in full and whose date is followed by one character only
  (`DashedText.dateText`, `clockText_of_clock?`), and they read the same fields
  (`Layout.read?_agrees`). Only the offset differs: a capital Z at the end is a mark for a layout
  and the offset zero for an ISO form, and a small z is nothing that an ISO form reads
  (`time?_zulu`).
-/

namespace ShapeCheck.Calendar

open ShapeCheck.Text

variable {s t u z : List Char} {d : Date} {c : Clock} {n : Nat} {m : Moment}

/-! ## Fields in full -/

theorem not_mem_of_class {p : Char → Bool} {y : Char} (hy : p y = false)
    (hs : ∀ x ∈ s, p x = true) : y ∉ s := by
  intro hmem
  rw [hs y hmem] at hy
  contradiction

/-- A day has one or two characters, and none is a letter. -/
theorem narrow_of_day (ht : Piece.Short t ∨ ∃ x, t = [' ', x] ∧ isDecimalDigit x = true) :
    (t.length = 1 ∨ t.length = 2) ∧ 'Z' ∉ t := by
  rcases ht with ht | ⟨x, rfl, hx⟩
  · exact ⟨ht.length, not_mem_of_class (by decide) ht.digits⟩
  · refine ⟨.inr rfl, ?_⟩
    rw [List.mem_cons, not_or]
    exact ⟨by decide, not_mem_of_class (by decide) (List.forall_mem_singleton.2 hx)⟩

/-- A date with dashes that an ISO form reads is written in full. -/
theorem DashedText.dateText {tail : List Char} (hd : DashedText d s) (htail : Iso.Stops tail)
    (h : Iso.moment? (Iso.utf8 (s ++ tail)) = some m) : Iso.DateText d s := by
  obtain ⟨hlen, hyear, hmonth, hday⟩ := hd
  rename_i yr mo dy
  have hW : 'W' ∉ mo := not_mem_of_class (by decide) hmonth.digits
  simp only [List.append_assoc, List.cons_append] at h
  obtain ⟨hyr, hmo, hpair⟩ := Iso.extended_of_moment? hlen hmonth.length hW
    (narrow_of_day hday).1 htail h
  have hfilter : dy.filter (· != ' ') = dy := by
    rw [List.filter_eq_self]
    intro x hx
    rw [bne_iff_ne]
    exact ne_of_mem_of_not_mem hx (not_mem_of_class (by decide) hpair.digits)
  rw [hfilter]
  exact ⟨hlen, hyr, hmo, hpair⟩

theorem stops_fraction {e : List Char} (he : Iso.FractionText n e) (hz : Iso.Stops z) :
    Iso.Stops (e ++ z) := by
  cases he with
  | absent => exact hz
  | present => exact Iso.stops_cons (by decide) _

theorem ColonText.clockText {e : List Char} {stop : Iso.Byte} {r : Iso.Reading}
    (hc : ColonText c s) (he : Iso.FractionText n e) (hz : Iso.Stops z)
    (h : Iso.clock? (Iso.utf8 (s ++ (e ++ z))) stop = some r) :
    Iso.ClockText { c with micro := n } (s ++ e) ∧
      Iso.ending? c (Iso.utf8 (e ++ z)) stop = some r := by
  obtain ⟨hhour, hminute, hsecond⟩ := hc
  simp only [List.append_assoc, List.cons_append] at h ⊢
  obtain ⟨hho, hmi, hse⟩ := Iso.pairs_of_clock? hhour.length hminute.length hsecond.length
    (stops_fraction he hz) h
  rw [Iso.clock?_of_pairs hho hmi hse] at h
  exact ⟨⟨hho, hmi, hse, he⟩, h⟩

/-! ## The time -/

theorem ColonText.unsigned (hc : ColonText c s) : Iso.Unsigned s := by
  have hfield : ∀ {t}, Piece.Short t → Iso.Unsigned t := fun ht =>
    Iso.unsigned_of_class (by decide) ht.digits
  obtain ⟨hhour, hminute, hsecond⟩ := hc
  simp only [Iso.unsigned_append, Iso.unsigned_cons]
  exact ⟨hfield hhour, by decide, hfield hminute, by decide, hfield hsecond⟩

variable {e : List Char} {stop : Iso.Byte} {r : Iso.Reading}

/-- If a clock is read behind blanks, there are no blanks and all its fields are in full. -/
theorem clockText_of_clock? (hu : ∀ x ∈ u, isBlank x = true) (hc : ColonText c s)
    (he : Iso.FractionText n e) (hz : Iso.Stops z)
    (h : Iso.clock? (Iso.utf8 (u ++ (s ++ (e ++ z)))) stop = some r) :
    u = [] ∧ Iso.ClockText { c with micro := n } (s ++ e) ∧
      Iso.ending? c (Iso.utf8 (e ++ z)) stop = some r := by
  cases u with
  | nil => exact ⟨rfl, hc.clockText he hz h⟩
  | cons x u =>
    obtain ⟨y, v, hsplit, hy⟩ := Iso.digit_of_clock? h
    obtain ⟨rfl, -⟩ := List.cons.inj hsplit
    have := not_isBlank_of_isDigit hy
    rw [hu x (List.mem_cons_self ..)] at this
    contradiction

theorem reading_of_clock? (hu : ∀ x ∈ u, isBlank x = true) (hc : ColonText c s)
    (he : Iso.FractionText n e) (h : Iso.clock? (Iso.utf8 (u ++ (s ++ e))) stop = some r) :
    r = ⟨{ c with micro := n }, stop != 0⟩ := by
  have hend : Iso.clock? (Iso.utf8 (u ++ (s ++ (e ++ [])))) stop = some r := by
    rwa [List.append_nil]
  obtain ⟨rfl, hfull, -⟩ := clockText_of_clock? hu hc he Iso.stops_nil hend
  exact Option.some.inj (h.symm.trans (Iso.clock?_of_clockText hfull))

theorem unsigned_timed (hu : ∀ x ∈ u, isBlank x = true) (hc : ColonText c s)
    (he : Iso.FractionText n e) : Iso.Unsigned (u ++ (s ++ e)) :=
  Iso.unsigned_append.2 ⟨Iso.unsigned_of_class (by decide) hu,
    Iso.unsigned_append.2 ⟨hc.unsigned, Iso.unsigned_of_fractionText he⟩⟩

/-- What may follow the time: nothing, or a Z in either letter case. -/
def zulus : List (List Char) := [[], ['Z'], ['z']]

/-- A time that is read has the fields that a layout takes, and what may follow it is a capital Z,
which is the offset zero. -/
theorem time?_zulu {w : Time} (hu : ∀ x ∈ u, isBlank x = true) (hc : ColonText c s)
    (he : Iso.FractionText n e) (hz : z ∈ zulus)
    (h : Iso.time? (Iso.utf8 (u ++ (s ++ (e ++ spellOutZulu z)))) = some w) :
    z ≠ ['z'] ∧ w = ⟨{ c with micro := n }, if z = [] then none else some 0⟩ := by
  have hunsigned := unsigned_timed hu hc he
  simp only [zulus, List.mem_cons, List.not_mem_nil, or_false] at hz
  rcases hz with rfl | rfl | rfl
  · have hnil : spellOutZulu [] = [] := rfl
    rw [hnil, List.append_nil, Iso.time?_unsigned hunsigned] at h
    obtain ⟨r, hr, h⟩ := Option.bind_eq_some_iff.1 h
    rw [reading_of_clock? hu hc he hr] at h
    obtain ⟨-, h⟩ := Option.ite_none_left_eq_some.1 h
    exact ⟨nofun, (Option.some.inj h).symm⟩
  · -- the Z is written as an offset, which the time ends at
    have hsplit : u ++ (s ++ (e ++ spellOutZulu ['Z'])) =
        u ++ (s ++ e) ++ '+' :: "00:00".toList := by
      simp only [List.append_assoc]
      rfl
    rw [hsplit, Iso.time?_signed hunsigned (by decide)] at h
    obtain ⟨r, hr, h⟩ := Option.bind_eq_some_iff.1 h
    have hzero : Iso.offsetAfter? (Iso.byte '+') (Iso.utf8 "00:00".toList) = some 0 := by decide
    rw [reading_of_clock? hu hc he hr, hzero, Option.bind_some] at h
    obtain ⟨-, h⟩ := Option.ite_none_left_eq_some.1 h
    exact ⟨by decide, (Option.some.inj h).symm⟩
  · -- a small z is no offset, and it may not be left over
    have hsmall : spellOutZulu ['z'] = ['z'] := rfl
    have hz : Iso.Unsigned (u ++ (s ++ (e ++ ['z']))) := by
      simp only [← List.append_assoc]
      rw [List.append_assoc u]
      exact Iso.unsigned_append.2 ⟨hunsigned, Iso.unsigned_cons.2 ⟨by decide, nofun⟩⟩
    rw [hsmall, Iso.time?_unsigned hz] at h
    obtain ⟨r, hr, h⟩ := Option.bind_eq_some_iff.1 h
    obtain ⟨-, -, hend⟩ := clockText_of_clock? hu hc he (Iso.stops_cons (by decide) _) hr
    rw [Iso.leftOver_of_ending? he hend, if_pos (.inl rfl)] at h
    contradiction

/-! ## The text -/

theorem spellOutZulu_append (s t : List Char) :
    spellOutZulu (s ++ t) = spellOutZulu s ++ spellOutZulu t := List.flatMap_append

theorem spellOutZulu_cons {x : Char} (hx : x ≠ 'Z') (s : List Char) :
    spellOutZulu (x :: s) = x :: spellOutZulu s := by
  rw [spellOutZulu, List.flatMap_cons, if_neg hx]
  rfl

theorem spellOutZulu_eq_self (hs : 'Z' ∉ s) : spellOutZulu s = s := by
  induction s with
  | nil => rfl
  | cons x s ih =>
    rw [spellOutZulu_cons (ne_of_mem_of_not_mem (List.mem_cons_self ..) hs),
      ih (List.not_mem_of_not_mem_cons hs)]

theorem not_mem_dashes {yr mo dy : List Char} (hyr : 'Z' ∉ yr) (hmo : 'Z' ∉ mo) (hdy : 'Z' ∉ dy) :
    'Z' ∉ yr ++ '-' :: (mo ++ '-' :: dy) := by
  simp only [List.mem_append, List.mem_cons, not_or]
  exact ⟨hyr, by decide, hmo, by decide, hdy⟩

theorem DashedText.not_mem (hd : DashedText d s) : 'Z' ∉ s := by
  obtain ⟨-, hyear, hmonth, hday⟩ := hd
  exact not_mem_dashes (not_mem_of_class (by decide) hyear)
    (not_mem_of_class (by decide) hmonth.digits) (narrow_of_day hday).2

/-- A date that nothing follows. -/
theorem isoMoment?_dashed (hd : DashedText d s) (h : isoMoment? s = some m) :
    m = ⟨d, {}, none⟩ := by
  rw [isoMoment?_eq, spellOutZulu_eq_self hd.not_mem] at h
  have hend : Iso.moment? (Iso.utf8 (s ++ [])) = some m := by rwa [List.append_nil]
  rw [Iso.moment?_of_dateText (hd.dateText Iso.stops_nil hend)] at hend
  obtain ⟨-, h⟩ := Option.ite_none_right_eq_some.1 hend
  exact (Option.some.inj h).symm

/-- A date with a time behind one character and blanks. -/
theorem isoMoment?_timed {x : Char} (hd : DashedText d t) (hx : x ≠ 'Z')
    (hstop : x.isDigit = false) (hu : ∀ x ∈ u, isBlank x = true) (hc : ColonText c s)
    (he : Iso.FractionText n e) (hz : z ∈ zulus)
    (h : isoMoment? (t ++ x :: (u ++ (s ++ (e ++ z)))) = some m) :
    z ≠ ['z'] ∧ m = ⟨d, { c with micro := n }, if z = [] then none else some 0⟩ := by
  -- a Z can stand at the end only
  have hspell : spellOutZulu (t ++ x :: (u ++ (s ++ (e ++ z)))) =
      t ++ x :: (u ++ (s ++ (e ++ spellOutZulu z))) := by
    have hplain : spellOutZulu (u ++ (s ++ e)) = u ++ (s ++ e) :=
      spellOutZulu_eq_self fun hmem => unsigned_timed hu hc he _ hmem (by decide)
    rw [spellOutZulu_append, spellOutZulu_eq_self hd.not_mem, spellOutZulu_cons hx]
    simp only [← List.append_assoc]
    rw [List.append_assoc u, spellOutZulu_append, hplain]
  rw [isoMoment?_eq, hspell] at h
  rw [Iso.moment?_of_dateText (hd.dateText (Iso.stops_cons hstop _) h),
    Option.ite_none_right_eq_some, Iso.withTime?_cons] at h
  obtain ⟨w, hw, rfl⟩ := Option.map_eq_some_iff.1 h.2
  obtain ⟨hne, rfl⟩ := time?_zulu hu hc he hz hw
  exact ⟨hne, rfl⟩

/-! ## Layouts -/

namespace Layout

variable {l : Layout} {p : Piece} {x : Moment × List Char}

/-- What separates the date from the time. -/
def separators : Layout := [.blanks, .mark 'T']

/-- What may follow the seconds. -/
def fractions : List Layout := [[], [.mark '.', .fraction]]

/-- What may end a layout. -/
def endings : List Layout := [[], [.mark 'Z']]

/-- Most layouts start with the year: it is a date alone, or a date and a time with an optional
fraction and an optional Z. The others start with a field and a slash. -/
theorem cases_of_mem : ∀ l ∈ all, l = dashed ∨
    (∃ p ∈ separators, ∃ q ∈ fractions, ∃ r ∈ endings, l = dashed ++ p :: (clock ++ (q ++ r))) ∨
    ∃ p ∈ [Piece.month, .day], l = p :: .mark '/' :: l.drop 2 := by
  decide

theorem getLast?_timed : ∀ p ∈ separators, ∀ q ∈ fractions, ∀ r ∈ endings,
    (dashed ++ p :: (clock ++ (q ++ r))).getLast? = some (.mark 'Z') ↔ r ≠ [] := by
  decide

/-- The date is separated by a T or by blanks. -/
theorem scan_separator (hp : p ∈ separators) (h : scan m (p :: l) s = some x) :
    ∃ y u v, s = y :: (u ++ v) ∧ y ≠ 'Z' ∧ y.isDigit = false ∧ (∀ b ∈ u, isBlank b = true) ∧
      scan m l v = some x := by
  obtain ⟨t, v, rfl, ht, hscan⟩ := scan_cons h
  simp only [separators, List.mem_cons, List.not_mem_nil, or_false] at hp
  rcases hp with rfl | rfl
  · obtain ⟨hne, hblanks⟩ := Pattern.matches_many1_one.1 ht
    obtain ⟨y, u, rfl⟩ := List.exists_cons_of_ne_nil hne
    obtain ⟨hy, hu⟩ := List.forall_mem_cons.1 hblanks
    refine ⟨y, u, v, rfl, ?_, ?_, hu, hscan⟩
    · rintro rfl
      contradiction
    · rw [Bool.eq_false_iff]
      intro hdigit
      rw [not_isBlank_of_isDigit hdigit] at hy
      contradiction
  · obtain ⟨y, rfl, hy⟩ := Piece.matches_mark ht
    rcases eq_or_eq_of_toLower (by decide) hy with rfl | rfl
    · exact ⟨_, [], v, rfl, by decide, by decide, nofun, hscan⟩
    · exact ⟨_, [], v, rfl, by decide, by decide, nofun, hscan⟩

theorem scan_fraction {q : Layout} (hq : q ∈ fractions) (hm : m.clock.micro = 0)
    (h : scan m (q ++ l) s = some x) : ∃ e n u, s = e ++ u ∧
      Iso.FractionText n e ∧ scan { m with clock.micro := n } l u = some x := by
  simp only [fractions, List.mem_cons, List.not_mem_nil, or_false] at hq
  rcases hq with rfl | rfl
  · refine ⟨[], 0, s, rfl, .absent, ?_⟩
    rwa [← hm]
  · obtain ⟨s, rfl, h₁⟩ := scan_sign (by decide) h
    obtain ⟨t, u, rfl, ht, hscan⟩ := scan_cons h₁
    obtain ⟨hlow, hhigh, hdigits⟩ := Piece.matches_fraction ht
    exact ⟨_, _, u, rfl, .present hlow hhigh hdigits, hscan⟩

theorem scan_zulu {r : Layout} {m' : Moment} (hr : r ∈ endings)
    (h : scan m r s = some (m', [])) : m' = m ∧ s ∈ zulus ∧ (r = [] ↔ s = []) := by
  simp only [endings, List.mem_cons, List.not_mem_nil, or_false] at hr
  rcases hr with rfl | rfl
  · cases h
    exact ⟨rfl, List.mem_cons_self .., iff_of_true rfl rfl⟩
  · obtain ⟨t, u, rfl, ht, hscan⟩ := scan_cons h
    obtain ⟨y, rfl, hy⟩ := Piece.matches_mark ht
    cases hscan
    refine ⟨rfl, ?_, iff_of_false nofun nofun⟩
    rcases eq_or_eq_of_toLower (by decide) hy with rfl | rfl <;> decide

theorem narrow_of_field (hp : p ∈ [Piece.month, .day]) (ht : p.pattern.Matches t) :
    (t.length = 1 ∨ t.length = 2) ∧ 'Z' ∉ t := by
  simp only [List.mem_cons, List.not_mem_nil, or_false] at hp
  rcases hp with rfl | rfl
  · exact narrow_of_day (.inl (Piece.short_of_month ht))
  · exact narrow_of_day (Piece.short_or_blank_of_day ht)

/-- A slash behind one or two characters is among the first four. -/
theorem slash_of_length_four {t' v u' : List Char} (hlen : t.length = 1 ∨ t.length = 2)
    (h : t ++ '/' :: v = t' ++ u') (hlen' : t'.length = 4) : '/' ∈ t' := by
  have htake : t' = (t ++ '/' :: v).take 4 := by
    rw [h, ← hlen', List.take_left]
  rw [htake]
  rcases hlen with hlen | hlen
  · obtain ⟨w, rfl⟩ := List.length_eq_one_iff.1 hlen
    exact List.mem_cons_of_mem _ (List.mem_cons_self ..)
  · obtain ⟨w, w', rfl⟩ := List.length_eq_two.1 hlen
    exact List.mem_cons_of_mem _ (List.mem_cons_of_mem _ (List.mem_cons_self ..))

/-- A text with a slash after its first field is no ISO form, which starts with four digits. -/
theorem isoMoment?_eq_none_of_slash {v : List Char} (hlen : t.length = 1 ∨ t.length = 2)
    (hZ : 'Z' ∉ t) : isoMoment? (t ++ '/' :: v) = none := by
  rw [Option.eq_none_iff_forall_not_mem]
  intro m' hiso
  rw [Option.mem_def, isoMoment?_eq, spellOutZulu_append, spellOutZulu_eq_self hZ,
    spellOutZulu_cons (by decide)] at hiso
  obtain ⟨t', u', hsplit, hlen', ht'⟩ := Iso.year_of_moment? hiso
  exact not_mem_of_class (by decide) ht' (slash_of_length_four hlen hsplit hlen')

theorem isoMoment?_slashed {m' : Moment} (hp : p ∈ [Piece.month, .day])
    (h : scan m (p :: .mark '/' :: l) s = some x) : isoMoment? s ≠ some m' := by
  obtain ⟨t, u, rfl, ht, h₁⟩ := scan_cons h
  obtain ⟨v, rfl, -⟩ := scan_sign (by decide) h₁
  obtain ⟨hlen, hZ⟩ := narrow_of_field hp ht
  rw [isoMoment?_eq_none_of_slash hlen hZ]
  exact nofun

/-- What a layout and an ISO form both read. -/
theorem read?_agrees {m' : Moment} (hl : l ∈ all) (h : l.read? s = some m)
    (hiso : isoMoment? s = some m') : m.offset = none ∧
      m' = ⟨m.date, m.clock, if l.getLast? = some (.mark 'Z') then some 0 else none⟩ ∧
      (l.getLast? = some (.mark 'Z') → 'Z' ∈ s) := by
  obtain ⟨hscan, -⟩ := read?_eq_some h
  obtain ⟨-, hoffset⟩ := read?_valid h
  refine ⟨hoffset, ?_⟩
  rcases cases_of_mem l hl with rfl | ⟨p, hp, q, hq, r, hr, rfl⟩ | ⟨p, hp, hslash⟩
  · obtain ⟨d, t, u, rfl, hd, hend⟩ := scan_dashed (l := []) hscan
    cases hend
    rw [List.append_nil] at hiso
    rw [isoMoment?_dashed hd hiso]
    exact ⟨rfl, fun hz => absurd hz (by decide)⟩
  · obtain ⟨d, t, s₁, rfl, hd, h₁⟩ := scan_dashed hscan
    obtain ⟨y, u, s₂, rfl, hy, hstop, hu, h₂⟩ := scan_separator hp h₁
    obtain ⟨c, v, s₃, rfl, hc, h₃⟩ := scan_clock h₂
    obtain ⟨e, n, z, rfl, he, h₄⟩ := scan_fraction hq rfl h₃
    obtain ⟨rfl, hz, hempty⟩ := scan_zulu hr h₄
    obtain ⟨hne, rfl⟩ := isoMoment?_timed hd hy hstop hu hc he hz hiso
    simp only [getLast?_timed p hp q hq r hr, ne_eq, ite_not, hempty, true_and]
    intro hnonempty
    have hcapital : z = ['Z'] := by
      simp only [zulus, List.mem_cons, List.not_mem_nil, or_false] at hz
      rcases hz with rfl | rfl | rfl
      · contradiction
      · rfl
      · contradiction
    simp only [hcapital, List.mem_append, List.mem_cons, true_or, or_true]
  · rw [hslash] at hscan
    exact absurd hiso (isoMoment?_slashed hp hscan)

end Layout

/-! ## Reading -/

/-- A text that an ISO form reads is read, by the layouts if one of them reads it. -/
theorem readMoment?_of_isoMoment? {text : String} (h : isoMoment? (strip text.toList) = some m) :
    readMoment? text =
      (Layout.all.findSome? (·.read? (strip text.toList))).or (some m) := by
  have hempty : isoMoment? [] = none := by
    rw [isoMoment?_eq]
    rfl
  have hne : (strip text.toList).isEmpty = false := by
    rw [List.isEmpty_eq_false_iff]
    intro hnil
    rw [hnil, hempty] at h
    contradiction
  rw [readMoment?_eq, hne, h]
  rfl

/-- Where a layout and the ISO forms both read a text, without the blanks at its ends, they read the
same date and the same time of day. The layout gives no offset, and the ISO form gives none either,
unless the layout ends in a Z, which the ISO form reads as the offset zero. Any two layouts that
read the text agree then, so that the text is read as what the layout gives. -/
theorem layout_agrees_with_isoForm (text : String) (l : Layout) (m m' : Moment)
    (hl : l ∈ Layout.all) (h : l.read? (strip text.toList) = some m)
    (hiso : isoMoment? (strip text.toList) = some m') :
    m.date = m'.date ∧ m.clock = m'.clock ∧ m.offset = none ∧
      m'.offset = (if l.getLast? = some (.mark 'Z') then some 0 else none) ∧
      readMoment? text = some m := by
  obtain ⟨hoffset, rfl, -⟩ := Layout.read?_agrees hl h hiso
  refine ⟨rfl, rfl, hoffset, rfl, ?_⟩
  have hsome : (Layout.all.findSome? (·.read? (strip text.toList))).isSome := by
    rw [List.findSome?_isSome_iff]
    exact ⟨l, hl, by rw [h]; rfl⟩
  obtain ⟨m₁, hfirst⟩ := Option.isSome_iff_exists.1 hsome
  obtain ⟨l₁, hl₁, hread⟩ := List.exists_of_findSome?_eq_some hfirst
  obtain ⟨hoffset₁, hsame, -⟩ := Layout.read?_agrees hl₁ hread hiso
  have hm : m₁ = m := by
    obtain ⟨hdate, hclock, -⟩ := Moment.mk.inj hsame
    cases m
    cases m₁
    cases hdate
    cases hclock
    cases hoffset
    cases hoffset₁
    rfl
  rw [readMoment?_of_isoMoment? hiso, hfirst, hm]
  rfl

theorem layout_agrees_with_isoForm_leapDay :
    ∃ l ∈ Layout.all, ∃ m m', l.read? (strip "\x0b2024-02-29t23:59:59.05Z ".toList) = some m ∧
      isoMoment? (strip "\x0b2024-02-29t23:59:59.05Z ".toList) = some m' ∧
      m.date = m'.date ∧ m.clock = m'.clock ∧ m.offset = none ∧ m'.offset = some 0 ∧
      readMoment? "\x0b2024-02-29t23:59:59.05Z " = some m := by
  let l : Layout := Layout.dashed ++ .mark 'T' :: Layout.clock ++ [.mark '.', .fraction, .mark 'Z']
  have hl : l ∈ Layout.all := by decide
  have hread : l.read? (strip "\x0b2024-02-29t23:59:59.05Z ".toList) =
      some ⟨⟨2024, 2, 29⟩, ⟨23, 59, 59, 50000⟩, none⟩ := by
    decide +kernel
  have hiso : isoMoment? (strip "\x0b2024-02-29t23:59:59.05Z ".toList) =
      some ⟨⟨2024, 2, 29⟩, ⟨23, 59, 59, 50000⟩, some 0⟩ := by
    rw [isoMoment?_eq]
    decide +kernel
  exact ⟨l, hl, _, _, hread, hiso, layout_agrees_with_isoForm _ l _ _ hl hread hiso⟩

end ShapeCheck.Calendar
