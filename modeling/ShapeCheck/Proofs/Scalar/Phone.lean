import Mathlib.Data.Bool.AllAny
import ShapeCheck.Proofs.Text.Classes
import ShapeCheck.Proofs.Text.Pattern
import ShapeCheck.Scalar.Phone

/-
  The texts that are phone numbers. A `Reading` names the parts of a number: the groups of digits,
  the marks between them, and the extension. A text is a phone number exactly if some reading spells
  it (`number_matches_iff`), however many ways there are to cut its digits into groups. Each reading
  gives another one without marks (`Reading.bare`), so the marks can be dropped.
-/

namespace ShapeCheck.Phone

open ShapeCheck.Text

/-! ## Readings -/

/-- A country code: up to three digits, a plus before them and a separator behind them if there is
one. -/
structure Country where
  plus : Bool
  digits : List Char
  gap : Option Char
  length : 1 ≤ digits.length ∧ digits.length ≤ 3
  decimal : ∀ c ∈ digits, isDecimalDigit c = true
  separates : ∀ c ∈ gap, isSeparator c = true

/-- An extension: up to five digits behind a word in either letter case, with blanks around it. -/
structure Extension where
  before : List Char
  word : List Char
  after : List Char
  digits : List Char
  blank : ∀ c ∈ before ++ after, isBlank c = true
  spelled : word.map Char.toLower ∈ ["x".toList, "ext".toList, "ext.".toList]
  length : 1 ≤ digits.length ∧ digits.length ≤ 5
  decimal : ∀ c ∈ digits, isDecimalDigit c = true

/-- A way to read a text as a number: three, three and four digits, the first three in brackets or
not, with at most one separator between the groups. -/
structure Reading where
  country : Option Country
  brackets : Bool
  area : List Char
  areaGap : Option Char
  exchange : List Char
  exchangeGap : Option Char
  line : List Char
  extension : Option Extension
  length : area.length = 3 ∧ exchange.length = 3 ∧ line.length = 4
  decimal : ∀ c ∈ area ++ (exchange ++ line), isDecimalDigit c = true
  separates : ∀ c ∈ areaGap.toList ++ exchangeGap.toList, isSeparator c = true

/-- The plus of a country code, if it has one. -/
def Country.sign (k : Country) : List Char := if k.plus then ['+'] else []

def Country.text (k : Country) : List Char := k.sign ++ (k.digits ++ k.gap.toList)

def Extension.text (e : Extension) : List Char := e.before ++ (e.word ++ (e.after ++ e.digits))

namespace Reading

def countryText (r : Reading) : List Char := (r.country.map Country.text).getD []

def areaText (r : Reading) : List Char :=
  if r.brackets then '(' :: (r.area ++ [')']) else r.area

def extensionText (r : Reading) : List Char := (r.extension.map Extension.text).getD []

/-- The text that is read. -/
def text (r : Reading) : List Char :=
  r.countryText ++ (r.areaText ++ (r.areaGap.toList ++ (r.exchange ++ (r.exchangeGap.toList ++
    (r.line ++ r.extensionText)))))

end Reading

/-! ## What the pattern takes -/

variable {t : List Char}

theorem country_matches_iff : country.Matches t ↔ ∃ k : Country, t = k.text := by
  constructor
  · rintro ⟨sign, _, rfl, hsign, ds, _, rfl, hds, g, _, rfl, hg, rfl⟩
    obtain ⟨hlow, hhigh, hdecimal⟩ := Pattern.matches_between_one.1 hds
    obtain ⟨gap, rfl, hgap⟩ := Pattern.matches_opt_one.1 hg
    rw [List.append_nil]
    rcases Pattern.matches_opt.1 hsign with rfl | hplus
    · exact ⟨⟨false, ds, gap, ⟨hlow, hhigh⟩, hdecimal, hgap⟩, rfl⟩
    · rw [Pattern.matches_char.1 hplus]
      exact ⟨⟨true, ds, gap, ⟨hlow, hhigh⟩, hdecimal, hgap⟩, rfl⟩
  · rintro ⟨k, rfl⟩
    have hsign : (Pattern.opt (.char '+')).Matches k.sign := by
      rw [Pattern.matches_opt, Pattern.matches_char, Country.sign]
      split
      · exact .inr rfl
      · exact .inl rfl
    refine ⟨_, _, rfl, hsign, _, _, rfl,
      Pattern.matches_between_one.2 ⟨k.length.1, k.length.2, k.decimal⟩, _, [],
      (List.append_nil _).symm, Pattern.matches_opt_one.2 ⟨k.gap, rfl, k.separates⟩, rfl⟩

theorem area_matches_iff : area.Matches t ↔ ∃ ds : List Char, ds.length = 3 ∧
    (∀ c ∈ ds, isDecimalDigit c = true) ∧ (t = '(' :: (ds ++ [')']) ∨ t = ds) := by
  constructor
  · rintro (⟨_, _, rfl, hopen, ds, _, rfl, hds, _, _, rfl, hclose, rfl⟩ | hds)
    · obtain ⟨hlen, hdecimal⟩ := Pattern.matches_exactly_one.1 hds
      rw [Pattern.matches_char.1 hopen, Pattern.matches_char.1 hclose]
      exact ⟨ds, hlen, hdecimal, .inl rfl⟩
    · obtain ⟨hlen, hdecimal⟩ := Pattern.matches_exactly_one.1 hds
      exact ⟨t, hlen, hdecimal, .inr rfl⟩
  · rintro ⟨ds, hlen, hdecimal, rfl | rfl⟩
    · exact .inl ⟨['('], _, rfl, Pattern.matches_char.2 rfl, ds, _, rfl,
        Pattern.matches_exactly_one.2 ⟨hlen, hdecimal⟩, [')'], [], rfl, Pattern.matches_char.2 rfl,
        rfl⟩
    · exact .inr (Pattern.matches_exactly_one.2 ⟨hlen, hdecimal⟩)

theorem letter_matches_iff {c : Char} : (letter c).Matches t ↔ t.map Char.toLower = [c] := by
  constructor
  · rintro ⟨d, rfl, hd⟩
    rw [List.map_singleton, eq_of_beq hd]
  · intro h
    obtain ⟨d, rfl, hd⟩ := List.map_eq_singleton_iff.1 h
    exact ⟨d, rfl, beq_iff_eq.2 hd⟩

/-- The word in full, with the dot behind it or without. -/
theorem fullWord_matches_iff {rest : List Char} (hrest : rest = [] ∨ rest = ['.']) :
    t.map Char.toLower = 'e' :: 'x' :: 't' :: rest ↔
      ∃ a b c, t = a :: b :: c :: rest ∧ a.toLower = 'e' ∧ b.toLower = 'x' ∧ c.toLower = 't' := by
  have hdot : ∀ {u : List Char}, u.map Char.toLower = rest ↔ u = rest := by
    intro u
    rcases hrest with rfl | rfl
    · exact List.map_eq_nil_iff
    · rw [List.map_eq_singleton_iff]
      constructor
      · rintro ⟨d, rfl, hd⟩
        rw [eq_of_toLower (d := '.') (by decide) hd]
      · rintro rfl
        exact ⟨'.', rfl, by decide⟩
  simp only [List.map_eq_cons_iff, hdot]
  constructor
  · rintro ⟨a, _, rfl, ha, b, _, rfl, hb, c, _, rfl, hc, rfl⟩
    exact ⟨a, b, c, rfl, ha, hb, hc⟩
  · rintro ⟨a, b, c, rfl, ha, hb, hc⟩
    exact ⟨a, _, rfl, ha, b, _, rfl, hb, c, _, rfl, hc, rfl⟩

theorem extensionWord_matches_iff : extensionWord.Matches t ↔
    t.map Char.toLower ∈ ["x".toList, "ext".toList, "ext.".toList] := by
  have hspelled : t.map Char.toLower ∈ ["x".toList, "ext".toList, "ext.".toList] ↔
      t.map Char.toLower = ['x'] ∨ ∃ rest, (rest = [] ∨ rest = ['.']) ∧
        t.map Char.toLower = 'e' :: 'x' :: 't' :: rest := by
    simp only [List.mem_cons, List.not_mem_nil, or_false, or_and_right, exists_or, exists_eq_left]
    exact Iff.rfl
  rw [hspelled]
  constructor
  · rintro (h | ⟨_, _, rfl, ⟨a, rfl, ha⟩, _, _, rfl, ⟨b, rfl, hb⟩, _, _, rfl, ⟨c, rfl, hc⟩, rest, _,
      rfl, hrest, rfl⟩)
    · exact .inl (letter_matches_iff.1 h)
    · rw [Pattern.matches_opt, Pattern.matches_char] at hrest
      refine .inr ⟨rest, hrest, (fullWord_matches_iff hrest).2 ⟨a, b, c, ?_, eq_of_beq ha,
        eq_of_beq hb, eq_of_beq hc⟩⟩
      rw [List.append_nil]
      rfl
  · rintro (h | ⟨rest, hrest, h⟩)
    · exact .inl (letter_matches_iff.2 h)
    · obtain ⟨a, b, c, rfl, ha, hb, hc⟩ := (fullWord_matches_iff hrest).1 h
      exact .inr ⟨[a], _, rfl, ⟨a, rfl, beq_iff_eq.2 ha⟩, [b], _, rfl, ⟨b, rfl, beq_iff_eq.2 hb⟩,
        [c], _, rfl, ⟨c, rfl, beq_iff_eq.2 hc⟩, rest, [], (List.append_nil _).symm,
        by rwa [Pattern.matches_opt, Pattern.matches_char], rfl⟩

theorem extensionPart_matches_iff : extensionPart.Matches t ↔ ∃ e : Extension, t = e.text := by
  constructor
  · rintro ⟨before, _, rfl, hbefore, word, _, rfl, hword, after, _, rfl, hafter, ds, _, rfl, hds,
      rfl⟩
    obtain ⟨hlow, hhigh, hdecimal⟩ := Pattern.matches_between_one.1 hds
    rw [List.append_nil]
    exact ⟨⟨before, word, after, ds, List.forall_mem_append.2
      ⟨Pattern.matches_many_one.1 hbefore, Pattern.matches_many_one.1 hafter⟩,
      extensionWord_matches_iff.1 hword, ⟨hlow, hhigh⟩, hdecimal⟩, rfl⟩
  · rintro ⟨e, rfl⟩
    obtain ⟨hbefore, hafter⟩ := List.forall_mem_append.1 e.blank
    exact ⟨_, _, rfl, Pattern.matches_many_one.2 hbefore, _, _, rfl,
      extensionWord_matches_iff.2 e.spelled, _, _, rfl, Pattern.matches_many_one.2 hafter, _, [],
      (List.append_nil _).symm,
      Pattern.matches_between_one.2 ⟨e.length.1, e.length.2, e.decimal⟩, rfl⟩

theorem exists_opt_iff {α : Type} {p : Pattern} {f : α → List Char}
    (hp : ∀ t, p.Matches t ↔ ∃ a, t = f a) :
    (Pattern.opt p).Matches t ↔ ∃ o : Option α, t = (o.map f).getD [] := by
  rw [Pattern.matches_opt, hp]
  constructor
  · rintro (rfl | ⟨a, rfl⟩)
    · exact ⟨none, rfl⟩
    · exact ⟨some a, rfl⟩
  · rintro ⟨o, rfl⟩
    cases o with
    | none => exact .inl rfl
    | some a => exact .inr ⟨a, rfl⟩

theorem number_matches_iff : number.Matches t ↔ ∃ r : Reading, t = r.text := by
  constructor
  · rintro ⟨k, _, rfl, hk, ar, _, rfl, har, g, _, rfl, hg, ex, _, rfl, hex, g', _, rfl, hg', li, _,
      rfl, hli, x, _, rfl, hx, rfl⟩
    obtain ⟨country, rfl⟩ := (exists_opt_iff fun _ => country_matches_iff).1 hk
    obtain ⟨extension, rfl⟩ := (exists_opt_iff fun _ => extensionPart_matches_iff).1 hx
    obtain ⟨area, harea, hdarea, hbrackets⟩ := area_matches_iff.1 har
    obtain ⟨gap, rfl, hgap⟩ := Pattern.matches_opt_one.1 hg
    obtain ⟨gap', rfl, hgap'⟩ := Pattern.matches_opt_one.1 hg'
    obtain ⟨hexchange, hdexchange⟩ := Pattern.matches_exactly_one.1 hex
    obtain ⟨hline, hdline⟩ := Pattern.matches_exactly_one.1 hli
    have hdecimal := List.forall_mem_append.2 ⟨hdarea, List.forall_mem_append.2
      ⟨hdexchange, hdline⟩⟩
    have hseparates : ∀ c ∈ gap.toList ++ gap'.toList, isSeparator c = true :=
      List.forall_mem_append.2 ⟨fun c hc => hgap c (Option.mem_toList.1 hc),
        fun c hc => hgap' c (Option.mem_toList.1 hc)⟩
    rw [List.append_nil]
    rcases hbrackets with rfl | rfl
    · exact ⟨⟨country, true, area, gap, ex, gap', li, extension, ⟨harea, hexchange, hline⟩,
        hdecimal, hseparates⟩, rfl⟩
    · exact ⟨⟨country, false, ar, gap, ex, gap', li, extension, ⟨harea, hexchange, hline⟩,
        hdecimal, hseparates⟩, rfl⟩
  · rintro ⟨r, rfl⟩
    obtain ⟨harea, hexchange, hline⟩ := r.length
    obtain ⟨hdarea, hrest⟩ := List.forall_mem_append.1 r.decimal
    obtain ⟨hdexchange, hdline⟩ := List.forall_mem_append.1 hrest
    obtain ⟨hgap, hgap'⟩ := List.forall_mem_append.1 r.separates
    have hbrackets : r.areaText = '(' :: (r.area ++ [')']) ∨ r.areaText = r.area := by
      rw [Reading.areaText]
      split
      · exact .inl rfl
      · exact .inr rfl
    refine ⟨_, _, rfl, (exists_opt_iff fun _ => country_matches_iff).2 ⟨r.country, rfl⟩,
      _, _, rfl, area_matches_iff.2 ⟨r.area, harea, hdarea, hbrackets⟩,
      _, _, rfl, Pattern.matches_opt_one.2 ⟨r.areaGap, rfl, fun c hc => hgap c
        (Option.mem_toList.2 hc)⟩,
      _, _, rfl, Pattern.matches_exactly_one.2 ⟨hexchange, hdexchange⟩,
      _, _, rfl, Pattern.matches_opt_one.2 ⟨r.exchangeGap, rfl, fun c hc => hgap' c
        (Option.mem_toList.2 hc)⟩,
      _, _, rfl, Pattern.matches_exactly_one.2 ⟨hline, hdline⟩,
      _, [], (List.append_nil _).symm,
      (exists_opt_iff fun _ => extensionPart_matches_iff).2 ⟨r.extension, rfl⟩, rfl⟩

/-! ## Marks and digits -/

/-- A separator or a bracket. -/
def isMark (c : Char) : Bool := isSeparator c || c == '(' || c == ')'

theorem isMark_eq_false_iff {c : Char} : isMark c = false ↔
    isBlank c = false ∧ c ∉ ['.', '-', '(', ')'] := by
  simp only [isMark, isSeparator, Bool.or_eq_false_iff, beq_eq_false_iff_ne, List.mem_cons,
    List.not_mem_nil, or_false, not_or, and_assoc]

theorem isMark_of_isBlank {c : Char} (hc : isBlank c = true) : isMark c = true := by
  rw [isMark, isSeparator, hc]
  rfl

theorem isMark_of_isSeparator {c : Char} (hc : isSeparator c = true) : isMark c = true := by
  rw [isMark, hc]
  rfl

theorem not_isMark_of_isDecimalDigit {c : Char} (hc : isDecimalDigit c = true) :
    isMark c = false := by
  rw [isMark_eq_false_iff]
  refine ⟨not_isBlank_of_isDecimalDigit hc, fun hmem => ?_⟩
  have hnone : ∀ d ∈ ['.', '-', '(', ')'], isDecimalDigit d = false :=
    List.all_iff_forall_prop.1 (by decide)
  rw [hnone c hmem] at hc
  contradiction

/-- Letters are no marks in either case. -/
theorem isMark_toLower (c : Char) : isMark c.toLower = isMark c := by
  have hletter : ∀ {d : Char}, 65 ≤ d.toNat → d.toNat ≤ 122 → isMark d = false := by
    intro d hlow hhigh
    rw [isMark_eq_false_iff]
    refine ⟨isBlank_eq_false_of_range (by omega) (by omega), fun hmem => ?_⟩
    have hsmall : ∀ d ∈ ['.', '-', '(', ')'], d.toNat < 65 :=
      List.all_iff_forall_prop.1 (by decide)
    exact absurd (hsmall d hmem) (Nat.not_lt_of_le hlow)
  rcases toLower_cases c with hc | ⟨hlow, hhigh, hc⟩
  · rw [hc]
  · rw [hletter (by omega) (by omega), hletter hlow (by omega)]

section Filtered

variable {p : Char → Bool} (hdigit : ∀ c, isDecimalDigit c = true → p c = true)
  (hmark : ∀ c, isMark c = true → p c = false)

include hdigit in
theorem filter_digits {ds : List Char} (hds : ∀ c ∈ ds, isDecimalDigit c = true) :
    ds.filter p = ds :=
  List.filter_eq_self.2 fun c hc => hdigit c (hds c hc)

include hmark in
theorem filter_marks {ms : List Char} (hms : ∀ c ∈ ms, isMark c = true) : ms.filter p = [] :=
  List.filter_eq_nil_iff.2 fun c hc => Bool.eq_false_iff.1 (hmark c (hms c hc))

include hmark in
theorem filter_gap {gap : List Char} (hgap : ∀ c ∈ gap, isSeparator c = true) :
    gap.filter p = [] :=
  filter_marks hmark fun c hc => isMark_of_isSeparator (hgap c hc)

include hdigit hmark

theorem Country.filter_text (k : Country) : k.text.filter p = k.sign.filter p ++ k.digits := by
  have hgap : ∀ c ∈ k.gap.toList, isSeparator c = true := fun c hc =>
    k.separates c (Option.mem_toList.1 hc)
  rw [Country.text, List.filter_append, List.filter_append, filter_digits hdigit k.decimal,
    filter_gap hmark hgap, List.append_nil]

theorem Extension.filter_text (e : Extension) : e.text.filter p = e.word.filter p ++ e.digits := by
  obtain ⟨hbefore, hafter⟩ := List.forall_mem_append.1 e.blank
  simp only [Extension.text, List.filter_append, filter_digits hdigit e.decimal,
    filter_marks hmark fun c hc => isMark_of_isBlank (hbefore c hc),
    filter_marks hmark fun c hc => isMark_of_isBlank (hafter c hc), List.nil_append]

/-- What is left of a number by a class that has all digits and no mark. -/
theorem Reading.filter_text (r : Reading) : r.text.filter p =
    r.countryText.filter p ++ (r.area ++ (r.exchange ++ (r.line ++ r.extensionText.filter p))) := by
  obtain ⟨hdarea, hrest⟩ := List.forall_mem_append.1 r.decimal
  obtain ⟨hdexchange, hdline⟩ := List.forall_mem_append.1 hrest
  obtain ⟨hgap, hgap'⟩ := List.forall_mem_append.1 r.separates
  have harea : r.areaText.filter p = r.area := by
    have hopen : p '(' = false := hmark _ (by decide)
    have hclose : p ')' = false := hmark _ (by decide)
    rw [Reading.areaText]
    split
    · simp only [List.filter_cons, List.filter_append, List.filter_nil, hopen, hclose,
        filter_digits hdigit hdarea, Bool.false_eq_true, if_false, List.append_nil]
    · exact filter_digits hdigit hdarea
  simp only [Reading.text, List.filter_append, harea, filter_digits hdigit hdexchange,
    filter_digits hdigit hdline, filter_gap hmark hgap, filter_gap hmark hgap', List.nil_append]

end Filtered

/-! ## Numbers without marks -/

/-- An extension without blanks and without the dot of its word. -/
def Extension.bare (e : Extension) : Extension where
  before := []
  word := e.word.filter (!isMark ·)
  after := []
  digits := e.digits
  blank := nofun
  spelled := by
    have hwords : ∀ w ∈ ["x".toList, "ext".toList, "ext.".toList],
        w.filter (!isMark ·) ∈ ["x".toList, "ext".toList, "ext.".toList] := by decide
    have hcommute : (e.word.filter (!isMark ·)).map Char.toLower =
        (e.word.map Char.toLower).filter (!isMark ·) := by
      simp only [List.filter_map, Function.comp_def, isMark_toLower]
    rw [hcommute]
    exact hwords _ e.spelled
  length := e.length
  decimal := e.decimal

/-- A country code without the separator behind it. -/
def Country.bare (k : Country) : Country := { k with gap := none, separates := nofun }

theorem Country.text_bare (k : Country) : k.bare.text = k.sign ++ k.digits :=
  congrArg (k.sign ++ ·) (List.append_nil k.digits)

/-- The same groups of digits without separators and brackets. -/
def Reading.bare (r : Reading) : Reading :=
  { r with
    country := r.country.map Country.bare
    brackets := false
    areaGap := none
    exchangeGap := none
    separates := nofun }

/-- The same groups of digits without any mark, in the extension neither. -/
def Reading.plain (r : Reading) : Reading :=
  { r.bare with extension := r.extension.map Extension.bare }

/-- Dropping the marks of a text that is read gives a text that is read. -/
theorem text_plain (r : Reading) : r.plain.text = r.text.filter (!isMark ·) := by
  have hdigit : ∀ c, isDecimalDigit c = true → (!isMark c) = true := fun c hc => by
    rw [not_isMark_of_isDecimalDigit hc]
    rfl
  have hmark : ∀ c, isMark c = true → (!isMark c) = false := fun c hc => by
    rw [hc]
    rfl
  have hcountry : r.plain.countryText = r.countryText.filter (!isMark ·) := by
    simp only [Reading.countryText, Reading.plain, Reading.bare]
    cases r.country with
    | none => rfl
    | some k =>
      have hsign : k.sign.filter (!isMark ·) = k.sign := by
        rw [Country.sign]
        split <;> decide
      have hfilter := k.filter_text hdigit hmark
      rw [hsign, ← k.text_bare] at hfilter
      exact hfilter.symm
  have hextension : r.plain.extensionText = r.extensionText.filter (!isMark ·) := by
    simp only [Reading.extensionText, Reading.plain]
    cases r.extension with
    | none => rfl
    | some e => exact (e.filter_text hdigit hmark).symm
  rw [r.filter_text hdigit hmark, ← hcountry, ← hextension]
  rfl

/-! ## Phone numbers -/

theorem starts_with_digit {ds : List Char} (hpos : 1 ≤ ds.length)
    (hds : ∀ c ∈ ds, isDecimalDigit c = true) (t : List Char) :
    ∃ c u, ds ++ t = c :: u ∧ isBlank c = false := by
  obtain ⟨c, ds, rfl⟩ := List.exists_cons_of_length_pos hpos
  exact ⟨c, ds ++ t, rfl, not_isBlank_of_isDecimalDigit (hds c (List.mem_cons_self ..))⟩

theorem ends_in_digit {ds : List Char} (hpos : 1 ≤ ds.length)
    (hds : ∀ c ∈ ds, isDecimalDigit c = true) (t : List Char) :
    ∃ u c, t ++ ds = u ++ [c] ∧ isBlank c = false := by
  have hne := List.ne_nil_of_length_pos hpos
  refine ⟨t ++ ds.dropLast, ds.getLast hne, ?_, ?_⟩
  · rw [List.append_assoc, List.dropLast_concat_getLast hne]
  · exact not_isBlank_of_isDecimalDigit (hds _ (List.getLast_mem hne))

namespace Reading

variable (r : Reading)

theorem area_decimal : ∀ c ∈ r.area, isDecimalDigit c = true := fun c hc =>
  r.decimal c (List.mem_append_left _ hc)

theorem line_decimal : ∀ c ∈ r.line, isDecimalDigit c = true := fun c hc =>
  r.decimal c (List.mem_append_right _ (List.mem_append_right _ hc))

theorem areaText_starts (t : List Char) : ∃ c u, r.areaText ++ t = c :: u ∧ isBlank c = false := by
  rw [areaText]
  split
  · exact ⟨'(', _, rfl, by decide⟩
  · exact starts_with_digit (by rw [r.length.1]; decide) r.area_decimal t

theorem text_starts : ∃ c u, r.text = c :: u ∧ isBlank c = false := by
  rw [text, countryText]
  cases r.country with
  | none => exact r.areaText_starts _
  | some k =>
    rw [Option.map_some, Option.getD_some, Country.text, Country.sign]
    split
    · exact ⟨'+', _, rfl, by decide⟩
    · rw [List.nil_append, List.append_assoc]
      exact starts_with_digit k.length.1 k.decimal _

theorem text_ends : ∃ u c, r.text = u ++ [c] ∧ isBlank c = false := by
  have hline : ∀ t, ∃ u c, t ++ r.line = u ++ [c] ∧ isBlank c = false :=
    ends_in_digit (by rw [r.length.2.2]; decide) r.line_decimal
  rw [text, extensionText]
  cases r.extension with
  | none =>
    rw [Option.map_none, Option.getD_none, List.append_nil]
    simpa only [List.append_assoc] using hline
      (r.countryText ++ (r.areaText ++ (r.areaGap.toList ++ (r.exchange ++ r.exchangeGap.toList))))
  | some e =>
    rw [Option.map_some, Option.getD_some, Extension.text]
    simpa only [List.append_assoc] using ends_in_digit e.length.1 e.decimal
      (r.countryText ++ (r.areaText ++ (r.areaGap.toList ++ (r.exchange ++ (r.exchangeGap.toList ++
        (r.line ++ (e.before ++ (e.word ++ e.after))))))))

theorem strip_text : strip r.text = r.text := by
  have h : strip ([] ++ r.text ++ []) = r.text :=
    strip_between nofun nofun r.text_starts r.text_ends
  rwa [List.nil_append, List.append_nil] at h

/-- A number without an extension has ten digits and those of its country code. -/
theorem countP_text (hr : r.extension = none) :
    10 ≤ r.text.countP isDecimalDigit ∧ r.text.countP isDecimalDigit ≤ 13 := by
  have hmark : ∀ c, isMark c = true → isDecimalDigit c = false := fun c hc => by
    rw [Bool.eq_false_iff]
    intro hdigit
    rw [not_isMark_of_isDecimalDigit hdigit] at hc
    contradiction
  have hcountry : (r.countryText.filter isDecimalDigit).length ≤ 3 := by
    rw [countryText]
    cases r.country with
    | none => exact Nat.zero_le 3
    | some k =>
      have hsign : k.sign.filter isDecimalDigit = [] := by
        rw [Country.sign]
        split <;> decide
      rw [Option.map_some, Option.getD_some, k.filter_text (fun _ => id) hmark, hsign]
      exact k.length.2
  obtain ⟨harea, hexchange, hline⟩ := r.length
  have hextension : r.extensionText = [] := by
    rw [extensionText, hr]
    rfl
  rw [List.countP_eq_length_filter, r.filter_text (fun _ => id) hmark, hextension]
  simp only [List.length_append, List.filter_nil, List.length_nil]
  omega

end Reading

theorem isPhone_iff {s : String} : isPhone s = true ↔ ∃ r : Reading, strip s.toList = r.text := by
  rw [isPhone, Pattern.accepts_iff, number_matches_iff]

theorem isPhone_text (r : Reading) : isPhone (String.ofList r.text) = true :=
  isPhone_iff.2 ⟨r, by rw [String.toList_ofList, r.strip_text]⟩

/-- A text is a phone number exactly if it can be read as one, without the blanks at its ends. If it
is read without an extension it has 10 to 13 digits. Without the separators and brackets of a
reading it is a phone number still, and without any such mark in it as well. -/
theorem isPhone_iff_reading (s : String) :
    (isPhone s = true ↔ ∃ r : Reading, strip s.toList = r.text) ∧
      (∀ r : Reading, strip s.toList = r.text →
        (r.extension = none →
          10 ≤ s.toList.countP isDecimalDigit ∧ s.toList.countP isDecimalDigit ≤ 13) ∧
        isPhone (String.ofList r.bare.text) = true) ∧
      (isPhone s = true → isPhone (String.ofList (s.toList.filter (!isMark ·))) = true) := by
  refine ⟨isPhone_iff, fun r hr => ⟨fun hextension => ?_, isPhone_text r.bare⟩, fun hs => ?_⟩
  · have hcount : s.toList.countP isDecimalDigit = r.text.countP isDecimalDigit := by
      rw [← hr, List.countP_eq_length_filter, List.countP_eq_length_filter, filter_strip]
      intro c hc
      rw [Bool.eq_false_iff]
      intro hdigit
      rw [not_isBlank_of_isDecimalDigit hdigit] at hc
      contradiction
    rw [hcount]
    exact r.countP_text hextension
  · obtain ⟨r, hr⟩ := isPhone_iff.1 hs
    have hfilter : s.toList.filter (!isMark ·) = r.plain.text := by
      rw [text_plain, ← hr, filter_strip]
      intro c hc
      rw [isMark_of_isBlank hc]
      rfl
    rw [hfilter]
    exact isPhone_text r.plain

theorem isPhone_iff_reading_marked :
    ∃ r : Reading, strip "\t+1-(909) 456.4319\n".toList = r.text ∧ r.extension = none ∧
      isPhone "\t+1-(909) 456.4319\n" = true ∧
      "\t+1-(909) 456.4319\n".toList.countP isDecimalDigit ≤ 13 ∧
      String.ofList r.bare.text = "+19094564319" ∧ isPhone "+19094564319" = true := by
  let k : Country :=
    { plus := true, digits := "1".toList, gap := some '-', length := by decide
      decimal := List.all_eq_true.1 (by decide), separates := by rintro c ⟨⟩; decide }
  let r : Reading :=
    { country := some k, brackets := true, area := "909".toList, areaGap := some ' '
      exchange := "456".toList, exchangeGap := some '.', line := "4319".toList, extension := none
      length := by decide, decimal := List.all_eq_true.1 (by decide)
      separates := List.all_eq_true.1 (by decide) }
  have hr : strip "\t+1-(909) 456.4319\n".toList = r.text := by decide
  have hbare : String.ofList r.bare.text = "+19094564319" := by decide
  obtain ⟨hiff, hread, -⟩ := isPhone_iff_reading "\t+1-(909) 456.4319\n"
  obtain ⟨hcount, hphone⟩ := hread r hr
  rw [hbare] at hphone
  exact ⟨r, hr, rfl, hiff.2 ⟨r, hr⟩, (hcount rfl).2, hbare, hphone⟩

end ShapeCheck.Phone
