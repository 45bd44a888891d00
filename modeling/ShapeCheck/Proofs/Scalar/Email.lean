import Mathlib.Data.Bool.AllAny
import ShapeCheck.Proofs.Text.Pattern
import ShapeCheck.Scalar.Email
import ShapeCheck.Text.Blank

/-
  The texts that are mail addresses. A label is said by its length, its characters and its two ends
  (`IsLabel`), a domain by the parts that its dots cut it into, and an address by its one at sign
  (`IsAddress`); the pattern of an address takes exactly these texts (`address_matches_iff`). The
  pattern tells the two ends of a label from what stands between them, so its bound of 61 is a bound
  of 63 on the whole. None of the classes has a blank, so no address has one.
-/

namespace ShapeCheck.Email

open ShapeCheck.Text

/-! ## Characters -/

/-- A letter or digit of ASCII. -/
def Alnum (c : Char) : Prop :=
  ('A' ≤ c ∧ c ≤ 'Z') ∨ ('a' ≤ c ∧ c ≤ 'z') ∨ ('0' ≤ c ∧ c ≤ '9')

instance : DecidablePred Alnum := fun _ => inferInstanceAs (Decidable (_ ∨ _))

/-- A character of a label. -/
def LabelChar (c : Char) : Prop := Alnum c ∨ c = '-'

instance : DecidablePred LabelChar := fun _ => inferInstanceAs (Decidable (_ ∨ _))

/-- A character of the part before the at sign. -/
def UserChar (c : Char) : Prop := Alnum c ∨ c ∈ localMarks

instance : DecidablePred UserChar := fun _ => inferInstanceAs (Decidable (_ ∨ _))

theorem isAlnum_iff {c : Char} : isAlnum c = true ↔ Alnum c := by
  change ((decide ('A' ≤ c ∧ c ≤ 'Z') || decide ('a' ≤ c) && decide (c ≤ 'z')) ||
    decide ('0' ≤ c) && decide (c ≤ '9')) = true ↔ _
  simp only [Bool.or_eq_true, Bool.and_eq_true, decide_eq_true_eq, or_assoc]
  rfl

theorem labelChar_iff {c : Char} : (isAlnum c || c == '-') = true ↔ LabelChar c := by
  rw [Bool.or_eq_true, isAlnum_iff, beq_iff_eq, LabelChar]

theorem userChar_iff {c : Char} : isLocal c = true ↔ UserChar c := by
  rw [isLocal, Bool.or_eq_true, isAlnum_iff, List.contains_iff_mem, UserChar]

theorem Alnum.range {c : Char} (hc : Alnum c) : 0x21 ≤ c.toNat ∧ c.toNat < 0x80 := by
  simp only [Alnum, Char.le_def, UInt32.le_iff_toNat_le] at hc
  change (65 ≤ c.toNat ∧ c.toNat ≤ 90) ∨ (97 ≤ c.toNat ∧ c.toNat ≤ 122) ∨
    (48 ≤ c.toNat ∧ c.toNat ≤ 57) at hc
  omega

theorem Alnum.not_blank {c : Char} (hc : Alnum c) : isBlank c = false :=
  isBlank_eq_false_of_range hc.range.1 hc.range.2

theorem LabelChar.not_blank {c : Char} (hc : LabelChar c) : isBlank c = false := by
  rcases hc with hc | rfl
  · exact hc.not_blank
  · decide

theorem UserChar.not_blank {c : Char} (hc : UserChar c) : isBlank c = false := by
  have hmarks : ∀ c ∈ localMarks, isBlank c = false := List.all_iff_forall_prop.1 (by decide)
  exact hc.elim Alnum.not_blank (hmarks c)

theorem alnum_of_labelChar {c : Char} (hc : LabelChar c) (hne : c ≠ '-') : Alnum c :=
  hc.resolve_right hne

/-! ## Labels -/

/-- A label of a domain: up to 63 letters, digits and hyphens, with no hyphen at an end. -/
structure IsLabel (t : List Char) : Prop where
  length : 1 ≤ t.length ∧ t.length ≤ 63
  chars : ∀ c ∈ t, LabelChar c
  first : t.head? ≠ some '-'
  last : t.getLast? ≠ some '-'

variable {s t : List Char}

theorem isLabel_iff : IsLabel t ↔ (1 ≤ t.length ∧ t.length ≤ 63) ∧ (∀ c ∈ t, LabelChar c) ∧
    t.head? ≠ some '-' ∧ t.getLast? ≠ some '-' :=
  ⟨fun h => ⟨h.length, h.chars, h.first, h.last⟩, fun ⟨l, c, f, g⟩ => ⟨l, c, f, g⟩⟩

instance : DecidablePred IsLabel := fun t =>
  have : Decidable (∀ c ∈ t, LabelChar c) := List.decidableBAll _ t
  decidable_of_iff _ isLabel_iff.symm

theorem isLabel_singleton {a : Char} (ha : Alnum a) : IsLabel [a] where
  length := ⟨Nat.le_refl 1, Nat.le_add_left 1 62⟩
  chars := List.forall_mem_singleton.2 (.inl ha)
  first := by rintro ⟨⟩; exact absurd ha (by decide)
  last := by rintro ⟨⟩; exact absurd ha (by decide)

theorem isLabel_ends {a b : Char} {m : List Char} (ha : Alnum a) (hb : Alnum b) :
    IsLabel (a :: (m ++ [b])) ↔ m.length ≤ 61 ∧ ∀ c ∈ m, LabelChar c := by
  constructor
  · rintro ⟨⟨-, hlen⟩, hchars, -, -⟩
    simp only [List.length_cons, List.length_append, List.length_nil] at hlen
    exact ⟨by omega, fun c hc => hchars c (List.mem_cons_of_mem a (List.mem_append_left _ hc))⟩
  · rintro ⟨hlen, hchars⟩
    refine ⟨?_, ?_, ?_, ?_⟩
    · simp only [List.length_cons, List.length_append, List.length_nil]
      omega
    · exact List.forall_mem_cons.2 ⟨.inl ha, List.forall_mem_append.2
        ⟨hchars, List.forall_mem_singleton.2 (.inl hb)⟩⟩
    · rintro ⟨⟩
      exact absurd ha (by decide)
    · rw [← List.cons_append, List.getLast?_concat]
      rintro ⟨⟩
      exact absurd hb (by decide)

/-- A label is a letter or digit alone, or two of them with the rest between. -/
theorem IsLabel.cases (ht : IsLabel t) : (∃ a, t = [a] ∧ Alnum a) ∨
    ∃ a m b, t = a :: (m ++ [b]) ∧ Alnum a ∧ Alnum b := by
  cases t with
  | nil => exact absurd ht.length.1 (by decide)
  | cons a u =>
    have ha : Alnum a := alnum_of_labelChar (ht.chars a (List.mem_cons_self ..)) fun he =>
      ht.first (congrArg some he)
    rcases List.eq_nil_or_concat u with rfl | ⟨m, b, rfl⟩
    · exact .inl ⟨a, rfl, ha⟩
    · rw [List.concat_eq_append] at ht ⊢
      have hlast := ht.last
      rw [← List.cons_append, List.getLast?_concat] at hlast
      have hb : LabelChar b := ht.chars b
        (List.mem_cons_of_mem a (List.mem_append_right m (List.mem_singleton_self b)))
      exact .inr ⟨a, m, b, rfl, ha, alnum_of_labelChar hb fun he => hlast (congrArg some he)⟩

theorem label_matches_iff : label.Matches t ↔ IsLabel t := by
  have hmiddle : ∀ m : List Char,
      (Pattern.upTo 61 (.one fun c => isAlnum c || c == '-')).Matches m ↔
        m.length ≤ 61 ∧ ∀ c ∈ m, LabelChar c := fun m => by
    simp only [Pattern.matches_upTo_one, labelChar_iff]
  constructor
  · rintro ⟨_, v, rfl, ⟨a, rfl, ha⟩, hv⟩
    rw [isAlnum_iff] at ha
    rcases Pattern.matches_opt.1 hv with rfl | ⟨m, _, rfl, hm, b, rfl, hb⟩
    · exact isLabel_singleton ha
    · exact (isLabel_ends ha (isAlnum_iff.1 hb)).2 ((hmiddle m).1 hm)
  · intro ht
    rcases ht.cases with ⟨a, rfl, ha⟩ | ⟨a, m, b, rfl, ha, hb⟩
    · exact ⟨[a], [], rfl, ⟨a, rfl, isAlnum_iff.2 ha⟩, Pattern.matches_opt.2 (.inl rfl)⟩
    · have hm := (hmiddle m).2 ((isLabel_ends ha hb).1 ht)
      exact ⟨[a], m ++ [b], rfl, ⟨a, rfl, isAlnum_iff.2 ha⟩, Pattern.matches_opt.2
        (.inr ⟨m, [b], rfl, hm, b, rfl, isAlnum_iff.2 hb⟩)⟩

/-! ## Domains -/

/-- A domain: two labels at least, with dots between them. -/
structure IsDomain (s : List Char) : Prop where
  two : 2 ≤ (s.splitOn '.').length
  labels : ∀ t ∈ s.splitOn '.', IsLabel t

theorem intercalate_dots (t : List Char) (ts : List (List Char)) :
    ['.'].intercalate (t :: ts) = t ++ (ts.map ('.' :: ·)).flatten := by
  induction ts generalizing t with
  | nil => rw [List.intercalate_singleton, List.map_nil, List.flatten_nil, List.append_nil]
  | cons u ts ih =>
    rw [List.intercalate_cons_cons, ih, List.map_cons, List.flatten_cons, List.append_assoc]
    rfl

theorem isDomain_iff : IsDomain s ↔ ∃ t u us, s = ['.'].intercalate (t :: u :: us) ∧
    ∀ x ∈ t :: u :: us, IsLabel x := by
  constructor
  · rintro ⟨htwo, hlabels⟩
    match hs : s.splitOn '.', htwo with
    | t :: u :: us, _ =>
      rw [hs] at hlabels
      exact ⟨t, u, us, by rw [← hs, List.intercalate_splitOn], hlabels⟩
  · rintro ⟨t, u, us, rfl, hlabels⟩
    have hdot : ∀ x ∈ t :: u :: us, '.' ∉ x := fun x hx hmem =>
      absurd ((hlabels x hx).chars '.' hmem) (by decide)
    have hsplit := List.splitOn_intercalate '.' hdot (List.cons_ne_nil t (u :: us))
    exact ⟨by rw [hsplit]; exact Nat.le_add_left 2 _, by rw [hsplit]; exact hlabels⟩

theorem dotted_label_matches_iff :
    (Pattern.seq (.char '.') label).Matches t ↔ ∃ u, t = '.' :: u ∧ IsLabel u := by
  constructor
  · rintro ⟨_, u, rfl, hdot, hu⟩
    rw [Pattern.matches_char.1 hdot]
    exact ⟨u, rfl, label_matches_iff.1 hu⟩
  · rintro ⟨u, rfl, hu⟩
    exact ⟨['.'], u, rfl, Pattern.matches_char.2 rfl, label_matches_iff.2 hu⟩

theorem dotted_labels_matches_iff : (Pattern.many (.seq (.char '.') label)).Matches t ↔
    ∃ us : List (List Char), t = (us.map ('.' :: ·)).flatten ∧ ∀ u ∈ us, IsLabel u := by
  constructor
  · rintro ⟨ts, rfl, hts⟩
    induction ts with
    | nil => exact ⟨[], rfl, nofun⟩
    | cons x ts ih =>
      obtain ⟨hx, hrest⟩ := List.forall_mem_cons.1 hts
      obtain ⟨us, hflat, hus⟩ := ih hrest
      obtain ⟨u, rfl, hu⟩ := dotted_label_matches_iff.1 hx
      exact ⟨u :: us, by rw [List.flatten_cons, hflat]; rfl, List.forall_mem_cons.2 ⟨hu, hus⟩⟩
  · rintro ⟨us, rfl, hus⟩
    exact ⟨us.map ('.' :: ·), rfl, List.forall_mem_map.2 fun u hu =>
      dotted_label_matches_iff.2 ⟨u, rfl, hus u hu⟩⟩

theorem domain_matches_iff :
    (Pattern.inTurn [label, .many1 (.seq (.char '.') label)]).Matches s ↔ IsDomain s := by
  rw [isDomain_iff]
  constructor
  · rintro ⟨t, _, rfl, ht, v, _, rfl, ⟨_, w, rfl, hv, hw⟩, rfl⟩
    obtain ⟨u, rfl, hu⟩ := dotted_label_matches_iff.1 hv
    obtain ⟨us, rfl, hus⟩ := dotted_labels_matches_iff.1 hw
    refine ⟨t, u, us, ?_, ?_⟩
    · rw [intercalate_dots, List.append_nil]
      rfl
    · exact List.forall_mem_cons.2 ⟨label_matches_iff.1 ht, List.forall_mem_cons.2 ⟨hu, hus⟩⟩
  · rintro ⟨t, u, us, rfl, hlabels⟩
    obtain ⟨ht, hlabels⟩ := List.forall_mem_cons.1 hlabels
    obtain ⟨hu, hus⟩ := List.forall_mem_cons.1 hlabels
    refine ⟨t, _, intercalate_dots t (u :: us), label_matches_iff.2 ht, _, [],
      (List.append_nil _).symm, ⟨'.' :: u, _, rfl, dotted_label_matches_iff.2 ⟨u, rfl, hu⟩,
        dotted_labels_matches_iff.2 ⟨us, rfl, hus⟩⟩, rfl⟩

/-! ## Addresses -/

/-- A mail address: one at sign, before it one or more of the characters allowed there, and a domain
after it. -/
structure IsAddress (s : List Char) : Prop where
  one : s.count '@' = 1
  parts : ∃ user domain, s = user ++ '@' :: domain ∧ user ≠ [] ∧ (∀ c ∈ user, UserChar c) ∧
    IsDomain domain

theorem IsDomain.chars (hs : IsDomain s) : ∀ c ∈ s, LabelChar c ∨ c = '.' := by
  obtain ⟨t, u, us, rfl, hlabels⟩ := isDomain_iff.1 hs
  intro c hc
  rw [intercalate_dots] at hc
  rcases List.mem_append.1 hc with hc | hc
  · exact .inl ((hlabels t (List.mem_cons_self ..)).chars c hc)
  · obtain ⟨x, hx, hc⟩ := List.mem_flatten.1 hc
    obtain ⟨y, hy, rfl⟩ := List.mem_map.1 hx
    rcases List.mem_cons.1 hc with rfl | hc
    · exact .inr rfl
    · exact .inl ((hlabels y (List.mem_cons_of_mem t hy)).chars c hc)

theorem isAddress_of_parts {user domain : List Char} (hne : user ≠ [])
    (huser : ∀ c ∈ user, UserChar c) (hdomain : IsDomain domain) :
    IsAddress (user ++ '@' :: domain) := by
  have hbefore : '@' ∉ user := fun hmem => absurd (huser '@' hmem) (by decide)
  have hafter : '@' ∉ domain := fun hmem => absurd (hdomain.chars '@' hmem) (by decide)
  refine ⟨?_, user, domain, rfl, hne, huser, hdomain⟩
  rw [List.count_append, List.count_cons_self, List.count_eq_zero_of_not_mem hbefore,
    List.count_eq_zero_of_not_mem hafter]

theorem address_matches_iff : address.Matches s ↔ IsAddress s := by
  have huser : ∀ u : List Char, (Pattern.many1 (.one isLocal)).Matches u ↔
      u ≠ [] ∧ ∀ c ∈ u, UserChar c := fun u => by
    simp only [Pattern.matches_many1_one, userChar_iff]
  constructor
  · rintro ⟨u, _, rfl, hu, _, d, rfl, hat, hd⟩
    obtain ⟨hne, hu⟩ := (huser u).1 hu
    rw [Pattern.matches_char.1 hat]
    exact isAddress_of_parts hne hu (domain_matches_iff.1 hd)
  · rintro ⟨-, u, d, rfl, hne, hu, hd⟩
    exact ⟨u, '@' :: d, rfl, (huser u).2 ⟨hne, hu⟩, ['@'], d, rfl, Pattern.matches_char.2 rfl,
      domain_matches_iff.2 hd⟩

theorem IsAddress.not_blank (hs : IsAddress s) : ∀ c ∈ s, isBlank c = false := by
  obtain ⟨-, user, domain, rfl, -, huser, hdomain⟩ := hs
  refine List.forall_mem_append.2 ⟨fun c hc => (huser c hc).not_blank, ?_⟩
  refine List.forall_mem_cons.2 ⟨by decide, fun c hc => ?_⟩
  rcases hdomain.chars c hc with hc | rfl
  · exact hc.not_blank
  · decide

/-- A text is a mail address exactly if it has one at sign, before it a part of letters, digits and
marks, and after it two labels at least, cut by dots, each of 1 to 63 letters, digits and hyphens
without a hyphen at an end. With a blank before or after it, such as an end of line, no text is a
mail address. -/
theorem isEmail_iff_isAddress (s : String) :
    (isEmail s = true ↔ IsAddress s.toList) ∧
      ∀ before after : String, (∃ c ∈ before.toList ++ after.toList, isBlank c = true) →
        isEmail (before ++ s ++ after) = false := by
  have hiff : ∀ s : String, isEmail s = true ↔ IsAddress s.toList := fun s => by
    rw [isEmail, Pattern.accepts_iff, address_matches_iff]
  refine ⟨hiff s, ?_⟩
  rintro before after ⟨c, hc, hblank⟩
  rw [Bool.eq_false_iff, ne_eq, hiff]
  intro haddress
  have hmem : c ∈ (before ++ s ++ after).toList := by
    simp only [String.toList_append, List.mem_append] at hc ⊢
    exact hc.elim (fun h => .inl (.inl h)) .inr
  rw [haddress.not_blank c hmem] at hblank
  contradiction

theorem isEmail_iff_isAddress_long :
    ∃ text, text.toList = "a.b+c".toList ++ '@' :: (List.replicate 63 'x' ++ ".x-1".toList) ∧
      IsAddress text.toList ∧ isEmail text = true ∧
      (∃ c ∈ "".toList ++ "\n".toList, isBlank c = true) ∧
      isEmail ("" ++ text ++ "\n") = false := by
  let text := String.ofList ("a.b+c".toList ++ '@' :: (List.replicate 63 'x' ++ ".x-1".toList))
  have haddress : IsAddress text.toList := by
    rw [String.toList_ofList]
    exact isAddress_of_parts (by decide) (List.all_iff_forall_prop.1 (by decide))
      ⟨by decide, by decide⟩
  have hblank : ∃ c ∈ "".toList ++ "\n".toList, isBlank c = true := List.any_eq_true.1 (by decide)
  obtain ⟨hiff, hspoiled⟩ := isEmail_iff_isAddress text
  exact ⟨text, String.toList_ofList, haddress, hiff.2 haddress, hblank, hspoiled "" "\n" hblank⟩

end ShapeCheck.Email
