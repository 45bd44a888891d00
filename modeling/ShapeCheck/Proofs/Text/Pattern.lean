import ShapeCheck.Text.Pattern

/-
  The texts that a pattern takes. `Pattern.Matches` says which texts these are, without a word on
  the order in which they are tried; a pattern can leave a rest exactly if it takes what stands
  before it (`Pattern.mem_rests_iff`). For repetitions, rounds that take nothing can be left out, so
  that as many rounds as there are characters are enough.
-/

namespace ShapeCheck.Text

namespace Pattern

/-- Whether a pattern takes a whole text in some way. -/
def Matches : Pattern → List Char → Prop
  | empty, t => t = []
  | one p, t => ∃ c, t = [c] ∧ p c = true
  | seq a b, t => ∃ u v, t = u ++ v ∧ a.Matches u ∧ b.Matches v
  | alt a b, t => a.Matches t ∨ b.Matches t
  | upTo n a, t => ∃ ts : List (List Char), ts.length ≤ n ∧ t = ts.flatten ∧ ∀ u ∈ ts, a.Matches u
  | many a, t => ∃ ts : List (List Char), t = ts.flatten ∧ ∀ u ∈ ts, a.Matches u

/-! ## Matching and what it leaves -/

variable {f : List Char → List (List Char)} {M : List Char → Prop} {r s : List Char}

/-- What rounds leave, given what one round does. -/
theorem mem_rounds_iff (hf : ∀ s r, r ∈ f s ↔ ∃ t, s = t ++ r ∧ M t) {n : Nat} :
    r ∈ rounds f n s ↔
      ∃ ts : List (List Char), ts.length ≤ n ∧ s = ts.flatten ++ r ∧ ∀ u ∈ ts, M u := by
  induction n generalizing s with
  | zero =>
    rw [rounds, List.mem_singleton]
    constructor
    · rintro rfl
      exact ⟨[], Nat.le_refl 0, rfl, nofun⟩
    · rintro ⟨ts, hlen, rfl, -⟩
      obtain rfl := List.length_eq_zero_iff.1 (Nat.le_zero.1 hlen)
      rfl
  | succ n ih =>
    rw [rounds, List.mem_append, List.mem_flatMap, List.mem_singleton]
    constructor
    · rintro (⟨u, hu, hr⟩ | rfl)
      · obtain ⟨t, rfl, ht⟩ := (hf s u).1 hu
        obtain ⟨ts, hlen, rfl, hts⟩ := ih.1 hr
        refine ⟨t :: ts, Nat.succ_le_succ hlen, ?_, List.forall_mem_cons.2 ⟨ht, hts⟩⟩
        rw [List.flatten_cons, List.append_assoc]
      · exact ⟨[], Nat.zero_le _, rfl, nofun⟩
    · rintro ⟨ts, hlen, rfl, hts⟩
      cases ts with
      | nil => exact .inr rfl
      | cons t ts =>
        obtain ⟨ht, hts⟩ := List.forall_mem_cons.1 hts
        refine .inl ⟨ts.flatten ++ r, (hf _ _).2 ⟨t, ?_, ht⟩, ?_⟩
        · rw [List.flatten_cons, List.append_assoc]
        · exact ih.2 ⟨ts, Nat.le_of_succ_le_succ hlen, rfl, hts⟩

/-- The rounds that take something are at most as many as what they take is long. -/
theorem exists_short_flatten (ts : List (List Char)) : ∃ us : List (List Char),
    us.length ≤ ts.flatten.length ∧ us.flatten = ts.flatten ∧ ∀ u ∈ us, u ∈ ts := by
  induction ts with
  | nil => exact ⟨[], Nat.le_refl _, rfl, nofun⟩
  | cons t ts ih =>
    obtain ⟨us, hlen, hflat, hmem⟩ := ih
    have hold : ∀ u ∈ us, u ∈ t :: ts := fun u hu => List.mem_cons_of_mem t (hmem u hu)
    cases t with
    | nil => exact ⟨us, hlen, hflat, hold⟩
    | cons c t =>
      refine ⟨(c :: t) :: us, ?_, ?_, List.forall_mem_cons.2 ⟨List.mem_cons_self .., hold⟩⟩
      · simp only [List.flatten_cons, List.length_append, List.length_cons]
        omega
      · rw [List.flatten_cons, List.flatten_cons, hflat]

/-- A pattern can leave a rest exactly if it takes what stands before the rest. -/
theorem mem_rests_iff (p : Pattern) (s r : List Char) :
    r ∈ p.rests s ↔ ∃ t, s = t ++ r ∧ p.Matches t := by
  induction p generalizing s r with
  | empty =>
    rw [rests, List.mem_singleton]
    constructor
    · rintro rfl
      exact ⟨[], rfl, rfl⟩
    · rintro ⟨t, rfl, rfl⟩
      rfl
  | one p =>
    cases s with
    | nil =>
      refine iff_of_false nofun ?_
      rintro ⟨t, ht, c, rfl, -⟩
      contradiction
    | cons c s =>
      rw [rests]
      constructor
      · intro hr
        split at hr
        · rename_i hc
          obtain rfl := List.mem_singleton.1 hr
          exact ⟨[c], rfl, c, rfl, hc⟩
        · contradiction
      · rintro ⟨t, ht, d, rfl, hd⟩
        cases ht
        rw [if_pos hd]
        exact List.mem_singleton_self r
  | seq a b iha ihb =>
    rw [rests, List.mem_flatMap]
    constructor
    · rintro ⟨u, hu, hr⟩
      obtain ⟨t, rfl, ht⟩ := (iha s u).1 hu
      obtain ⟨v, rfl, hv⟩ := (ihb u r).1 hr
      exact ⟨t ++ v, (List.append_assoc ..).symm, t, v, rfl, ht, hv⟩
    · rintro ⟨t, rfl, u, v, rfl, hu, hv⟩
      exact ⟨v ++ r, (iha _ _).2 ⟨u, List.append_assoc .., hu⟩, (ihb _ _).2 ⟨v, rfl, hv⟩⟩
  | alt a b iha ihb =>
    rw [rests, List.mem_append, iha, ihb, ← exists_or]
    simp only [Matches, and_or_left]
  | upTo n a ih =>
    rw [rests, mem_rounds_iff ih]
    constructor
    · rintro ⟨ts, hlen, rfl, hts⟩
      exact ⟨ts.flatten, rfl, ts, hlen, rfl, hts⟩
    · rintro ⟨t, rfl, ts, hlen, rfl, hts⟩
      exact ⟨ts, hlen, rfl, hts⟩
  | many a ih =>
    rw [rests, mem_rounds_iff ih]
    constructor
    · rintro ⟨ts, -, rfl, hts⟩
      exact ⟨ts.flatten, rfl, ts, rfl, hts⟩
    · rintro ⟨t, rfl, ts, rfl, hts⟩
      obtain ⟨us, hlen, hflat, hmem⟩ := exists_short_flatten ts
      refine ⟨us, ?_, by rw [hflat], fun u hu => hts u (hmem u hu)⟩
      exact Nat.le_trans hlen (by rw [List.length_append]; omega)

/-- A pattern accepts exactly the texts that it takes. -/
theorem accepts_iff (p : Pattern) (s : List Char) : p.accepts s = true ↔ p.Matches s := by
  have hmem : p.accepts s = true ↔ [] ∈ p.rests s := by
    simp only [accepts, List.any_eq_true, List.isEmpty_iff, exists_eq_right]
  rw [hmem, mem_rests_iff]
  simp only [List.append_nil, exists_eq_left']

/-! ## Single characters and choices -/

variable {p : Char → Bool} {t : List Char}

theorem matches_char {c : Char} : (char c).Matches t ↔ t = [c] := by
  constructor
  · rintro ⟨d, rfl, hd⟩
    rw [eq_of_beq hd]
  · rintro rfl
    exact ⟨c, rfl, beq_self_eq_true c⟩

theorem matches_opt {a : Pattern} : (opt a).Matches t ↔ t = [] ∨ a.Matches t := by
  constructor
  · rintro ⟨ts, hlen, rfl, hts⟩
    match ts with
    | [] => exact .inl rfl
    | [u] =>
      rw [List.flatten_singleton]
      exact .inr (List.forall_mem_singleton.1 hts)
    | _ :: _ :: _ => exact absurd hlen (by simp)
  · rintro (rfl | ht)
    · exact ⟨[], Nat.zero_le 1, rfl, nofun⟩
    · exact ⟨[t], Nat.le_refl 1, (List.flatten_singleton ..).symm, List.forall_mem_singleton.2 ht⟩

theorem matches_opt_one : (opt (one p)).Matches t ↔ ∃ o : Option Char,
    t = o.toList ∧ ∀ c ∈ o, p c = true := by
  rw [matches_opt]
  constructor
  · rintro (rfl | ⟨c, rfl, hc⟩)
    · exact ⟨none, rfl, nofun⟩
    · exact ⟨some c, rfl, by rintro _ ⟨⟩; exact hc⟩
  · rintro ⟨o, rfl, ho⟩
    cases o with
    | none => exact .inl rfl
    | some c => exact .inr ⟨c, rfl, ho c rfl⟩

/-! ## Rows of characters of a class -/

theorem flatten_of_singles {ts : List (List Char)} (hts : ∀ u ∈ ts, (one p).Matches u) :
    ts.flatten.length = ts.length ∧ ∀ c ∈ ts.flatten, p c = true := by
  induction ts with
  | nil => exact ⟨rfl, nofun⟩
  | cons u ts ih =>
    obtain ⟨⟨c, rfl, hc⟩, hrest⟩ := List.forall_mem_cons.1 hts
    obtain ⟨hlen, hall⟩ := ih hrest
    refine ⟨?_, List.forall_mem_cons.2 ⟨hc, hall⟩⟩
    rw [List.flatten_cons, List.length_append, hlen, Nat.add_comm]
    rfl

theorem exists_singles (ht : ∀ c ∈ t, p c = true) : ∃ ts : List (List Char),
    ts.length = t.length ∧ t = ts.flatten ∧ ∀ u ∈ ts, (one p).Matches u := by
  refine ⟨t.map ([·]), List.length_map .., ?_, List.forall_mem_map.2 fun c hc => ⟨c, rfl, ht c hc⟩⟩
  rw [← List.flatMap_def, List.flatMap_singleton']

theorem matches_upTo_one {n : Nat} :
    (upTo n (one p)).Matches t ↔ t.length ≤ n ∧ ∀ c ∈ t, p c = true := by
  constructor
  · rintro ⟨ts, hlen, rfl, hts⟩
    obtain ⟨heq, hall⟩ := flatten_of_singles hts
    exact ⟨heq.symm ▸ hlen, hall⟩
  · rintro ⟨hlen, hall⟩
    obtain ⟨ts, heq, hflat, hts⟩ := exists_singles hall
    exact ⟨ts, heq.symm ▸ hlen, hflat, hts⟩

theorem matches_many_one : (many (one p)).Matches t ↔ ∀ c ∈ t, p c = true := by
  constructor
  · rintro ⟨ts, rfl, hts⟩
    exact (flatten_of_singles hts).2
  · intro hall
    obtain ⟨ts, -, hflat, hts⟩ := exists_singles hall
    exact ⟨ts, hflat, hts⟩

theorem matches_exactly_one {n : Nat} :
    (exactly n (one p)).Matches t ↔ t.length = n ∧ ∀ c ∈ t, p c = true := by
  induction n generalizing t with
  | zero =>
    constructor
    · rintro rfl
      exact ⟨rfl, nofun⟩
    · rintro ⟨hlen, -⟩
      exact List.length_eq_zero_iff.1 hlen
  | succ n ih =>
    constructor
    · rintro ⟨u, v, rfl, ⟨c, rfl, hc⟩, hv⟩
      obtain ⟨hlen, hall⟩ := ih.1 hv
      refine ⟨?_, List.forall_mem_cons.2 ⟨hc, hall⟩⟩
      rw [List.length_append, hlen, List.length_singleton, Nat.add_comm]
    · rintro ⟨hlen, hall⟩
      obtain ⟨c, v, rfl⟩ := List.exists_cons_of_length_eq_add_one hlen
      obtain ⟨hc, hv⟩ := List.forall_mem_cons.1 hall
      exact ⟨[c], v, rfl, ⟨c, rfl, hc⟩, ih.2 ⟨Nat.succ.inj hlen, hv⟩⟩

theorem matches_between_one {n m : Nat} :
    (between n m (one p)).Matches t ↔
      n ≤ t.length ∧ t.length ≤ n + m ∧ ∀ c ∈ t, p c = true := by
  constructor
  · rintro ⟨u, v, rfl, hu, hv⟩
    obtain ⟨hulen, hu⟩ := matches_exactly_one.1 hu
    obtain ⟨hvlen, hv⟩ := matches_upTo_one.1 hv
    rw [List.length_append]
    exact ⟨by omega, by omega, List.forall_mem_append.2 ⟨hu, hv⟩⟩
  · rintro ⟨hlow, hhigh, hall⟩
    rw [← List.take_append_drop n t] at hall
    obtain ⟨hu, hv⟩ := List.forall_mem_append.1 hall
    refine ⟨t.take n, t.drop n, (List.take_append_drop n t).symm, ?_, ?_⟩
    · exact matches_exactly_one.2 ⟨List.length_take_of_le hlow, hu⟩
    · exact matches_upTo_one.2 ⟨by rw [List.length_drop]; omega, hv⟩

theorem matches_many1_one :
    (many1 (one p)).Matches t ↔ t ≠ [] ∧ ∀ c ∈ t, p c = true := by
  constructor
  · rintro ⟨u, v, rfl, ⟨c, rfl, hc⟩, hv⟩
    exact ⟨nofun, List.forall_mem_cons.2 ⟨hc, matches_many_one.1 hv⟩⟩
  · rintro ⟨hne, hall⟩
    obtain ⟨c, u, rfl⟩ := List.exists_cons_of_ne_nil hne
    obtain ⟨hc, hu⟩ := List.forall_mem_cons.1 hall
    exact ⟨[c], u, rfl, ⟨c, rfl, hc⟩, matches_many_one.2 hu⟩

theorem matches_oneOf {ps : List Pattern} : (oneOf ps).Matches t ↔ ∃ a ∈ ps, a.Matches t := by
  induction ps with
  | nil =>
    refine iff_of_false ?_ ?_
    · rintro ⟨c, -, hc⟩
      contradiction
    · rintro ⟨a, ha, -⟩
      contradiction
  | cons a ps ih =>
    rw [oneOf, Matches, ih]
    simp only [List.mem_cons, or_and_right, exists_or, exists_eq_left]

end Pattern

end ShapeCheck.Text
