import ShapeCheck.Options

/-
  Which values are options. Well-formed options are a mapping of known names, with overrides from
  texts to texts and a text for the root type, each of which may be nothing or left out
  (`WellFormed`). Besides these, a mapping is accepted whose overrides count as false without being
  nothing or a mapping (`Overlooked`). For every other value there is one refusal, for the first
  cause that its parts give (`Refusal`). A refusal is a notice about the options, with two
  exceptions: unknown names without a common order, which are sorted before they are reported, and
  a value that the notice cannot spell.
-/

namespace ShapeCheck

/-- A fault about options is reported exactly if its notice can be spelled. -/
theorem Fault.reported_options_iff {h : Heap} {e : OptionsError} :
    (∃ n, ((options e).settled h).notice? h = some n ∧ n.family = .configuration) ↔
      ∀ v ∈ (options e).spelled, h.canSpell v = true := by
  rw [settled, ← List.all_eq_true]
  split
  · rename_i hs
    refine iff_of_true ⟨e.notice h, rfl, ?_⟩ hs
    cases e <;> rfl
  · rename_i hs
    exact iff_of_false (fun ⟨_, hn, _⟩ => nomatch hn) hs

namespace Options

/-! ## Overrides and root types -/

/-- An entry from a text to a text. -/
def textEntry (p : String × String) : Value × Value := (.str p.1, .str p.2)

/-- Overrides as they should be given: a mapping from texts to texts, nothing, or not at all. -/
inductive Given (h : Heap) : Option Value → List (String × String) → Prop where
  | absent : Given h none []
  | null : Given h (some .null) []
  | mapping {v : Value} {a : Addr} {ms : List (String × String)} :
      h.mapping? v = some (a, ms.map textEntry) → Given h (some v) ms

/-- A value given for overrides that counts as false without being nothing or a mapping. -/
inductive Hollow (h : Heap) : Option Value → List (String × String) → Prop where
  | intro {v : Value} : h.isTruthy v = false → v ≠ .null → h.mapping? v = none →
      Hollow h (some v) []

/-- Why overrides are refused: they are no mapping and do not count as false, or they have a first
entry that is not from a text to a text. -/
inductive BadMessages (h : Heap) : Option Value → OptionsError → Prop where
  | notMapping {v : Value} : h.isTruthy v = true → h.mapping? v = none →
      BadMessages h (some v) (.messagesNotMapping v)
  | entry {v k m : Value} {a : Addr} {ms : List (String × String)} {after : Entries} :
      h.mapping? v = some (a, ms.map textEntry ++ (k, m) :: after) →
      (∀ p, (k, m) ≠ textEntry p) → BadMessages h (some v) (.badMessage k m)

/-- A root type as it should be given: a text, nothing, or not at all. -/
inductive GivenRoot : Option Value → Option String → Prop where
  | absent : GivenRoot none none
  | null : GivenRoot (some .null) none
  | text {t : String} : GivenRoot (some (.str t)) (some t)

/-- Why a root type is refused: it is neither nothing nor a text. -/
inductive BadRoot : Option Value → OptionsError → Prop where
  | intro {v : Value} : v ≠ .null → (∀ t, v ≠ .str t) → BadRoot (some v) (.rootNotText v)

variable {h : Heap} {v data : Value} {a : Addr} {es : Entries} {ms : List (String × String)}
  {o : Options} {e : OptionsError} {g : Option Value} {f : Fault}

theorem textMessages_ok_iff : textMessages es = .ok ms ↔ es = ms.map textEntry := by
  constructor
  · intro hms
    induction es generalizing ms with
    | nil =>
      cases hms
      rfl
    | cons p es ih =>
      unfold textMessages at hms
      split at hms
      · contradiction
      · rename_i he
        cases he
        cases hrest : textMessages es with
        | error e =>
          rw [hrest] at hms
          contradiction
        | ok l =>
          rw [hrest] at hms
          cases hms
          rw [List.map_cons, ← ih hrest]
          rfl
      · contradiction
  · rintro rfl
    induction ms with
    | nil => rfl
    | cons p ms ih =>
      rw [List.map_cons, textEntry, textMessages, ih]
      rfl

/-- Entries are refused for the first one that is not from a text to a text. -/
theorem textMessages_error_iff : textMessages es = .error e ↔
    ∃ (ms : List (String × String)) (k m : Value) (after : Entries),
      es = ms.map textEntry ++ (k, m) :: after ∧ (∀ p, (k, m) ≠ textEntry p) ∧
        e = .badMessage k m := by
  constructor
  · intro he
    induction es with
    | nil => contradiction
    | cons p es ih =>
      unfold textMessages at he
      split at he
      · contradiction
      · rename_i k m _ heq
        cases heq
        cases hrest : textMessages es with
        | error e' =>
          rw [hrest] at he
          cases he
          obtain ⟨ms, k', m', after, rfl, hbad, rfl⟩ := ih hrest
          exact ⟨(k, m) :: ms, k', m', after, rfl, hbad, rfl⟩
        | ok l =>
          rw [hrest] at he
          contradiction
      · rename_i k m _ hbad heq
        cases heq
        cases he
        refine ⟨[], k, m, es, rfl, ?_, rfl⟩
        rintro ⟨s, t⟩ hp
        cases hp
        exact hbad s t rfl rfl
  · rintro ⟨ms, k, m, after, rfl, hbad, rfl⟩
    induction ms with
    | nil =>
      rw [List.map_nil, List.nil_append, textMessages]
      rintro s t rfl rfl
      exact hbad (s, t) rfl
    | cons p ms ih =>
      rw [List.map_cons, List.cons_append, textEntry, textMessages, ih]
      rfl

/-- What counts as false is given as no overrides. -/
theorem given_or_hollow_of_falsy (hv : h.isTruthy v = false) :
    Given h (some v) [] ∨ Hollow h (some v) [] := by
  cases hm : h.mapping? v with
  | none =>
    by_cases hn : v = .null
    · rw [hn]
      exact .inl .null
    · exact .inr (.intro hv hn hm)
  | some p =>
    obtain ⟨a, es⟩ := p
    rw [Heap.isTruthy_of_mapping? hm] at hv
    cases es with
    | nil => exact .inl (.mapping hm)
    | cons p es => contradiction

/-- The overrides are taken as they should be given, and as none where they only count as false. -/
theorem messagesOf_ok_iff :
    messagesOf h (g.filter h.isTruthy) = .ok ms ↔ Given h g ms ∨ Hollow h g ms := by
  constructor
  · intro hms
    cases g with
    | none =>
      cases hms
      exact .inl .absent
    | some v =>
      cases hv : h.isTruthy v with
      | false =>
        rw [Option.filter_some_neg (by simp [hv])] at hms
        cases hms
        exact given_or_hollow_of_falsy hv
      | true =>
        rw [Option.filter_some_pos hv, messagesOf] at hms
        split at hms
        · contradiction
        · rename_i a es hm
          rw [textMessages_ok_iff.1 hms] at hm
          exact .inl (.mapping hm)
  · rintro (hg | hh)
    · cases hg with
      | absent => rfl
      | null => rfl
      | mapping hm =>
        cases ms with
        | nil =>
          rw [Option.filter_some_neg (by simp [Heap.isTruthy_of_mapping? hm])]
          rfl
        | cons p ms =>
          rw [Option.filter_some_pos (Heap.isTruthy_of_mapping? hm), messagesOf, hm]
          exact textMessages_ok_iff.2 rfl
    · cases hh with
      | intro hv hn hm =>
        rw [Option.filter_some_neg (by simp [hv])]
        rfl

theorem messagesOf_error_iff :
    messagesOf h (g.filter h.isTruthy) = .error e ↔ BadMessages h g e := by
  constructor
  · intro he
    cases g with
    | none => contradiction
    | some v =>
      cases hv : h.isTruthy v with
      | false =>
        rw [Option.filter_some_neg (by simp [hv])] at he
        contradiction
      | true =>
        rw [Option.filter_some_pos hv, messagesOf] at he
        split at he
        · rename_i hm
          cases he
          exact .notMapping hv hm
        · rename_i a es hm
          obtain ⟨ms, k, m, after, rfl, hbad, rfl⟩ := textMessages_error_iff.1 he
          exact .entry hm hbad
  · intro hb
    cases hb with
    | notMapping hv hm =>
      rw [Option.filter_some_pos hv, messagesOf, hm]
    | entry hm hbad =>
      have hv := Heap.isTruthy_of_mapping? hm
      rw [Option.filter_some_pos (by simp [hv]), messagesOf, hm]
      exact textMessages_error_iff.2 ⟨_, _, _, _, rfl, hbad, rfl⟩

theorem rootOf_ok_iff {t : Option String} : rootOf (g.getD .null) = .ok t ↔ GivenRoot g t := by
  constructor
  · intro ht
    cases g with
    | none =>
      cases ht
      exact .absent
    | some v =>
      rw [Option.getD_some] at ht
      unfold rootOf at ht
      split at ht
      · cases ht
        exact .null
      · cases ht
        exact .text
      · contradiction
  · rintro (_ | _ | _) <;> rfl

theorem rootOf_error_iff : rootOf (g.getD .null) = .error e ↔ BadRoot g e := by
  constructor
  · intro he
    cases g with
    | none => contradiction
    | some v =>
      rw [Option.getD_some] at he
      unfold rootOf at he
      split at he
      · contradiction
      · contradiction
      · rename_i hnull htext
        cases he
        exact .intro hnull htext
  · rintro ⟨hnull, htext⟩
    exact rootOf.eq_3 _ hnull htext

/-! ## Mappings of options -/

/-- The keys of a mapping all name options. -/
def Known (es : Entries) : Prop := ∀ k ∈ es.keys, ∃ n ∈ knownOptions, k = .str n

/-- Options as they should be given. -/
def WellFormed (h : Heap) (data : Value) (o : Options) : Prop :=
  ∃ a es, h.mapping? data = some (a, es) ∧ Known es ∧
    Given h (es.field? "custom_messages") o.messages ∧
    GivenRoot (es.field? "root_type") o.rootType

/-- Options whose overrides are none because they only count as false. -/
def Overlooked (h : Heap) (data : Value) (o : Options) : Prop :=
  ∃ a es, h.mapping? data = some (a, es) ∧ Known es ∧
    Hollow h (es.field? "custom_messages") o.messages ∧
    GivenRoot (es.field? "root_type") o.rootType

/-- Why a value is no options, by the first cause that its parts give: that it is no mapping, then
its unknown names, its overrides and its root type. -/
inductive Refusal (h : Heap) (data : Value) : Fault → Prop where
  | notMapping : h.mapping? data = none → Refusal h data (.options (.notOptions data))
  | unordered {a : Addr} {es : Entries} {e : Misuse} : h.mapping? data = some (a, es) →
      Value.sort (unknownKeys es) = .error e → Refusal h data (.misuse e)
  | unknown {a : Addr} {es : Entries} {keys : List Value} : h.mapping? data = some (a, es) →
      ¬Known es → Value.sort (unknownKeys es) = .ok keys →
      Refusal h data (.options (.unknownOptions keys))
  | messages {a : Addr} {es : Entries} {e : OptionsError} : h.mapping? data = some (a, es) →
      Known es → BadMessages h (es.field? "custom_messages") e → Refusal h data (.options e)
  | root {a : Addr} {es : Entries} {ms : List (String × String)} {e : OptionsError} :
      h.mapping? data = some (a, es) → Known es →
      Given h (es.field? "custom_messages") ms ∨ Hollow h (es.field? "custom_messages") ms →
      BadRoot (es.field? "root_type") e → Refusal h data (.options e)

theorem unknownKeys_eq_nil_iff : unknownKeys es = [] ↔ Known es := by
  rw [unknownKeys, List.filter_eq_nil_iff]
  refine forall₂_congr fun k _ => ?_
  simp only [Bool.not_eq_true', Bool.not_eq_false, List.any_eq_true, Value.beq_str_iff]

theorem sort_unknownKeys_of_known (hk : Known es) : Value.sort (unknownKeys es) = .ok [] := by
  rw [unknownKeys_eq_nil_iff.2 hk, Value.sort, Value.disorder?, List.mergeSort_nil]

theorem make_ok_iff {r : Value} :
    make h g r = .ok o ↔ messagesOf h g = .ok o.messages ∧ rootOf r = .ok o.rootType := by
  unfold make
  cases messagesOf h g with
  | error e => exact iff_of_false (fun ho => nomatch ho) fun ho => nomatch ho.1
  | ok ms =>
    cases rootOf r with
    | error e => exact iff_of_false (fun ho => nomatch ho) fun ho => nomatch ho.2
    | ok t =>
      constructor
      · intro ho
        cases ho
        exact ⟨rfl, rfl⟩
      · rintro ⟨hm, ht⟩
        cases hm
        cases ht
        rfl

theorem make_error_iff {r : Value} :
    make h g r = .error f ↔
      (∃ e, messagesOf h g = .error e ∧ f = .options e) ∨
        ∃ ms e, messagesOf h g = .ok ms ∧ rootOf r = .error e ∧ f = .options e := by
  unfold make
  cases messagesOf h g with
  | error e =>
    constructor
    · intro hf
      cases hf
      exact .inl ⟨e, rfl, rfl⟩
    · rintro (⟨e, he, rfl⟩ | ⟨ms, e, hm, -⟩)
      · cases he
        rfl
      · contradiction
  | ok ms =>
    cases rootOf r with
    | error e =>
      constructor
      · intro hf
        cases hf
        exact .inr ⟨ms, e, rfl, rfl, rfl⟩
      · rintro (⟨e, he, -⟩ | ⟨ms, e, -, he, rfl⟩)
        · contradiction
        · cases he
          rfl
    | ok t =>
      refine iff_of_false (fun hf => nomatch hf) ?_
      rintro (⟨e, he, -⟩ | ⟨ms, e, -, he, -⟩) <;> contradiction

/-! ## Acceptance and refusal -/

theorem ofValue_of_known (hm : h.mapping? data = some (a, es)) (hk : Known es) :
    ofValue h data = make h ((es.field? "custom_messages").filter h.isTruthy)
      ((es.field? "root_type").getD .null) := by
  rw [ofValue, hm]
  dsimp only
  rw [unknownKeys_eq_nil_iff.2 hk]

theorem ofValue_of_unordered {e : Misuse} (hm : h.mapping? data = some (a, es))
    (hs : Value.sort (unknownKeys es) = .error e) : ofValue h data = .error (.misuse e) := by
  have hn : unknownKeys es ≠ [] := by
    intro hn
    rw [sort_unknownKeys_of_known (unknownKeys_eq_nil_iff.1 hn)] at hs
    contradiction
  rw [ofValue, hm]
  dsimp only
  split
  · contradiction
  · rw [hs]

theorem ofValue_of_unknown {ks : List Value} (hm : h.mapping? data = some (a, es))
    (hk : ¬Known es) (hs : Value.sort (unknownKeys es) = .ok ks) :
    ofValue h data = .error (.options (.unknownOptions ks)) := by
  have hn : unknownKeys es ≠ [] := fun hn => hk (unknownKeys_eq_nil_iff.1 hn)
  rw [ofValue, hm]
  dsimp only
  split
  · contradiction
  · rw [hs]

theorem ofValue_ok_iff : ofValue h data = .ok o ↔ WellFormed h data o ∨ Overlooked h data o := by
  constructor
  · intro ho
    cases hm : h.mapping? data with
    | none =>
      rw [ofValue, hm] at ho
      contradiction
    | some p =>
      obtain ⟨a, es⟩ := p
      by_cases hk : Known es
      · rw [ofValue_of_known hm hk, make_ok_iff, messagesOf_ok_iff, rootOf_ok_iff] at ho
        obtain ⟨hg | hg, hr⟩ := ho
        · exact .inl ⟨a, es, hm, hk, hg, hr⟩
        · exact .inr ⟨a, es, hm, hk, hg, hr⟩
      · cases hs : Value.sort (unknownKeys es) with
        | error e =>
          rw [ofValue_of_unordered hm hs] at ho
          contradiction
        | ok ks =>
          rw [ofValue_of_unknown hm hk hs] at ho
          contradiction
  · rintro (⟨a, es, hm, hk, hg, hr⟩ | ⟨a, es, hm, hk, hg, hr⟩)
    · rw [ofValue_of_known hm hk, make_ok_iff, messagesOf_ok_iff, rootOf_ok_iff]
      exact ⟨.inl hg, hr⟩
    · rw [ofValue_of_known hm hk, make_ok_iff, messagesOf_ok_iff, rootOf_ok_iff]
      exact ⟨.inr hg, hr⟩

theorem ofValue_error_iff : ofValue h data = .error f ↔ Refusal h data f := by
  constructor
  · intro hf
    cases hm : h.mapping? data with
    | none =>
      rw [ofValue, hm] at hf
      cases hf
      exact .notMapping hm
    | some p =>
      obtain ⟨a, es⟩ := p
      by_cases hk : Known es
      · rw [ofValue_of_known hm hk, make_error_iff] at hf
        rcases hf with ⟨e, he, rfl⟩ | ⟨ms, e, hms, he, rfl⟩
        · exact .messages hm hk (messagesOf_error_iff.1 he)
        · exact .root hm hk (messagesOf_ok_iff.1 hms) (rootOf_error_iff.1 he)
      · cases hs : Value.sort (unknownKeys es) with
        | error e =>
          rw [ofValue_of_unordered hm hs] at hf
          cases hf
          exact .unordered hm hs
        | ok ks =>
          rw [ofValue_of_unknown hm hk hs] at hf
          cases hf
          exact .unknown hm hk hs
  · intro hr
    cases hr with
    | notMapping hm => rw [ofValue, hm]
    | unordered hm hs => exact ofValue_of_unordered hm hs
    | unknown hm hk hs => exact ofValue_of_unknown hm hk hs
    | messages hm hk hb =>
      rw [ofValue_of_known hm hk, make_error_iff]
      exact .inl ⟨_, messagesOf_error_iff.2 hb, rfl⟩
    | root hm hk hg hb =>
      rw [ofValue_of_known hm hk, make_error_iff]
      exact .inr ⟨_, _, messagesOf_ok_iff.2 hg, rootOf_error_iff.2 hb, rfl⟩

/-- Any two unknown names of a value have an order. -/
def Orderly (h : Heap) (data : Value) : Prop :=
  ∀ a es, h.mapping? data = some (a, es) → (unknownKeys es).Pairwise Value.Comparable

theorem Refusal.reported_iff (hf : Refusal h data f) :
    (∃ n, (f.settled h).notice? h = some n ∧ n.family = .configuration) ↔
      Orderly h data ∧ ∀ v ∈ f.spelled, h.canSpell v = true := by
  have hsorted : ∀ {a es ks}, h.mapping? data = some (a, es) →
      Value.sort (unknownKeys es) = .ok ks → Orderly h data := by
    intro a es ks hm hs a' es' hm'
    cases hm.symm.trans hm'
    exact Value.exists_sort_eq_ok_iff.1 ⟨ks, hs⟩
  cases hf with
  | notMapping hm =>
    rw [Fault.reported_options_iff]
    exact (and_iff_right fun a es hm' => nomatch hm.symm.trans hm').symm
  | unordered hm hs =>
    refine iff_of_false (fun ⟨n, hn, _⟩ => nomatch hn) ?_
    rintro ⟨ho, -⟩
    obtain ⟨ks, hks⟩ := Value.exists_sort_eq_ok_iff.2 (ho _ _ hm)
    exact nomatch hs.symm.trans hks
  | unknown hm _ hs =>
    rw [Fault.reported_options_iff]
    exact (and_iff_right (hsorted hm hs)).symm
  | messages hm hk _ =>
    rw [Fault.reported_options_iff]
    exact (and_iff_right (hsorted hm (sort_unknownKeys_of_known hk))).symm
  | root hm hk _ _ =>
    rw [Fault.reported_options_iff]
    exact (and_iff_right (hsorted hm (sort_unknownKeys_of_known hk))).symm

/-- No unknown name of a value holds anything that is no number. -/
def Definite (h : Heap) (data : Value) : Prop :=
  ∀ a es, h.mapping? data = some (a, es) → ∀ k ∈ unknownKeys es, KeyPart.nan ∉ k.keyForm

/-- Which values are options, and why and how the others are refused. Whether unknown names without
a common order are in the way is said only where none of them holds anything that is no number;
otherwise it depends on the order in which they are met. -/
theorem ofValue_accepts_iff (h : Heap) (data : Value) :
    (∀ o, ofValue h data = .ok o ↔ WellFormed h data o ∨ Overlooked h data o) ∧
    (∀ f, ofValue h data = .error f ↔ Refusal h data f) ∧
    ∀ f, Refusal h data f →
      (Orderly h data → (∀ v ∈ f.spelled, h.canSpell v = true) →
        ∃ n, (f.settled h).notice? h = some n ∧ n.family = .configuration) ∧
      ((∃ n, (f.settled h).notice? h = some n ∧ n.family = .configuration) →
        (Definite h data → Orderly h data) ∧ ∀ v ∈ f.spelled, h.canSpell v = true) := by
  refine ⟨fun _ => ofValue_ok_iff, fun _ => ofValue_error_iff, fun f hf => ⟨?_, ?_⟩⟩
  · exact fun ho hspell => hf.reported_iff.2 ⟨ho, hspell⟩
  · intro hn
    obtain ⟨ho, hspell⟩ := hf.reported_iff.1 hn
    exact ⟨fun _ => ho, hspell⟩

/-- Options with one override and a root type. -/
def lidHeap : Heap := ⟨#[
  .mapping [(.str "custom_messages", .object 1), (.str "root_type", .str "Crate")],
  .mapping [(.str "lid", .str "no lid")]]⟩

theorem ofValue_accepts_iff_lid :
    ofValue lidHeap (.object 0) = .ok ⟨[("lid", "no lid")], some "Crate"⟩ ∧
      ofValue lidHeap (.str "lid") = .error (.options (.notOptions (.str "lid"))) ∧
      ∃ n, ((Fault.options (.notOptions (.str "lid"))).settled lidHeap).notice? lidHeap = some n ∧
        n.family = .configuration := by
  have hm : lidHeap.mapping? (.object 0) =
      some (0, [(.str "custom_messages", .object 1), (.str "root_type", .str "Crate")]) := rfl
  have hk : Known [(.str "custom_messages", .object 1), (.str "root_type", .str "Crate")] := by
    rintro k (_ | ⟨_, _ | ⟨_, ⟨⟩⟩⟩)
    · exact ⟨"custom_messages", by decide, rfl⟩
    · exact ⟨"root_type", by decide, rfl⟩
  have hg : Given lidHeap (some (.object 1)) [("lid", "no lid")] := .mapping (a := 1) rfl
  have hr : Refusal lidHeap (.str "lid") (.options (.notOptions (.str "lid"))) := .notMapping rfl
  have hs : Orderly lidHeap (.str "lid") := nofun
  exact ⟨((ofValue_accepts_iff lidHeap (.object 0)).1 _).2 (.inl ⟨0, _, hm, hk, hg, .text⟩),
    ((ofValue_accepts_iff lidHeap (.str "lid")).2.1 _).2 hr,
    ((ofValue_accepts_iff lidHeap (.str "lid")).2.2 _ hr).1 hs nofun⟩

/-- An empty list given for overrides is overlooked, although no options with it are well-formed;
and two unknown names, a number and a text, are no notice about the options. -/
theorem ofValue_overlooks_and_slips :
    (ofValue ⟨#[.mapping [(.str "custom_messages", .object 1)], .list []]⟩ (.object 0) = .ok {} ∧
      ∀ o, ¬WellFormed ⟨#[.mapping [(.str "custom_messages", .object 1)], .list []]⟩
        (.object 0) o) ∧
    ofValue ⟨#[.mapping [(.int 1, .int 1), (.str "a", .int 1)]]⟩ (.object 0) =
      .error (.misuse .unordered) ∧
    ∀ h, ((Fault.misuse .unordered).settled h).notice? h = none := by
  refine ⟨⟨rfl, ?_⟩, rfl, fun h => rfl⟩
  rintro o ⟨a, es, hm, -, hg, -⟩
  cases hm
  cases hg with
  | mapping hm => contradiction

end Options

end ShapeCheck
