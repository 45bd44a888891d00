import ShapeCheck.Proofs.Check.Message
import ShapeCheck.Proofs.Options.Merge
import ShapeCheck.Proofs.Session.Construction
import ShapeCheck.Proofs.Session.Isolation

/-
  Where the text of a message comes from. A context tells some texts if every path that fails in an
  object is reported with the text for it, or else with the default for what is wrong there
  (`Context.Tells`). A validator tells the overrides that it is made with, and where there is none
  those of its options. A context made from it, through any requests and renewals (`Descends`),
  tells the overrides of the last renewal and nothing else.
-/

namespace ShapeCheck

/-- What a failure says of a place: the text for its path, or else the default for what is wrong. -/
def Place.Says (s : Schema) (h : Heap) (text : String → Option String) (p : List String)
    (x : Place) (d : FieldError) : Prop :=
  d.name = .str (dotted p) ∧ ∃ k, x.Complains s h k ∧
    d.message = .str ((text (dotted p)).getD (k.message (dotted p)))

namespace Context

/-- A path fails in an object if it is violated or leads on to one that is. -/
def Fails (h : Heap) (c : Context) (o : Value) (p : List String) (x : Place) : Prop :=
  c.Reaches h o p x ∧ (x.Violated h ∨ ∃ q z, q ≠ [] ∧ c.Reaches h o (p ++ q) z ∧ z.Violated h)

/-- The failures that a validation of an object records, and those inside them. -/
def nodes (h : Heap) (c : Context) (o : Value) : List FieldError :=
  FieldError.forest (c.validate h (some o)).1.errors.values

/-- Whatever object is checked, the texts are what a context reports for the paths that fail, and a
single field is reported as the whole object has it. -/
structure Tells (c : Context) (text : String → Option String) : Prop where
  reports : ∀ {h o p x}, c.Fails h o p x → ∃ d ∈ c.nodes h o, x.Says c.schema h text p d
  reported : ∀ {h o d}, (h.mapping? o).isSome → d ∈ c.nodes h o →
    ∃ p x, c.Fails h o p x ∧ x.Says c.schema h text p d
  single : ∀ {h o k}, (h.mapping? o).isSome → k ∈ c.root.fieldNames →
    (c.validateOne h (some o) (some (.str k))).1 =
      c.outcome.record k ((c.validate h (some o)).1.get? k)

variable {h : Heap} {c d : Context} {o v : Value} {ms : Assoc String String}

theorem ofEntries_map_textEntry (ms : Assoc String String) (p : String) :
    Overrides.ofEntries (ms.map Options.textEntry) p = (ms.get? p).map .str := by
  unfold Overrides.ofEntries
  rw [Options.field?_map_textEntry]
  cases ms.get? p <;> rfl

theorem fails_iff (hc : c.Compiled) {p : List String} {x : Place} : c.Fails h o p x ↔
    c.Reaches h o p x ∧ ∃ e, x.failure? c.schema h c.overrides (dotted p) = some e :=
  and_congr_right fun hr => (hr.exists_failure_iff hc).symm

theorem says_of_failure? (hc : c.Compiled) (hms : c.messages = ms.map Options.textEntry)
    {p : List String} {x : Place} (hr : c.Reaches h o p x) {e : FieldError}
    (he : x.failure? c.schema h c.overrides (dotted p) = some e) :
    x.Says c.schema h ms.get? p e := by
  obtain ⟨k, hk, -, hmessage⟩ :=
    Place.complains_of_failure? hc.schema.toClosed (hr.resolved hc) he
  refine ⟨(hr.failure_eq hc he).1, k, hk, ?_⟩
  rw [hmessage, overrides, hms, ofEntries_map_textEntry]
  cases ms.get? (dotted p) <;> rfl

theorem legible_of_messages (hms : c.messages = ms.map Options.textEntry) :
    c.overrides.Legible := by
  rw [overrides, hms]
  refine Overrides.legible_of_texts fun p hp => ?_
  obtain ⟨q, -, rfl⟩ := List.mem_map.1 hp
  exact ⟨q.2, rfl⟩

/-- A context tells the overrides that it has. -/
theorem tells_of_messages (hc : c.Compiled) (hms : c.messages = ms.map Options.textEntry) :
    c.Tells ms.get? := by
  have hw := legible_of_messages hms
  refine ⟨fun {h o p x} hx => ?_, fun {h o d} ho hd => ?_, fun {h o k} ho hk => ?_⟩
  · obtain ⟨hr, e, he⟩ := (fails_iff hc).1 hx
    obtain ⟨a, es, hm, -⟩ := hr
    have ho : (h.mapping? o).isSome := Option.isSome_iff_exists.2 ⟨_, hm⟩
    exact ⟨e, (mem_forest_validate hc hw ho).2 ⟨p, x, hx.1, he⟩, says_of_failure? hc hms hx.1 he⟩
  · obtain ⟨p, x, hr, he⟩ := (mem_forest_validate hc hw ho).1 hd
    exact ⟨p, x, (fails_iff hc).2 ⟨hr, d, he⟩, says_of_failure? hc hms hr he⟩
  · have hnoted : k ∈ c.noted h o := hc.closed.noted_eq hw ho ▸ hk
    rw [validateOne_ok hc ho hk (canNote_of_mem_noted hnoted), get?_validate hc ho, if_pos hnoted]

/-! ## Contexts from a context -/

/-- A context that is made from another one by requests and renewals, with any data on the way. -/
inductive Descends (c : Context) : Context → Prop
  | self : Descends c c
  | asked {d : Context} (h : Heap) (r : Request) : Descends c d → Descends c (d.perform h r).2.1
  | renewed {d e : Context} {h : Heap} {v : Value} :
      Descends c d → d.renew h v = .ok e → Descends c e

theorem Compiled.of_fixed (hc : c.Compiled) (hf : d.fixed = c.fixed) : d.Compiled := by
  rw [eq_outcome_of_fixed hf]
  exact hc.outcome _

theorem Descends.compiled (hc : c.Compiled) (hd : c.Descends d) : d.Compiled := by
  induction hd with
  | self => exact hc
  | asked h r _ ih => exact ih.of_fixed (fixed_perform h _ r)
  | renewed _ he ih => exact ih.make he

/-- Whatever a context tells, a renewal of it tells the overrides of the renewal. -/
theorem Compiled.renew_tells (hc : c.Compiled) (hv : Options.Overriding h v ms) :
    ∃ d, c.renew h v = .ok d ∧ ∀ e : Context, e.fixed = d.fixed → e.Tells ms.get? := by
  obtain ⟨d, hd⟩ : ∃ d, c.renew h v = .ok d := by
    rw [hc.renew_eq, hv.entriesOf]
    exact ⟨_, rfl⟩
  have hmessages : d.messages = ms.map Options.textEntry := by
    rw [hc.renew_eq, hv.entriesOf] at hd
    rw [← Except.ok.inj hd]
  refine ⟨d, hd, fun e hf => tells_of_messages ((hc.make hd).of_fixed hf) ?_⟩
  rw [eq_outcome_of_fixed hf]
  exact hmessages

end Context

/-! ## Validators -/

namespace Validator

variable {h : Heap} {source options u : Value} {o : Options} {a : Assoc String String}
  {val : Validator}

theorem make_eq_overridden (ho : Options.coerce h options = .ok o)
    (hu : Options.Overriding h u a) :
    make h source options u = ofOptions source (o.overridden a) := by
  unfold make
  rw [ho]
  dsimp only
  rw [hu.withMessages o]

theorem parts_of_ofOptions (hv : ofOptions source o = .ok val) :
    val.options = o ∧ val.context.messages = o.messages.map Options.textEntry := by
  unfold ofOptions at hv
  split at hv
  · contradiction
  · split at hv
    · contradiction
    · split at hv
      · contradiction
      · cases hv
        exact ⟨rfl, rfl⟩

/-- Source that compiles makes a validator if the options name one of its types, or none and there
is an input. -/
theorem exists_ofOptions {s : Schema} {n : String} {t : ObjectType}
    (hs : compile source = .ok s) (hn : rootName? o s = some n) (ht : s.type? n = some t) :
    ∃ val, ofOptions source o = .ok val := by
  have htype : s.typeNamed (.str n) = .ok t := by rw [Schema.typeNamed_str, ht]
  unfold ofOptions
  rw [hs]
  dsimp only
  rw [hn]
  dsimp only
  rw [htype]
  exact ⟨_, rfl⟩

/-- A validator tells the overrides that it is made with over those of its options. -/
theorem tells_of_make (ho : Options.coerce h options = .ok o) (hu : Options.Overriding h u a)
    (hv : make h source options u = .ok val) {d : Context} (hd : d.fixed = val.context.fixed) :
    d.Tells fun p => (a.get? p).or (o.messages.get? p) := by
  have hc : d.Compiled := (compiled_of_make hv).1.of_fixed hd
  have hmessages : d.messages = (o.overridden a).messages.map Options.textEntry := by
    rw [make_eq_overridden ho hu] at hv
    rw [Context.eq_outcome_of_fixed hd]
    exact (parts_of_ofOptions hv).2
  have htext : (o.overridden a).messages.get? = fun p => (a.get? p).or (o.messages.get? p) :=
    funext fun p => Options.get?_overridden hu.nodup o p
  rw [← htext]
  exact Context.tells_of_messages hc hmessages

end Validator

namespace Options

/-- Overrides are merged to the right, from the options to the last message. Two merges in a row
are one merge with the second set entered into the first, the order of the keys included; the root
type stays, and so do the options that were merged into. A validator then reports for every failing
path the override that it is made with, or that of its options, or the default, whatever it has
recorded; and a context that is renewed from it reports the overrides of the renewal or the
default. -/
theorem merged_overrides_tell {h : Heap} {u v w : Value} {a b : Assoc String String}
    (hu : Overriding h u a) (hv : Overriding h v b) (hw : Overriding h w (a.insertAll b))
    (o : Options) :
    ∃ once twice, o.withMessages h u = .ok once ∧ once.withMessages h v = .ok twice ∧
      o.withMessages h w = .ok twice ∧ twice.rootType = o.rootType ∧
      (∀ p, twice.messages.get? p = (b.get? p).or ((a.get? p).or (o.messages.get? p))) ∧
      twice.messages.keys =
        o.messages.keys ++ (a.insertAll b).keys.filter (fun p => !o.messages.contains p) ∧
      (∀ c, h.options? (.object c) = some o → ∃ h₁ c₁ h₂ c₂ h₃ c₃,
        mergeAt h c u = .ok (h₁, c₁) ∧ mergeAt h₁ c₁ v = .ok (h₂, c₂) ∧
        mergeAt h₂ c w = .ok (h₃, c₃) ∧ h₃.options? (.object c₂) = some twice ∧
        h₃.options? (.object c₃) = some twice ∧ h₃.options? (.object c) = some o) ∧
      ∀ options, coerce h options = .ok o →
        (∀ source s n t, compile source = .ok s → Validator.rootName? o s = some n →
          s.type? n = some t → ∃ val, Validator.make h source options u = .ok val) ∧
        ∀ source val, Validator.make h source options u = .ok val → val.options = once ∧
          (∀ d : Context, d.fixed = val.context.fixed →
            d.Tells fun p => (a.get? p).or (o.messages.get? p)) ∧
          ∀ d, val.context.Descends d → ∀ h' v' l, Overriding h' v' l →
            ∃ e, d.renew h' v' = .ok e ∧ ∀ e' : Context, e'.fixed = e.fixed → e'.Tells l.get? := by
  have htwice := overridden_overridden hu.nodup o b
  refine ⟨o.overridden a, o.overridden (a.insertAll b), hu.withMessages o, ?_, hw.withMessages o,
    rfl, fun p => ?_, keys_overridden hw.nodup o, fun c hc => hu.mergeAt_mergeAt hv hw hc,
    fun options ho => ⟨fun source s n t hs hn ht => ?_, fun source val hval => ⟨?_, ?_, ?_⟩⟩⟩
  · rw [hv.withMessages, htwice]
  · rw [← htwice, get?_overridden hv.nodup, get?_overridden hu.nodup]
  · rw [Validator.make_eq_overridden ho hu]
    exact Validator.exists_ofOptions hs hn ht
  · rw [Validator.make_eq_overridden ho hu] at hval
    exact (Validator.parts_of_ofOptions hval).1
  · exact fun d hd => Validator.tells_of_make ho hu hval hd
  · exact fun d hd h' v' l hl =>
      (hd.compiled (Validator.compiled_of_make hval).1).renew_tells hl

open Context

/-- Options with messages for the ring of links. -/
def ringOptions : Options where
  messages := [("next.next", "once round"), ("label", "no label")]

/-- The ring with these options, two sets of overrides, and the second entered into the first. -/
def wordedRing : Heap where
  cells := ring.cells ++ #[.options ringOptions,
    .mapping [(.str "next", .str "broken link"), (.str "label", .str "unnamed")],
    .mapping [(.str "label", .str "blank"), (.str "next.next", .str "closed")],
    .mapping [(.str "next", .str "broken link"), (.str "label", .str "blank"),
      (.str "next.next", .str "closed")]]

/-- The validator with these options and the first set of overrides. -/
def ringValidator : Validator where
  options := ⟨[("next.next", "once round"), ("label", "unnamed"), ("next", "broken link")], none⟩
  context := linkContext.told [(.str "next.next", .str "once round"),
    (.str "label", .str "unnamed"), (.str "next", .str "broken link")]

theorem violated_linkBack : linkBack.Violated wordedRing :=
  .circular rfl (by rfl : wordedRing.mapping? (.object 0) = some (0, _)) (by decide)

theorem fails_linkBack (m : Entries) :
    (linkContext.told m).Fails wordedRing (.object 0) (["next"] ++ ["next"]) linkBack := by
  have hthere : linkThere ∈ Place.row linkType
      [(.str "next", .object 1), (.str "label", .str "a")] [0] := List.mem_cons_self ..
  have hinside : linkBack ∈ linkThere.inner linkSchema wordedRing := List.mem_cons_self ..
  exact ⟨⟨0, _, rfl, .inside hthere (.here hinside)⟩, .inl violated_linkBack⟩

/-- The first link is at fault for where the second one leads. -/
theorem fails_linkThere (m : Entries) :
    (linkContext.told m).Fails wordedRing (.object 0) ["next"] linkThere := by
  have hback : (linkContext.told m).Reaches wordedRing (.object 0) (["next"] ++ ["next"])
      linkBack := (fails_linkBack m).1
  exact ⟨⟨0, _, rfl, .here (List.mem_cons_self ..)⟩,
    .inr ⟨["next"], linkBack, List.cons_ne_nil _ _, hback, violated_linkBack⟩⟩

theorem complains_linkThere {k : Complaint}
    (hk : linkThere.Complains linkSchema wordedRing k) : k = .invalid "Link" := by
  cases hk with
  | absent hv => contradiction
  | null hv => cases hv
  | rejected _ _ hs => contradiction
  | notObject hv _ _ _ hm =>
    cases hv
    contradiction
  | circular hv _ hm ha =>
    cases hv
    cases hm
    contradiction
  | inside _ _ ht =>
    rw [link_of_type? ht]
    rfl

/-- The validator describes the first link in its own words and the second one in those of its
options; a context renewed from it has the default for the first link and other words for the
second. -/
theorem merged_overrides_tell_ring :
    (∃ h₁ c₁ h₂ c₂ h₃ c₃, mergeAt wordedRing 2 (.object 3) = .ok (h₁, c₁) ∧
      mergeAt h₁ c₁ (.object 4) = .ok (h₂, c₂) ∧ mergeAt h₂ 2 (.object 5) = .ok (h₃, c₃) ∧
      h₃.options? (.object c₂) = h₃.options? (.object c₃) ∧
      h₃.options? (.object 2) = some ringOptions) ∧
    Validator.make wordedRing (.str "input Link { next: Link, label: String }") (.object 2)
      (.object 3) = .ok ringValidator ∧
    (∃ d ∈ ringValidator.context.nodes wordedRing (.object 0),
      d.name = .str "next" ∧ d.message = .str "broken link") ∧
    (∃ d ∈ ringValidator.context.nodes wordedRing (.object 0),
      d.name = .str "next.next" ∧ d.message = .str "once round") ∧
    ∃ e, ringValidator.context.renew wordedRing (.object 4) = .ok e ∧
      (∃ d ∈ e.nodes wordedRing (.object 0),
        d.name = .str "next" ∧ d.message = .str "next is not a valid Link") ∧
      ∃ d ∈ e.nodes wordedRing (.object 0),
        d.name = .str "next.next" ∧ d.message = .str "closed" := by
  have hu : Overriding wordedRing (.object 3) [("next", "broken link"), ("label", "unnamed")] :=
    ⟨.mapping rfl, by decide⟩
  have hv : Overriding wordedRing (.object 4) [("label", "blank"), ("next.next", "closed")] :=
    ⟨.mapping rfl, by decide⟩
  have hw : Overriding wordedRing (.object 5)
      [("next", "broken link"), ("label", "blank"), ("next.next", "closed")] :=
    ⟨.mapping rfl, by decide⟩
  have hmake : Validator.make wordedRing (.str "input Link { next: Link, label: String }")
      (.object 2) (.object 3) = .ok ringValidator := by
    unfold Validator.make Validator.ofOptions
    rw [compile_link]
    rfl
  have hrenew : ringValidator.context.renew wordedRing (.object 4) =
      .ok (linkContext.told [(.str "label", .str "blank"), (.str "next.next", .str "closed")]) := by
    rfl
  obtain ⟨_, twice, -, -, -, -, -, -, hmerges, hmakes⟩ :=
    merged_overrides_tell hu hv hw ringOptions
  obtain ⟨-, htells, hrenews⟩ := (hmakes (.object 2) rfl).2 _ _ hmake
  obtain ⟨h₁, c₁, h₂, c₂, h₃, c₃, hm₁, hm₂, hm₃, htwo, hone, hstays⟩ := hmerges 2 rfl
  obtain ⟨e, he, hetells⟩ := hrenews _ .self _ _ _ hv
  obtain rfl := Except.ok.inj (hrenew.symm.trans he)
  refine ⟨⟨h₁, c₁, h₂, c₂, h₃, c₃, hm₁, hm₂, hm₃, htwo.trans hone.symm, hstays⟩, hmake, ?_, ?_,
    _, hrenew, ?_, ?_⟩
  · obtain ⟨d, hd, hname, k, -, hmessage⟩ := (htells _ rfl).reports (fails_linkThere _)
    exact ⟨d, hd, hname, hmessage⟩
  · obtain ⟨d, hd, hname, k, -, hmessage⟩ := (htells _ rfl).reports (fails_linkBack _)
    exact ⟨d, hd, hname, hmessage⟩
  · obtain ⟨d, hd, hname, k, hk, hmessage⟩ := (hetells _ rfl).reports (fails_linkThere _)
    rw [complains_linkThere hk] at hmessage
    exact ⟨d, hd, hname, hmessage⟩
  · obtain ⟨d, hd, hname, k, -, hmessage⟩ := (hetells _ rfl).reports (fails_linkBack _)
    exact ⟨d, hd, hname, hmessage⟩

end Options

end ShapeCheck
