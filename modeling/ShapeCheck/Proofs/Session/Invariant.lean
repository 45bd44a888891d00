import ShapeCheck.Proofs.Session.Recording

/-
  The invariant of a context. Whatever is asked of it, and whether or not that is refused, it keeps
  failures of declared fields only, one for a field and under the field's own name (`Sound`,
  `Sound.perform`). So the two ways to ask for failures agree: the list in the order of the fields
  leaves nothing out, and the bare question whether there are any has the same answer
  (`invalidKeys_of_reachable`).
-/

namespace ShapeCheck

namespace Context

/-- A context over a compiled schema with failures of declared fields only. -/
structure Sound (c : Context) : Prop where
  compiled : c.Compiled
  on : c.outcome.On c.root

variable {h : Heap} {c : Context}

theorem sound_of_fresh (hc : c.Compiled) (ho : c.outcome = {}) : c.Sound :=
  ⟨hc, ho ▸ Outcome.on_reset c.root c.outcome⟩

theorem Sound.outcome (hs : c.Sound) {o : Outcome} (ho : o.On c.root) :
    Sound { c with outcome := o } :=
  ⟨hs.compiled.outcome o, ho⟩

/-! ## Requests -/

theorem named_outcomes (hc : c.Compiled) {v : Value} (hm : (h.mapping? v).isSome)
    {p : String × Option FieldError} (hp : p ∈ c.outcomes h v (c.noted h v)) {e : FieldError}
    (he : p.2 = some e) : p.1 ∈ c.root.fieldNames ∧ e.name = .str p.1 := by
  obtain ⟨k, hk, rfl⟩ := List.mem_map.1 hp
  have hk := mem_of_mem_noted hk
  exact ⟨hk, name_of_found? hc hm hk he⟩

theorem Sound.validate (hs : c.Sound) (h : Heap) (object : Option Value) :
    (c.validate h object).1.On c.root := by
  rcases validate_cases (h := h) (c := c) object with ⟨e, he⟩ | ⟨v, rfl, hm⟩
  · rw [he]
    exact hs.on
  · rw [hs.compiled.closed.validate_eq hm]
    exact (Outcome.on_reset _ _).recordAll fun p hp e => named_outcomes hs.compiled hm hp

theorem Sound.validateOne (hs : c.Sound) (h : Heap) (object key : Option Value) :
    (c.validateOne h object key).1.On c.root := by
  rcases validateOne_cases (h := h) hs.compiled object key with
    ⟨e, he⟩ | ⟨v, k, rfl, hm, rfl, hk, hnote⟩
  · rw [he]
    exact hs.on
  · rw [validateOne_ok hs.compiled hm hk hnote]
    exact hs.on.record fun e he => ⟨hk, name_of_found? hs.compiled hm hk he⟩

theorem Sound.addInvalid (hs : c.Sound) (h : Heap) (errors : Value) :
    (c.addInvalid h errors).1.On c.root := by
  rw [addInvalid_fst]
  refine hs.on.recordAll fun p hp e he => ?_
  obtain ⟨q, hq, rfl⟩ := List.mem_map.1 hp
  cases he
  exact named_of_mem_accepted hq

/-- Every request keeps the invariant. -/
theorem Sound.perform (hs : c.Sound) (h : Heap) (r : Request) : (c.perform h r).2.1.Sound := by
  cases r with
  | validate object => exact hs.outcome (hs.validate h object)
  | validateOne object key => exact hs.outcome (hs.validateOne h object key)
  | clean object => exact hs
  | addInvalid errors => exact hs.outcome (hs.addInvalid h errors)
  | reset => exact hs.outcome (Outcome.on_reset c.root c.outcome)
  | keyErrorMessage key => exact hs
  | keyIsInvalid key => exact hs
  | invalidKeys => exact hs
  | isValid => exact hs

/-! ## What is recorded -/

theorem mem_invalidKeys (hs : c.Sound) {e : FieldError} :
    e ∈ c.invalidKeys ↔ e ∈ c.outcome.errors.values := by
  rw [invalidKeys, Outcome.ordered, List.mem_filterMap, Outcome.mem_values_iff hs.on.distinct]
  constructor
  · rintro ⟨k, -, he⟩
    exact ⟨k, he⟩
  · rintro ⟨k, he⟩
    exact ⟨k, (hs.on.named he).1, he⟩

theorem name_of_mem_errors (hs : c.Sound) {p : String × FieldError} (hp : p ∈ c.outcome.errors) :
    p.2.name = .str p.1 :=
  (hs.on.named ((Outcome.mem_errors_iff hs.on.distinct).1 hp)).2

/-- The recorded failures are listed in the order of the fields. -/
theorem names_ordered_sublist (hs : c.Sound) (names : List String) :
    ((c.outcome.ordered names).map FieldError.name).Sublist (names.map .str) := by
  induction names with
  | nil => exact List.Sublist.refl _
  | cons k names ih =>
    rw [Outcome.ordered] at ih ⊢
    cases he : c.outcome.get? k with
    | none =>
      rw [List.filterMap_cons_none he]
      exact ih.cons _
    | some e =>
      rw [List.filterMap_cons_some he, List.map_cons, List.map_cons, (hs.on.named he).2]
      exact ih.cons_cons _

theorem nodup_names_invalidKeys (hs : c.Sound) : (c.invalidKeys.map FieldError.name).Nodup := by
  have hnames : c.root.fieldNames.Nodup := hs.compiled.schema.nodup_fieldNames hs.compiled.root
  refine (names_ordered_sublist hs c.root.fieldNames).nodup ?_
  exact hnames.map fun _ _ he => Value.str.inj he

theorem nodup_values (hs : c.Sound) : c.outcome.errors.values.Nodup := by
  refine List.Nodup.of_map FieldError.name ?_
  have hkeys : c.outcome.errors.values.map FieldError.name = c.outcome.errors.keys.map .str := by
    rw [Assoc.values, Assoc.keys, List.map_map, List.map_map]
    exact List.map_congr_left fun p hp => name_of_mem_errors hs hp
  rw [hkeys]
  exact hs.on.distinct.map fun _ _ he => Value.str.inj he

/-- Listing the recorded failures leaves nothing out and says nothing twice. -/
theorem invalidKeys_perm (hs : c.Sound) : c.invalidKeys.Perm c.outcome.errors.values := by
  rw [List.perm_ext_iff_of_nodup (List.Nodup.of_map _ (nodup_names_invalidKeys hs))
    (nodup_values hs)]
  exact fun e => mem_invalidKeys hs

theorem isValid_iff (hs : c.Sound) : c.isValid = true ↔ c.invalidKeys = [] := by
  rw [isValid, Outcome.isValid, List.isEmpty_iff]
  constructor
  · intro he
    have hperm := invalidKeys_perm hs
    rw [he] at hperm
    exact List.Perm.eq_nil hperm
  · intro he
    have hperm := invalidKeys_perm hs
    rw [he] at hperm
    exact List.map_eq_nil_iff.1 (List.Perm.eq_nil hperm.symm)

theorem keyIsInvalid_iff (hs : c.Sound) (key : Value) :
    c.keyIsInvalid key = .ok true ↔ ∃ e ∈ c.invalidKeys, e.name = key := by
  constructor
  · intro hk
    cases key with
    | str k =>
      have hsome : (c.outcome.get? k).isSome = true := Except.ok.inj hk
      obtain ⟨e, he⟩ := Option.isSome_iff_exists.1 hsome
      refine ⟨e, (mem_invalidKeys hs).2 ?_, (hs.on.named he).2⟩
      exact (Outcome.mem_values_iff hs.on.distinct).2 ⟨k, he⟩
    | _ =>
      simp only [keyIsInvalid, failure?] at hk
      split at hk <;> cases hk
  · rintro ⟨e, he, rfl⟩
    obtain ⟨k, hk⟩ := (Outcome.mem_values_iff hs.on.distinct).1 ((mem_invalidKeys hs).1 he)
    rw [(hs.on.named hk).2, keyIsInvalid, failure?, hk]
    rfl

end Context

/-! ## Sessions -/

namespace Session

/-- All contexts of a session have the invariant. -/
def Sound (s : Session) : Prop := ∀ name c, s.contexts.get? name = some c → c.Sound

/-- The states in which a session starts: with a validator, or with a context over a compiled
schema. -/
inductive Initial : Session → Prop
  | validator {h : Heap} {source options messages : Value} {v : Validator} (name : String) :
      Validator.make h source options messages = .ok v → Initial ⟨h, [(name, v.context)]⟩
  | context {h : Heap} {source root messages : Value} {s : Schema} {c : Context} (name : String) :
      compile source = .ok s → Context.make h s root messages = .ok c →
      Initial ⟨h, [(name, c)]⟩

/-- The states that steps lead to. Between two steps the data may be changed from outside. -/
inductive Reachable : Session → Prop
  | start {s : Session} : Initial s → Reachable s
  | step {s : Session} (st : Step) : Reachable s → Reachable (s.step st).1
  | change {s : Session} (h : Heap) : Reachable s → Reachable { s with heap := h }

variable {s : Session}

theorem Sound.insert (hs : s.Sound) {c : Context} (hc : c.Sound) (h : Heap) (name : String) :
    Sound ⟨h, s.contexts.insert name c⟩ := by
  intro name' c' hc'
  by_cases hn : name = name'
  · rw [← hn, Assoc.get?_insert_self] at hc'
    cases hc'
    exact hc
  · rw [Assoc.get?_insert_of_ne hn] at hc'
    exact hs name' c' hc'

theorem Sound.add (hs : s.Sound) {c : Context} (hc : c.Sound) {root messages : Value}
    (name : String) :
    (s.add name (Context.make s.heap c.schema root messages)).1.Sound := by
  cases hd : Context.make s.heap c.schema root messages with
  | error e => exact hs
  | ok d =>
    have hd' : d.Sound := Context.sound_of_fresh (hc.compiled.make hd) (Context.make_ok hd).2.1
    exact hs.insert hd' s.heap name

/-- Every step keeps the invariant, whether or not it is refused. -/
theorem Sound.step (hs : s.Sound) (st : Step) : (s.step st).1.Sound := by
  cases st with
  | ask context r =>
    rw [Session.step]
    cases hc : s.contexts.get? context with
    | none => exact hs
    | some c => exact hs.insert ((hs _ c hc).perform s.heap r) _ context
  | renew context name messages =>
    rw [Session.step]
    cases hc : s.contexts.get? context with
    | none => exact hs
    | some c => exact hs.add (hs _ c hc) name
  | make context name root messages =>
    rw [Session.step]
    cases hc : s.contexts.get? context with
    | none => exact hs
    | some c => exact hs.add (hs _ c hc) name

theorem Initial.exists_fresh (hi : Initial s) :
    ∃ name c, s.contexts = [(name, c)] ∧ c.Compiled ∧ c.outcome = {} := by
  cases hi with
  | validator name hv =>
    obtain ⟨hc, ho⟩ := Validator.compiled_of_make hv
    exact ⟨name, _, rfl, hc, ho⟩
  | context name hs hc =>
    exact ⟨name, _, rfl, Context.compiled_of_make hs hc, (Context.make_ok hc).2.1⟩

theorem Initial.fresh (hi : Initial s) {name : String} {c : Context}
    (hc : s.contexts.get? name = some c) : c.Compiled ∧ c.outcome = {} := by
  obtain ⟨name', c', hs, hcomp, ho⟩ := hi.exists_fresh
  rw [hs] at hc
  cases List.mem_singleton.1 (Assoc.mem_of_get? hc)
  exact ⟨hcomp, ho⟩

theorem Reachable.sound (hr : Reachable s) : s.Sound := by
  induction hr with
  | start hi =>
    intro name c hc
    obtain ⟨hcomp, ho⟩ := hi.fresh hc
    exact Context.sound_of_fresh hcomp ho
  | step st _ ih => exact ih.step st
  | change h _ ih => exact ih

/-- In every reachable state of a session, the failures that a context has recorded are those of
declared fields, each under its own name; they are listed in the order of the fields, each once and
none left out; the context is valid exactly if the list is empty, and a key is invalid exactly if
an entry of the list has it as its name. -/
theorem invalidKeys_of_reachable (hr : Reachable s) {name : String} {c : Context}
    (hc : s.contexts.get? name = some c) :
    (∀ k e, (k, e) ∈ c.outcome.errors → k ∈ c.root.fieldNames ∧ e.name = .str k) ∧
      c.invalidKeys.Perm c.outcome.errors.values ∧
      (c.invalidKeys.map FieldError.name).Nodup ∧
      (c.invalidKeys.map FieldError.name).Sublist (c.root.fieldNames.map .str) ∧
      (c.isValid = true ↔ c.invalidKeys = []) ∧
      ∀ key, c.keyIsInvalid key = .ok true ↔ ∃ e ∈ c.invalidKeys, e.name = key := by
  have hs : c.Sound := hr.sound name c hc
  refine ⟨fun k e he => ?_, Context.invalidKeys_perm hs, Context.nodup_names_invalidKeys hs,
    Context.names_ordered_sublist hs c.root.fieldNames, Context.isValid_iff hs,
    Context.keyIsInvalid_iff hs⟩
  exact hs.on.named ((Outcome.mem_errors_iff hs.on.distinct).1 he)

/-- Two failures from outside, the one for the first field last. -/
def handedIn : Value :=
  .tuple 0 [.report 1 { name := .str "label", message := .str "too long" },
    .report 2 { name := .str "next", message := .str "removed" }]

theorem initial_link (h : Heap) : Initial ⟨h, [("links", linkContext)]⟩ :=
  .context "links" compile_link (by rfl : Context.make h linkSchema (.str "Link") .null = _)

theorem invalidKeys_of_handedIn : ∃ s c, Reachable s ∧ s.contexts.get? "links" = some c ∧
    c.outcome.errors.keys = ["label", "next"] ∧
    c.invalidKeys.map FieldError.name = [.str "next", .str "label"] ∧
    c.invalidKeys.Perm c.outcome.errors.values ∧ c.isValid = false := by
  have hr := (Reachable.start (initial_link {})).step (.ask "links" (.addInvalid handedIn))
  have hc : ((⟨{}, [("links", linkContext)]⟩ : Session).step
      (.ask "links" (.addInvalid handedIn))).1.contexts.get? "links" =
      some (linkContext.perform {} (.addInvalid handedIn)).2.1 := by
    rfl
  obtain ⟨-, hperm, -, -, hvalid, -⟩ := invalidKeys_of_reachable hr hc
  refine ⟨_, _, hr, hc, by rfl, by rfl, hperm, ?_⟩
  exact Bool.eq_false_iff.2 fun ht => absurd (hvalid.1 ht) (List.cons_ne_nil _ _)

end Session

end ShapeCheck
