import ShapeCheck.Proofs.Session.Invariant

/-
  Runs of a session. A step writes to a field of a context what it records there last, and making a
  context writes that there is no failure (`written?`). One step leaves what it writes, or what was
  there before (`recorded_step`), so after a run the last write counts (`recorded_run`). A
  validation writes all fields, also when a message that cannot be written out stops it: it has
  reset them by then. A request that is refused writes nothing (`written?_of_error`), except that
  failures handed in before the refused one stay. What a validation writes is what validating the
  fields one by one after a reset writes, in any order and as often as one likes
  (`recorded_eachField`).
-/

namespace ShapeCheck

namespace Context

variable {h : Heap} {c : Context}

/-- The outcomes that a request records, one after the other. A validation that is stopped on its
way, by a message that cannot be written out, has reset all fields and recorded those before. -/
def records (h : Heap) (c : Context) : Request → List (String × Option FieldError)
  | .validate (some v) =>
    match (c.validate h (some v)).2, h.mapping? v with
    | .ok _, _ => c.outcomes h v c.root.fieldNames
    | .error _, none => []
    | .error _, some _ =>
      (c.root.fieldNames.map fun k => (k, none)) ++ c.outcomes h v (c.noted h v)
  | .validateOne (some v) (some (.str k)) =>
    match (c.validateOne h (some v) (some (.str k))).2 with
    | .ok _ => [(k, c.found? h v k)]
    | .error _ => []
  | .addInvalid errors => (c.accepted h errors).map fun (k, e) => (k, some e)
  | _ => []

/-- What a request writes to a field, if it writes to it. -/
def written? (h : Heap) (c : Context) (k : String) : Request → Option (Option FieldError)
  | .reset => some none
  | r => Outcome.last? (c.records h r) k

theorem last?_records_validate (hc : c.Compiled) {v : Value} (hm : (h.mapping? v).isSome)
    (k : String) : Outcome.last? (c.records h (.validate (some v))) k =
      if k ∈ c.root.fieldNames then some (if k ∈ c.noted h v then c.found? h v k else none)
      else none := by
  obtain ⟨m, hm'⟩ := Option.isSome_iff_exists.1 hm
  rw [records, hc.closed.validate_eq hm, hm']
  by_cases hall : c.noted h v = c.root.fieldNames
  · rw [if_pos hall, hall, last?_outcomes]
    split <;> rfl
  · rw [if_neg hall]
    dsimp only
    rw [Outcome.last?_append, last?_outcomes, Outcome.last?_map fun _ => none]
    by_cases hk : k ∈ c.noted h v
    · simp only [if_pos hk, if_pos (mem_of_mem_noted hk), Option.some_or]
    · simp only [if_neg hk, Option.none_or]

theorem validate_refused_or_mapping (object : Option Value) :
    (∃ e, c.validate h object = (c.outcome, .error e) ∧ c.records h (.validate object) = []) ∨
      ∃ v, object = some v ∧ (h.mapping? v).isSome := by
  rcases validate_cases (h := h) (c := c) object with ⟨e, he⟩ | hv
  · cases object with
    | none => exact .inl ⟨e, he, rfl⟩
    | some v =>
      cases hm : h.mapping? v with
      | none =>
        refine .inl ⟨e, he, ?_⟩
        rw [records, he, hm]
      | some m => exact .inr ⟨v, rfl, by rw [hm]; rfl⟩
  · exact .inr hv

theorem records_validateOne (hc : c.Compiled) {v : Value} {k : String}
    (hm : (h.mapping? v).isSome) (hk : k ∈ c.root.fieldNames)
    (hnote : h.canNote (c.found? h v k)) :
    c.records h (.validateOne (some v) (some (.str k))) = [(k, c.found? h v k)] := by
  rw [records, validateOne_ok hc hm hk hnote]

theorem records_validateOne_refused {object key : Option Value} {e : Fault}
    (he : c.validateOne h object key = (c.outcome, .error e)) :
    c.records h (.validateOne object key) = [] := by
  unfold records
  split
  · contradiction
  · rename_i hr
    cases hr
    rw [he]
  · contradiction
  · rfl

/-- A request leaves what it writes to a field, or what was recorded before. -/
theorem get?_perform (hs : c.Sound) (h : Heap) (r : Request) (k : String) :
    (c.perform h r).2.1.outcome.get? k = (c.written? h k r).getD (c.outcome.get? k) := by
  cases r with
  | validate object =>
    show (c.validate h object).1.get? k =
      (Outcome.last? (c.records h (.validate object)) k).getD (c.outcome.get? k)
    rcases validate_refused_or_mapping (h := h) (c := c) object with
      ⟨e, he, hrecords⟩ | ⟨v, rfl, hm⟩
    · rw [hrecords, he]
      rfl
    · rw [last?_records_validate hs.compiled hm, get?_validate hs.compiled hm]
      by_cases hk : k ∈ c.root.fieldNames
      · rw [if_pos hk]
        rfl
      · -- a field that is not declared is not written, but it had no failure before either
        rw [if_neg hk, if_neg (mt mem_of_mem_noted hk)]
        cases he : c.outcome.get? k with
        | none => rfl
        | some e => exact absurd (hs.on.named he).1 hk
  | validateOne object key =>
    show (c.validateOne h object key).1.get? k =
      (Outcome.last? (c.records h (.validateOne object key)) k).getD (c.outcome.get? k)
    rcases validateOne_cases (h := h) hs.compiled object key with
      ⟨e, he⟩ | ⟨v, n, rfl, hm, rfl, hn, hnote⟩
    · rw [records_validateOne_refused he, he]
      rfl
    · rw [records_validateOne hs.compiled hm hn hnote, validateOne_ok hs.compiled hm hn hnote]
      exact Outcome.get?_recordAll hs.on.distinct [(n, c.found? h v n)] k
  | clean object => rfl
  | addInvalid errors =>
    show (c.addInvalid h errors).1.get? k =
      (Outcome.last? (c.records h (.addInvalid errors)) k).getD (c.outcome.get? k)
    rw [addInvalid_fst, Outcome.get?_recordAll hs.on.distinct, records]
  | reset => rfl
  | keyErrorMessage key => rfl
  | keyIsInvalid key => rfl
  | invalidKeys => rfl
  | isValid => rfl

/-- A request that is refused writes nothing, if it does not hand failures in and no override is in
the way. -/
theorem written?_of_error (hc : c.Compiled) (hw : c.overrides.Legible) {r : Request}
    (hadd : ∀ errors, r ≠ .addInvalid errors) {e : Fault} (he : (c.perform h r).2.2 = .error e)
    (k : String) : c.written? h k r = none := by
  cases r with
  | validate object =>
    show Outcome.last? (c.records h (.validate object)) k = none
    rcases validate_refused_or_mapping (h := h) (c := c) object with
      ⟨-, -, hrecords⟩ | ⟨v, rfl, hm⟩
    · rw [hrecords]
      rfl
    · rw [perform, validate_ok hc hw hm] at he
      contradiction
  | validateOne object key =>
    show Outcome.last? (c.records h (.validateOne object key)) k = none
    rcases validateOne_cases (h := h) hc object key with
      ⟨f, hf⟩ | ⟨v, n, rfl, hm, rfl, hn, hnote⟩
    · rw [records_validateOne_refused hf]
      rfl
    · rw [perform, validateOne_ok hc hm hn hnote] at he
      contradiction
  | addInvalid errors => exact absurd rfl (hadd errors)
  | reset => contradiction
  | _ => rfl

end Context

namespace Session

/-- The failure recorded for a field of a context, if there is one. -/
def recorded (s : Session) (name k : String) : Option FieldError :=
  (s.contexts.get? name).bind fun c => c.outcome.get? k

/-- What making a context under `made` writes to a context. -/
def writtenByMaking (name made : String) : Except Fault Context → Option (Option FieldError)
  | .ok _ => if made = name then some none else none
  | .error _ => none

/-- What a step writes to a field of a context, if it writes to it. -/
def written? (s : Session) (name k : String) : Step → Option (Option FieldError)
  | .ask context r =>
    if context = name then (s.contexts.get? name).bind fun c => c.written? s.heap k r else none
  | .renew context made messages =>
    (s.contexts.get? context).bind fun c => writtenByMaking name made (c.renew s.heap messages)
  | .make context made root messages =>
    (s.contexts.get? context).bind fun c =>
      writtenByMaking name made (Context.make s.heap c.schema root messages)

/-- The session after some steps. -/
def run (s : Session) (steps : List Step) : Session :=
  steps.foldl (fun s st => (s.step st).1) s

/-- What the steps of a run write to a field of a context, one write after the other. -/
def writes (s : Session) (name k : String) : List Step → List (Option FieldError)
  | [] => []
  | st :: steps => (s.written? name k st).toList ++ (s.step st).1.writes name k steps

variable {s : Session} {name k : String}

theorem recorded_of_get? {c : Context} (hc : s.contexts.get? name = some c) (k : String) :
    s.recorded name k = c.outcome.get? k := by
  rw [recorded, hc]
  rfl

theorem recorded_insert_self (h : Heap) (m : Assoc String Context) (name : String) (c : Context)
    (k : String) : recorded ⟨h, m.insert name c⟩ name k = c.outcome.get? k :=
  recorded_of_get? (Assoc.get?_insert_self m name c) k

theorem recorded_insert_of_ne {name' : String} (hn : name' ≠ name) (h : Heap) (c : Context)
    (k : String) : recorded ⟨h, s.contexts.insert name' c⟩ name k = s.recorded name k := by
  rw [recorded, Assoc.get?_insert_of_ne hn, recorded]

theorem recorded_add {made : Except Fault Context} {name' : String}
    (hd : ∀ d, made = .ok d → d.outcome = {}) :
    (s.add name' made).1.recorded name k =
      (writtenByMaking name name' made).getD (s.recorded name k) := by
  cases made with
  | error e => rfl
  | ok d =>
    rw [writtenByMaking]
    by_cases hn : name' = name
    · rw [if_pos hn, hn]
      show recorded ⟨s.heap, s.contexts.insert name d⟩ name k = none
      rw [recorded_insert_self, hd d rfl]
      rfl
    · rw [if_neg hn]
      exact recorded_insert_of_ne hn s.heap d k

/-- A step leaves what it writes to a field, or what was recorded before. -/
theorem recorded_step (hs : s.Sound) (st : Step) (name k : String) :
    (s.step st).1.recorded name k = (s.written? name k st).getD (s.recorded name k) := by
  cases st with
  | ask context r =>
    rw [step, written?]
    cases hc : s.contexts.get? context with
    | none =>
      by_cases hn : context = name
      · rw [if_pos hn, ← hn, hc]
        rfl
      · rw [if_neg hn]
        rfl
    | some c =>
      by_cases hn : context = name
      · subst hn
        rw [if_pos rfl, hc, recorded_of_get? hc]
        refine Eq.trans (recorded_insert_self _ _ context _ k) ?_
        exact Context.get?_perform (hs _ c hc) s.heap r k
      · rw [if_neg hn]
        exact recorded_insert_of_ne hn _ _ k
  | renew context made messages =>
    rw [step, written?]
    cases hc : s.contexts.get? context with
    | none => rfl
    | some c => exact recorded_add fun d hd => (Context.make_ok hd).2.1
  | make context made root messages =>
    rw [step, written?]
    cases hc : s.contexts.get? context with
    | none => rfl
    | some c => exact recorded_add fun d hd => (Context.make_ok hd).2.1

/-- After a run, the last write to a field counts. -/
theorem recorded_run (hs : s.Sound) (steps : List Step) (name k : String) :
    (s.run steps).recorded name k =
      (s.writes name k steps).getLast?.getD (s.recorded name k) := by
  induction steps generalizing s with
  | nil => rfl
  | cons st steps ih =>
    have hrest : (s.run (st :: steps)).recorded name k =
        ((s.step st).1.writes name k steps).getLast?.getD ((s.step st).1.recorded name k) :=
      ih (hs.step st)
    rw [hrest, recorded_step hs, writes, List.getLast?_append]
    -- the first step's write counts only if the rest of the run writes nothing
    cases ((s.step st).1.writes name k steps).getLast? with
    | none => cases s.written? name k st <;> rfl
    | some e => rfl

/-! ## Validating field by field -/

/-- Validating the named fields of an object one after the other. -/
def eachField (name : String) (object : Option Value) (ks : List String) : List Step :=
  ks.map fun k => .ask name (.validateOne object (some (.str k)))

theorem step_validateOne {c : Context} (hc : s.contexts.get? name = some c) (hcomp : c.Compiled)
    {v : Value} (hm : (s.heap.mapping? v).isSome) {k : String} (hk : k ∈ c.noted s.heap v) :
    (s.step (.ask name (.validateOne (some v) (some (.str k))))).1 = ⟨s.heap,
      s.contexts.insert name { c with outcome := c.outcome.record k (c.found? s.heap v k) }⟩ := by
  rw [step, hc]
  dsimp only
  rw [Context.perform, Context.validateOne_ok hcomp hm (Context.mem_of_mem_noted hk)
    (Context.canNote_of_mem_noted hk)]

/-- The fields are recorded one after the other, whatever their order. -/
theorem get?_run_eachField {c : Context} (hc : s.contexts.get? name = some c)
    (hcomp : c.Compiled) {v : Value} (hm : (s.heap.mapping? v).isSome) {ks : List String}
    (hks : ∀ k ∈ ks, k ∈ c.noted s.heap v) :
    (s.run (eachField name (some v) ks)).contexts.get? name =
      some { c with outcome := c.outcome.recordAll (c.outcomes s.heap v ks) } := by
  induction ks generalizing s c with
  | nil => exact hc
  | cons k ks ih =>
    obtain ⟨hk, hks⟩ := List.forall_mem_cons.1 hks
    have hrun : s.run (eachField name (some v) (k :: ks)) =
        (s.step (.ask name (.validateOne (some v) (some (.str k))))).1.run
          (eachField name (some v) ks) := rfl
    rw [hrun, step_validateOne hc hcomp hm hk]
    exact ih (s := ⟨s.heap, s.contexts.insert name _⟩)
      (Assoc.get?_insert_self s.contexts name _) (hcomp.outcome _) hm hks

/-- What a validation that goes through all fields records is what validating every field after a
reset records. -/
theorem recorded_eachField (hs : s.Sound) {c : Context} (hc : s.contexts.get? name = some c)
    {v : Value} (hm : (s.heap.mapping? v).isSome) (hall : c.noted s.heap v = c.root.fieldNames)
    {ks : List String} (hks : ∀ k, k ∈ ks ↔ k ∈ c.root.fieldNames) (k : String) :
    (s.run (.ask name .reset :: eachField name (some v) ks)).recorded name k =
      (s.step (.ask name (.validate (some v)))).1.recorded name k := by
  have hcomp := (hs _ c hc).compiled
  have hreset : (s.step (.ask name .reset)).1 =
      ⟨s.heap, s.contexts.insert name { c with outcome := c.outcome.reset }⟩ := by
    rw [step, hc]
    rfl
  have hrun : s.run (.ask name .reset :: eachField name (some v) ks) =
      (s.step (.ask name .reset)).1.run (eachField name (some v) ks) := rfl
  have heach := get?_run_eachField (s := ⟨s.heap,
      s.contexts.insert name { c with outcome := c.outcome.reset }⟩)
    (Assoc.get?_insert_self s.contexts name _) (hcomp.outcome _) hm
    fun k hk => hall ▸ (hks k).1 hk
  rw [hrun, hreset, recorded_of_get? heach]
  have hval : (s.step (.ask name (.validate (some v)))).1.recorded name k =
      (c.validate s.heap (some v)).1.get? k := by
    rw [step, hc]
    exact recorded_insert_self _ s.contexts name _ k
  rw [hval, Context.get?_validate hcomp hm, hall]
  show (c.outcome.reset.recordAll (c.outcomes s.heap v ks)).get? k = _
  rw [Outcome.get?_recordAll (Outcome.distinct_reset _), Context.last?_outcomes, Outcome.get?_reset]
  simp only [hks k]
  split <;> rfl

/-- What a validation records does not depend on what was recorded before. -/
theorem validate_outcome {h : Heap} {c : Context} (hc : c.Compiled) {v : Value}
    (hm : (h.mapping? v).isSome) (o : Outcome) :
    ({ c with outcome := o } : Context).validate h (some v) = c.validate h (some v) := by
  rw [hc.closed.validate_eq hm, (hc.outcome o).closed.validate_eq hm]
  rfl

theorem Initial.recorded (hi : Initial s) (name k : String) : s.recorded name k = none := by
  rw [Session.recorded]
  cases hc : s.contexts.get? name with
  | none => rfl
  | some c =>
    rw [Option.bind_some, (hi.fresh hc).2]
    rfl

/-- The last write to a field counts, over all steps of a run. In the beginning there are no
failures; a request that is refused writes nothing if the overrides are legible, but for failures
handed in; a validation that is not refused does not depend on what was there before, and records
what validating the fields one by one records after a reset. -/
theorem last_write_counts (hr : Reachable s) (name : String) :
    (∀ steps k, (s.run steps).recorded name k =
      (s.writes name k steps).getLast?.getD (s.recorded name k)) ∧
    (Initial s → ∀ k, s.recorded name k = none) ∧
    (∀ c r e, s.contexts.get? name = some c → c.overrides.Legible →
      (∀ errors, r ≠ .addInvalid errors) → (c.perform s.heap r).2.2 = .error e →
      ∀ k, s.written? name k (.ask name r) = none) ∧
    ∀ c object valid, s.contexts.get? name = some c →
      (c.validate s.heap object).2 = .ok valid →
      (∀ o, ({ c with outcome := o } : Context).validate s.heap object =
        c.validate s.heap object) ∧
      ∀ ks, (∀ k, k ∈ ks ↔ k ∈ c.root.fieldNames) → ∀ k,
        (s.run [.ask name (.validate object)]).recorded name k =
          (s.run (.ask name .reset :: eachField name object ks)).recorded name k := by
  have hs := hr.sound
  refine ⟨fun steps k => recorded_run hs steps name k, fun hi => hi.recorded name, ?_, ?_⟩
  · intro c r e hc hw hadd he k
    rw [written?, if_pos rfl, hc, Option.bind_some]
    exact Context.written?_of_error (hs _ c hc).compiled hw hadd he k
  · intro c object valid hc hv
    have hcomp := (hs _ c hc).compiled
    obtain ⟨v, rfl, hm⟩ := Context.object_of_validate_ok hv
    have hall := Context.noted_eq_of_validate_ok hcomp hv
    exact ⟨validate_outcome hcomp hm,
      fun ks hks k => (recorded_eachField hs hc hm hall hks k).symm⟩

/-- A refused step and a question leave what was handed in, and validating the fields one by one
gives what validating them at once does. -/
theorem last_write_counts_links : ∃ s : Session, Reachable s ∧
    s.contexts.get? "links" = some linkContext ∧
    (s.run [.ask "links" (.addInvalid handedIn), .ask "links" (.validateOne none none),
      .ask "links" .isValid]).recorded "links" "next" =
        some { name := .str "next", message := .str "removed" } ∧
    ∃ valid, (linkContext.validate s.heap (some (.object 0))).2 = .ok valid ∧ ∀ k,
      (s.run [.ask "links" (.validate (some (.object 0)))]).recorded "links" k =
        (s.run (.ask "links" .reset :: eachField "links" (some (.object 0))
          ["label", "next", "label"])).recorded "links" k := by
  have hr : Reachable ⟨⟨#[.mapping []]⟩, [("links", linkContext)]⟩ := .start (initial_link _)
  obtain ⟨hrun, -, -, heach⟩ := last_write_counts hr "links"
  have hv := Context.validate_ok linkContext_compiled Overrides.legible_nil
    (by rfl : (Heap.mapping? ⟨#[.mapping []]⟩ (.object 0)).isSome = true)
  refine ⟨_, hr, rfl, (hrun _ _).trans (by rfl), _, congrArg Prod.snd hv, ?_⟩
  refine (heach linkContext _ _ rfl (congrArg Prod.snd hv)).2 _ fun k => ?_
  simp only [linkContext, linkType, ObjectType.fieldNames, List.map_cons, List.map_nil,
    List.mem_cons, List.not_mem_nil, or_false]
  tauto

end Session

end ShapeCheck
