import ShapeCheck.Proofs.Options.Acceptance
import ShapeCheck.Proofs.Session.Invariant

/-
  Contexts do not see each other. A request leaves all of a context but its outcome (`fixed`), and
  what it does to the data depends on that part only, so two sessions stay alike for a context
  (`Agree`) if both take a step, and also if only one of them takes a step that records something
  in another context. All that steps on a context show is then the same in a run and in the run
  without those steps (`Agree.sights_filter`). A new context has no outcome, and its overrides are
  read from the data once, when it is made.
-/

namespace ShapeCheck

/-! ## What a request leaves -/

/-- Whether a request is one to record or to forget failures. -/
def Request.records : Request → Bool
  | .validate _ => true
  | .validateOne .. => true
  | .addInvalid _ => true
  | .reset => true
  | _ => false

namespace Context

/-- A context without what it has recorded. -/
def fixed (c : Context) : Context := { c with outcome := {} }

theorem eq_outcome_of_fixed {c d : Context} (hf : d.fixed = c.fixed) :
    d = { c with outcome := d.outcome } := by
  cases c
  cases d
  cases hf
  rfl

theorem fixed_perform (h : Heap) (c : Context) (r : Request) :
    (c.perform h r).2.1.fixed = c.fixed := by
  cases r <;> rfl

/-- What a request does to the data does not depend on what was recorded before. -/
theorem heap_perform_fixed (h : Heap) (c : Context) (r : Request) :
    (c.fixed.perform h r).1 = (c.perform h r).1 := by
  cases r <;> rfl

theorem heap_perform_of_records {r : Request} (hr : r.records = true) (h : Heap) (c : Context) :
    (c.perform h r).1 = h := by
  cases r with
  | clean object => contradiction
  | _ => rfl

/-- A context is renewed whenever its new overrides can be read, and has nothing but these. -/
theorem Compiled.renew_eq {c : Context} (hc : c.Compiled) (h : Heap) (messages : Value) :
    c.renew h messages =
      match h.entriesOf messages with
      | .error e => .error (.misuse e)
      | .ok es => .ok { schema := c.schema, root := c.root, messages := es, outcome := {} } := by
  have hroot : c.schema.typeNamed (.str c.root.name) = .ok c.root := by
    rw [Schema.typeNamed, Schema.getType, hc.root]
    rfl
  unfold renew Context.make
  cases h.entriesOf messages with
  | error e => rw [hroot]
  | ok es => rw [hroot]

end Context

/-! ## Overrides of a validator -/

namespace Options

/-- Further overrides are entered after those that the options have. -/
theorem entries_withMessages {o o' : Options} {h : Heap} {messages : Value}
    (ho : o.withMessages h messages = .ok o') :
    ∃ es, h.entriesOf messages = .ok es ∧ o'.entries = o.entries.insertAll es := by
  unfold withMessages merge? at ho
  cases ht : h.isTruthy messages with
  | false =>
    rw [ht] at ho
    cases ho
    refine ⟨[], ?_, rfl⟩
    rw [Heap.entriesOf, ht]
    rfl
  | true =>
    rw [ht] at ho
    cases hm : h.mapping? messages with
    | none =>
      rw [hm] at ho
      contradiction
    | some p =>
      obtain ⟨a, es⟩ := p
      rw [hm] at ho
      refine ⟨es, ?_, ?_⟩
      · rw [Heap.entriesOf, ht, hm]
        rfl
      · cases hl : textMessages (o.entries.insertAll es) with
        | error e =>
          dsimp only at ho
          rw [hl] at ho
          contradiction
        | ok l =>
          dsimp only at ho
          rw [hl] at ho
          cases ho
          exact (textMessages_ok_iff.1 hl).symm

end Options

theorem Validator.messages_of_make {h : Heap} {source options messages : Value} {v : Validator}
    (hv : make h source options messages = .ok v) :
    ∃ o es, Options.coerce h options = .ok o ∧ h.entriesOf messages = .ok es ∧
      v.context.messages = o.entries.insertAll es := by
  unfold make at hv
  split at hv
  · contradiction
  · rename_i o ho
    split at hv
    · contradiction
    · rename_i o' ho'
      obtain ⟨es, hes, he⟩ := Options.entries_withMessages ho'
      refine ⟨o, es, ho, hes, ?_⟩
      unfold ofOptions at hv
      split at hv
      · contradiction
      · split at hv
        · contradiction
        · split at hv
          · contradiction
          · cases hv
            exact he

/-! ## What a step shows -/

/-- The context that a step is on. -/
def Step.target : Step → String
  | .ask context _ => context
  | .renew context .. => context
  | .make context .. => context

/-- The name under which a step may put a new context. -/
def Step.made? : Step → Option String
  | .ask .. => none
  | .renew _ name _ => some name
  | .make _ name .. => some name

/-- Whether a step is left in a run when other contexts than the named one are not to record. -/
def Step.kept (name : String) : Step → Bool
  | .ask context r => context == name || !r.records
  | _ => true

/-- What happens in a session: a step, or a change of the data from outside. -/
inductive Event where
  | step (st : Step)
  | change (h : Heap)

def Event.kept (name : String) : Event → Bool
  | .step st => st.kept name
  | .change _ => true

/-- What there is to see after a step on a context: the answer, the data, the context, and the
context that the step made or the reason why it made none. -/
structure Sight where
  reply : Except Fault Reply
  heap : Heap
  context : Option Context
  made : Option (Except Fault Context)

namespace Session

/-- The context that a step makes, or the reason why it makes none. -/
def making? (s : Session) : Step → Option (Except Fault Context)
  | .ask .. => none
  | .renew context _ messages => (s.contexts.get? context).map fun c => c.renew s.heap messages
  | .make context _ root messages =>
    (s.contexts.get? context).map fun c => Context.make s.heap c.schema root messages

def sight (s : Session) (name : String) (st : Step) : Sight where
  reply := (s.step st).2
  heap := (s.step st).1.heap
  context := (s.step st).1.contexts.get? name
  made := s.making? st

/-- What an event shows of a context, if it is a step on it. -/
def sight? (s : Session) (name : String) : Event → Option Sight
  | .step st => if st.target = name then some (s.sight name st) else none
  | .change _ => none

def next (s : Session) : Event → Session
  | .step st => (s.step st).1
  | .change h => { s with heap := h }

/-- The session after some events. -/
def after (s : Session) (events : List Event) : Session := events.foldl next s

/-- What the steps on a context show in a run, one after the other. -/
def sights (s : Session) (name : String) : List Event → List Sight
  | [] => []
  | e :: events => (s.sight? name e).toList ++ (s.next e).sights name events

/-- A context of the session without what it has recorded. -/
def fixed? (s : Session) (name : String) : Option Context :=
  (s.contexts.get? name).map Context.fixed

variable {s s' : Session} {name : String}

theorem fixed?_insert_self (h : Heap) (m : Assoc String Context) (name : String) (c : Context) :
    fixed? ⟨h, m.insert name c⟩ name = some c.fixed := by
  rw [fixed?, Assoc.get?_insert_self]
  rfl

theorem fixed?_insert_of_ne {name' : String} (hn : name' ≠ name) (h : Heap)
    (m : Assoc String Context) (c : Context) :
    fixed? ⟨h, m.insert name' c⟩ name = (m.get? name).map Context.fixed := by
  rw [fixed?, Assoc.get?_insert_of_ne hn]

/-- A step that makes a context adds what it makes. -/
theorem step_of_made? {st : Step} {made : String} (hm : st.made? = some made) :
    s.step st = ((s.making? st).map (s.add made)).getD (s, .ok .done) := by
  cases st with
  | ask context r => contradiction
  | renew context n messages =>
    cases hm
    rw [step, making?]
    cases s.contexts.get? context <;> rfl
  | make context n root messages =>
    cases hm
    rw [step, making?]
    cases s.contexts.get? context <;> rfl

theorem fixed?_ask (context : String) (r : Request) :
    (s.step (.ask context r)).1.fixed? name = s.fixed? name := by
  rw [step]
  cases hc : s.contexts.get? context with
  | none => rfl
  | some c =>
    by_cases hn : context = name
    · subst hn
      refine (fixed?_insert_self _ s.contexts context _).trans ?_
      rw [Context.fixed_perform, fixed?, hc]
      rfl
    · exact fixed?_insert_of_ne hn _ s.contexts _

theorem fixed?_of_made? {st : Step} {made : String} (hm : st.made? = some made)
    (hn : made ≠ name) : (s.step st).1.fixed? name = s.fixed? name := by
  rw [step_of_made? hm]
  cases s.making? st with
  | none => rfl
  | some r =>
    cases r with
    | error e => rfl
    | ok c => exact fixed?_insert_of_ne hn s.heap s.contexts c

/-- A step leaves every context but its outcome, except for one that it puts in the place of it. -/
theorem fixed?_step (st : Step) (hm : st.made? ≠ some name) :
    (s.step st).1.fixed? name = s.fixed? name := by
  cases st with
  | ask context r => exact fixed?_ask context r
  | renew context made messages => exact fixed?_of_made? rfl fun hn => hm (congrArg some hn)
  | make context made root messages => exact fixed?_of_made? rfl fun hn => hm (congrArg some hn)

/-- No run touches more of a context than its outcome, and no change of the data does. -/
theorem fixed?_after (events : List Event)
    (hm : ∀ st, .step st ∈ events → st.made? ≠ some name) :
    (s.after events).fixed? name = s.fixed? name := by
  induction events generalizing s with
  | nil => rfl
  | cons e events ih =>
    have hrest : (s.after (e :: events)).fixed? name = (s.next e).fixed? name :=
      ih fun st hst => hm st (List.mem_cons_of_mem _ hst)
    rw [hrest]
    cases e with
    | step st => exact fixed?_step st (hm st (List.mem_cons_self ..))
    | change h => rfl

/-! ## Sessions that agree -/

/-- Two sessions with the same data and the same context of a name, all other contexts being the
same but for their outcomes. -/
structure Agree (name : String) (s s' : Session) : Prop where
  heap : s.heap = s'.heap
  context : s.contexts.get? name = s'.contexts.get? name
  fixed : ∀ n, s.fixed? n = s'.fixed? n

namespace Agree

theorem refl (name : String) (s : Session) : Agree name s s := ⟨rfl, rfl, fun _ => rfl⟩

theorem trans {s'' : Session} (h₁ : Agree name s s') (h₂ : Agree name s' s'') :
    Agree name s s'' where
  heap := h₁.heap.trans h₂.heap
  context := h₁.context.trans h₂.context
  fixed n := (h₁.fixed n).trans (h₂.fixed n)

/-- A context is in both sessions or in neither. -/
theorem lookup (ha : Agree name s s') (n : String) :
    (s.contexts.get? n = none ∧ s'.contexts.get? n = none) ∨
      ∃ c c', s.contexts.get? n = some c ∧ s'.contexts.get? n = some c' ∧
        c.fixed = c'.fixed ∧ (n = name → c = c') := by
  have hf := ha.fixed n
  unfold fixed? at hf
  cases hc : s.contexts.get? n with
  | none =>
    rw [hc] at hf
    exact .inl ⟨rfl, Option.map_eq_none_iff.1 hf.symm⟩
  | some c =>
    rw [hc] at hf
    obtain ⟨c', hc', hfix⟩ := Option.map_eq_some_iff.1 hf.symm
    refine .inr ⟨c, c', rfl, hc', hfix.symm, fun hn => ?_⟩
    have hname := ha.context
    rw [← hn, hc, hc'] at hname
    exact Option.some.inj hname

theorem insert (ha : Agree name s s') {c c' : Context} {n : String} (hf : c.fixed = c'.fixed)
    (hc : n = name → c = c') (h : Heap) :
    Agree name ⟨h, s.contexts.insert n c⟩ ⟨h, s'.contexts.insert n c'⟩ := by
  refine ⟨rfl, ?_, fun k => ?_⟩
  · by_cases hn : n = name
    · show (s.contexts.insert n c).get? name = (s'.contexts.insert n c').get? name
      rw [hn, Assoc.get?_insert_self, Assoc.get?_insert_self, hc hn]
    · show (s.contexts.insert n c).get? name = (s'.contexts.insert n c').get? name
      rw [Assoc.get?_insert_of_ne hn, Assoc.get?_insert_of_ne hn]
      exact ha.context
  · by_cases hn : n = k
    · rw [hn, fixed?_insert_self, fixed?_insert_self, hf]
    · rw [fixed?_insert_of_ne hn, fixed?_insert_of_ne hn]
      exact ha.fixed k

theorem add (ha : Agree name s s') (n : String) (r : Except Fault Context) :
    Agree name (s.add n r).1 (s'.add n r).1 ∧ (s.add n r).2 = (s'.add n r).2 := by
  cases r with
  | error e => exact ⟨ha, rfl⟩
  | ok c =>
    have hins := ha.insert (n := n) (rfl : c.fixed = c.fixed) (fun _ => rfl) s.heap
    refine ⟨?_, rfl⟩
    show Agree name ⟨s.heap, s.contexts.insert n c⟩ ⟨s'.heap, s'.contexts.insert n c⟩
    rw [← ha.heap]
    exact hins

/-- Contexts are made alike: their outcomes do not matter. -/
theorem making? (ha : Agree name s s') (st : Step) : s.making? st = s'.making? st := by
  cases st with
  | ask context r => rfl
  | renew context made messages =>
    rw [Session.making?, Session.making?, ha.heap]
    rcases ha.lookup context with ⟨hc, hc'⟩ | ⟨c, c', hc, hc', hf, -⟩
    · rw [hc, hc']
    · have hrenew : c.fixed.renew s'.heap messages = c'.fixed.renew s'.heap messages := by rw [hf]
      rw [hc, hc']
      exact congrArg some hrenew
  | make context made root messages =>
    rw [Session.making?, Session.making?, ha.heap]
    rcases ha.lookup context with ⟨hc, hc'⟩ | ⟨c, c', hc, hc', hf, -⟩
    · rw [hc, hc']
    · have hschema : c.fixed.schema = c'.fixed.schema := by rw [hf]
      have hmake : Context.make s'.heap c.schema root messages =
          Context.make s'.heap c'.schema root messages :=
        congrArg (Context.make s'.heap · root messages) hschema
      rw [hc, hc']
      exact congrArg some hmake

/-- A step that makes a context puts it in both sessions, or is refused in both. -/
theorem of_made? {st : Step} {made : String} (ha : Agree name s s') (hm : st.made? = some made) :
    Agree name (s.step st).1 (s'.step st).1 ∧ (s.step st).2 = (s'.step st).2 := by
  rw [step_of_made? hm, step_of_made? hm, ha.making? st]
  cases s'.making? st with
  | none => exact ⟨ha, rfl⟩
  | some r => exact ha.add made r

/-- A request keeps the agreement, and has the same answer if it is one to the named context. -/
theorem ask (ha : Agree name s s') (context : String) (r : Request) :
    Agree name (s.step (.ask context r)).1 (s'.step (.ask context r)).1 ∧
      (context = name → (s.step (.ask context r)).2 = (s'.step (.ask context r)).2) := by
  rw [Session.step, Session.step]
  rcases ha.lookup context with ⟨hc, hc'⟩ | ⟨c, c', hc, hc', hf, hn⟩
  · rw [hc, hc']
    exact ⟨ha, fun _ => rfl⟩
  · have hheap : (c'.perform s.heap r).1 = (c.perform s.heap r).1 := by
      rw [← Context.heap_perform_fixed, ← hf, Context.heap_perform_fixed]
    have hfix : (c.perform s.heap r).2.1.fixed = (c'.perform s.heap r).2.1.fixed := by
      rw [Context.fixed_perform, Context.fixed_perform, hf]
    rw [hc, hc', ← ha.heap]
    dsimp only
    rw [hheap]
    refine ⟨ha.insert hfix (fun he => ?_) _, fun he => ?_⟩
    · rw [hn he]
    · rw [hn he]

/-- A step that both sessions take keeps the agreement, and has the same answer if it is one on the
named context. -/
theorem step (ha : Agree name s s') (st : Step) :
    Agree name (s.step st).1 (s'.step st).1 ∧
      (st.target = name → (s.step st).2 = (s'.step st).2) := by
  cases st with
  | ask context r => exact ha.ask context r
  | renew context made messages =>
    obtain ⟨hstep, hreply⟩ := ha.of_made? (rfl : (Step.renew context made messages).made? = _)
    exact ⟨hstep, fun _ => hreply⟩
  | make context made root messages =>
    obtain ⟨hstep, hreply⟩ := ha.of_made? (rfl : (Step.make context made root messages).made? = _)
    exact ⟨hstep, fun _ => hreply⟩

theorem next (ha : Agree name s s') (e : Event) : Agree name (s.next e) (s'.next e) := by
  cases e with
  | step st => exact (ha.step st).1
  | change h => exact ⟨rfl, ha.context, ha.fixed⟩

theorem sight? (ha : Agree name s s') (e : Event) : s.sight? name e = s'.sight? name e := by
  cases e with
  | change h => rfl
  | step st =>
    rw [Session.sight?, Session.sight?]
    by_cases ht : st.target = name
    · obtain ⟨hstep, hreply⟩ := ha.step st
      rw [if_pos ht, if_pos ht, sight, sight, hreply ht, hstep.heap, hstep.context, ha.making? st]
    · rw [if_neg ht, if_neg ht]

end Agree

/-- A step that records something in another context leaves the agreement, and shows nothing. -/
theorem agree_next_of_not_kept {e : Event} (hk : e.kept name = false) (s : Session) :
    Agree name (s.next e) s ∧ s.sight? name e = none := by
  cases e with
  | change h => contradiction
  | step st =>
    cases st with
    | renew context made messages => contradiction
    | make context made root messages => contradiction
    | ask context r =>
      obtain ⟨hn, hr⟩ := Bool.or_eq_false_iff.1 hk
      have hne : context ≠ name := fun he => by
        rw [he, beq_self_eq_true] at hn
        contradiction
      have hrec : r.records = true := by
        rw [Bool.not_eq_false'] at hr
        exact hr
      refine ⟨?_, if_neg hne⟩
      rw [next, step]
      cases hc : s.contexts.get? context with
      | none => exact Agree.refl name s
      | some c =>
        have hfix : ∀ n, fixed? (s.step (.ask context r)).1 n = s.fixed? n :=
          fun n => fixed?_step (.ask context r) (Option.some_ne_none n).symm
        rw [step, hc] at hfix
        exact ⟨Context.heap_perform_of_records hrec s.heap c, Assoc.get?_insert_of_ne hne _ _, hfix⟩

/-- What a run shows of a context is what the run shows in which other contexts do not record. -/
theorem Agree.sights_filter (ha : Agree name s s') (events : List Event) :
    s.sights name events = s'.sights name (events.filter (·.kept name)) := by
  induction events generalizing s s' with
  | nil => rfl
  | cons e events ih =>
    cases hk : e.kept name with
    | true =>
      rw [List.filter_cons_of_pos hk, sights, sights, ha.sight? e, ih (ha.next e)]
    | false =>
      obtain ⟨hnext, hnone⟩ := agree_next_of_not_kept hk s
      have hk' : ¬e.kept name = true := by
        rw [hk]
        exact Bool.false_ne_true
      rw [List.filter_cons_of_neg hk', sights, hnone, ih (hnext.trans ha)]
      rfl

/-- Contexts do not see each other. In every session that steps lead to: leaving out of a run what
other contexts record or forget changes nothing of what the steps on a context show; a context
made from another one has the schema and the root of that one, the overrides passed to it as they
are then, and no failures; and whatever happens later, also to the data, a context keeps all this
but its failures. The first context has the overrides of its options and, over these, those passed
to it. -/
theorem contexts_isolated (hr : Reachable s) :
    (∀ name events, s.sights name events = s.sights name (events.filter (·.kept name))) ∧
    (∀ context c made messages, s.contexts.get? context = some c →
      s.step (.renew context made messages) =
        match s.heap.entriesOf messages with
        | .error e => (s, .error (.misuse e))
        | .ok es => (⟨s.heap, s.contexts.insert made
            { schema := c.schema, root := c.root, messages := es, outcome := {} }⟩, .ok .done)) ∧
    (∀ name c events, s.contexts.get? name = some c →
      (∀ st, .step st ∈ events → st.made? ≠ some name) →
      ∃ o, (s.after events).contexts.get? name = some { c with outcome := o }) ∧
    ∀ h source options messages v, Validator.make h source options messages = .ok v →
      v.context.outcome = {} ∧ ∃ o es, Options.coerce h options = .ok o ∧
        h.entriesOf messages = .ok es ∧ v.context.messages = o.entries.insertAll es := by
  refine ⟨fun name events => (Agree.refl name s).sights_filter events, ?_, ?_, ?_⟩
  · intro context c made messages hc
    have hrenew := (hr.sound context c hc).compiled.renew_eq s.heap messages
    rw [step, hc]
    dsimp only
    rw [hrenew]
    cases s.heap.entriesOf messages <;> rfl
  · intro name c events hc hm
    have hfix : (s.after events).fixed? name = some c.fixed := by
      rw [fixed?_after events hm, fixed?, hc]
      rfl
    obtain ⟨d, hd, hf⟩ := Option.map_eq_some_iff.1 hfix
    exact ⟨d.outcome, hd.trans (congrArg some (Context.eq_outcome_of_fixed hf))⟩
  · intro h source options messages v hv
    exact ⟨(Validator.compiled_of_make hv).2, Validator.messages_of_make hv⟩

/-- A link, and overrides for it. -/
def linkHeap : Heap := ⟨#[.mapping [], .mapping [(.str "next.label", .str "lost")]]⟩

/-- Two contexts take turns, and the second clears away the overrides it was made with. -/
def turns : List Event :=
  [.step (.renew "links" "child" (.object 1)),
    .step (.ask "links" (.validate (some (.object 0)))),
    .step (.ask "child" (.clean (some (.object 1)))),
    .step (.ask "links" .reset),
    .step (.ask "child" (.validate (some (.object 0)))),
    .step (.ask "links" (.addInvalid handedIn)),
    .step (.ask "child" .invalidKeys)]

theorem contexts_isolated_turns : ∃ s, Reachable s ∧ s.contexts.get? "links" = some linkContext ∧
    s.sights "child" turns = s.sights "child"
      [.step (.renew "links" "child" (.object 1)), .step (.ask "child" (.clean (some (.object 1)))),
        .step (.ask "child" (.validate (some (.object 0)))), .step (.ask "child" .invalidKeys)] ∧
    ∃ child, s.step (.renew "links" "child" (.object 1)) = (child, .ok .done) ∧
      Reachable child ∧ (child.after turns.tail).heap.mapping? (.object 1) = some (1, []) ∧
      ∃ o, (child.after turns.tail).contexts.get? "child" =
        some { linkContext with messages := [(.str "next.label", .str "lost")], outcome := o } := by
  have hr : Reachable ⟨linkHeap, [("links", linkContext)]⟩ := .start (initial_link _)
  obtain ⟨hsights, hrenew, -⟩ := contexts_isolated hr
  have hstep := hrenew "links" linkContext "child" (.object 1) (by rfl)
  have hchild := hr.step (.renew "links" "child" (.object 1))
  obtain ⟨-, -, hkeeps, -⟩ := contexts_isolated hchild
  refine ⟨_, hr, by rfl, (hsights "child" turns).trans (by rfl), _, hstep, ?_, by rfl, ?_⟩
  · rw [hstep] at hchild
    exact hchild
  · rw [hstep] at hkeeps
    refine hkeeps "child" _ turns.tail (by rfl) fun st hst => ?_
    simp only [turns, List.tail_cons, List.mem_cons, List.not_mem_nil, or_false,
      Event.step.injEq] at hst
    rcases hst with rfl | rfl | rfl | rfl | rfl | rfl <;> nofun

end Session

end ShapeCheck
