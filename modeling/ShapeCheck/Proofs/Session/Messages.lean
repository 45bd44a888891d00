import Mathlib.Data.List.Induction
import ShapeCheck.Proofs.Check.Message
import ShapeCheck.Proofs.Session.Isolation
import ShapeCheck.Proofs.Session.LastWrite
import ShapeCheck.Proofs.Session.Refusal

/-
  When a recorded failure has a message. A check never finds a failure without one, whatever the
  overrides are, since an override that is nothing counts as none (`message_ne_null_of_found?`). A
  failure handed in from outside is recorded as it stands, and it may have no message. So the
  message of a field is missing exactly if the field has no failure or has one that was handed in
  without a message and left since (`HandedIn`, `recorded_after_iff`).
-/

namespace ShapeCheck

theorem Overrides.ofEntries_ne_null (es : Entries) (path : String) :
    Overrides.ofEntries es path ≠ some .null := by
  intro he
  unfold ofEntries at he
  split at he
  · contradiction
  · rename_i hnull
    exact hnull he

namespace Context

variable {h : Heap} {c : Context} {e : FieldError} {k : String}

/-! ## Failures that a check finds -/

theorem message_ne_null_of_found? (hc : c.Compiled) {v : Value} (hm : (h.mapping? v).isSome)
    (hk : k ∈ c.root.fieldNames) (he : c.found? h v k = some e) : e.message ≠ .null := by
  obtain ⟨⟨a, es⟩, hm⟩ := Option.isSome_iff_exists.1 hm
  obtain ⟨f, hf, rfl⟩ := List.mem_map.1 hk
  have hx : Place.Resolved c.schema ⟨f, es.field? f.name, [a]⟩ := hc.schema.resolved hc.root f hf
  rw [found?_field hc hm hf] at he
  obtain ⟨complaint, -, -, hmessage⟩ := Place.complains_of_failure? hc.schema.toClosed hx he
  rw [hmessage]
  cases ho : c.overrides f.name with
  | none => exact nofun
  | some w =>
    intro hw
    rw [Option.getD_some] at hw
    exact Overrides.ofEntries_ne_null c.messages f.name (hw ▸ ho)

/-- A request that writes a failure without a message is one to record failures from outside. -/
theorem addInvalid_of_written? (hc : c.Compiled) {r : Request}
    (hw : c.written? h k r = some (some e)) (he : e.message = .null) :
    ∃ errors, r = .addInvalid errors := by
  cases r with
  | addInvalid errors => exact ⟨errors, rfl⟩
  | validate object =>
    change Outcome.last? (c.records h (.validate object)) k = some (some e) at hw
    rcases validate_refused_or_mapping (h := h) (c := c) object with
      ⟨-, -, hrecords⟩ | ⟨v, rfl, hm⟩
    · rw [hrecords] at hw
      contradiction
    · rw [last?_records_validate hc hm] at hw
      split at hw
      · rename_i hk
        have hfound : (if k ∈ c.noted h v then c.found? h v k else none) = some e :=
          Option.some.inj hw
        split at hfound
        · exact absurd he (message_ne_null_of_found? hc hm hk hfound)
        · contradiction
      · contradiction
  | validateOne object key =>
    change Outcome.last? (c.records h (.validateOne object key)) k = some (some e) at hw
    rcases validateOne_cases (h := h) hc object key with
      ⟨f, hf⟩ | ⟨v, n, rfl, hm, rfl, hn, hnote⟩
    · rw [records_validateOne_refused hf] at hw
      contradiction
    · have hone : c.outcomes h v [n] = [(n, c.found? h v n)] := rfl
      rw [records_validateOne hc hm hn hnote, ← hone, last?_outcomes] at hw
      split at hw
      · rename_i hk
        rw [List.mem_singleton.1 hk] at hw
        exact absurd he (message_ne_null_of_found? hc hm hn (Option.some.inj hw))
      · contradiction
  | reset => cases hw
  | _ => contradiction

theorem mem_of_last? {l : List (String × Option FieldError)} {o : Option FieldError}
    (hl : Outcome.last? l k = some o) : (k, o) ∈ l := by
  obtain ⟨⟨n, o'⟩, hp, rfl⟩ := Option.map_eq_some_iff.1 hl
  obtain ⟨hmem, hn⟩ := List.mem_filter.1 (List.mem_of_getLast? hp)
  obtain rfl : n = k := of_decide_eq_true hn
  exact hmem

/-- What is written by handing in failures is given by one of the entries. -/
theorem gives_of_written? {errors : Value}
    (hw : c.written? h k (.addInvalid errors) = some (some e)) :
    ∃ entries, h.members? errors = some entries ∧ ∃ x ∈ entries, c.Gives h x (k, e) := by
  obtain ⟨⟨n, e'⟩, hmem, hp⟩ := List.mem_map.1 (mem_of_last? hw)
  cases hp
  unfold accepted at hmem
  split at hmem
  · contradiction
  · rename_i entries hentries
    obtain ⟨x, hx, hread⟩ := readEntry_of_mem_acceptedOf hmem
    refine ⟨entries, hentries, x, hx, ?_⟩
    rcases gives_or_refuses h c x with ⟨p, hp⟩ | ⟨f, hf⟩
    · rw [readEntry_of_gives hp] at hread
      cases hread
      exact hp
    · rw [readEntry_of_refuses hf] at hread
      contradiction

/-! ## Asking for a message -/

theorem failure?_eq_some_iff {key : Value} :
    c.failure? key = .ok (some e) ↔ ∃ k, key = .str k ∧ c.outcome.get? k = some e := by
  constructor
  · intro hf
    unfold failure? at hf
    split at hf
    · exact ⟨_, rfl, Except.ok.inj hf⟩
    · split at hf <;> cases hf
  · rintro ⟨k, rfl, hk⟩
    rw [failure?, hk]

theorem keyIsInvalid_eq_false_iff {key : Value} :
    c.keyIsInvalid key = .ok false ↔ c.failure? key = .ok none := by
  rw [keyIsInvalid]
  rcases c.failure? key with f | _ | e
  · constructor <;> (intro hk; cases hk)
  · exact iff_of_true rfl rfl
  · constructor <;> (intro hk; cases hk)

theorem keyErrorMessage_eq_none_iff {key : Value} :
    c.keyErrorMessage key = .ok none ↔ c.failure? key = .ok none ∨
      ∃ e, c.failure? key = .ok (some e) ∧ e.message = .null := by
  rw [keyErrorMessage]
  rcases c.failure? key with f | _ | e
  · constructor
    · intro hk
      cases hk
    · rintro (hk | ⟨e, hk, -⟩) <;> cases hk
  · exact iff_of_true rfl (.inl rfl)
  · constructor
    · intro hk
      refine .inr ⟨e, rfl, ?_⟩
      have hnone := Except.ok.inj hk
      dsimp only [Option.map_some] at hnone
      split at hnone
      · rename_i hnull
        exact Option.some.inj hnull
      · contradiction
    · rintro (hk | ⟨e', hk, he⟩)
      · cases hk
      · cases hk
        dsimp only [Except.map, Option.map_some]
        rw [he]

end Context

namespace Session

variable {s : Session} {name k : String} {e : FieldError}

/-! ## Runs -/

/-- What an event writes to a field of a context, if it writes to it. -/
def writtenBy? (s : Session) (name k : String) : Event → Option (Option FieldError)
  | .step st => s.written? name k st
  | .change _ => none

theorem Sound.next (hs : s.Sound) (ev : Event) : (s.next ev).Sound := by
  cases ev with
  | step st => exact hs.step st
  | change h => exact hs

theorem after_append_singleton (s : Session) (events : List Event) (ev : Event) :
    s.after (events ++ [ev]) = (s.after events).next ev := by
  rw [after, List.foldl_append, ← after]
  rfl

theorem Sound.after (hs : s.Sound) (events : List Event) : (s.after events).Sound := by
  induction events generalizing s with
  | nil => exact hs
  | cons ev events ih => exact ih (hs.next ev)

/-- An event leaves what it writes to a field, or what was recorded before. -/
theorem recorded_next (hs : s.Sound) (ev : Event) (name k : String) :
    (s.next ev).recorded name k = (s.writtenBy? name k ev).getD (s.recorded name k) := by
  cases ev with
  | step st => exact recorded_step hs st name k
  | change h => rfl

/-- A step that writes a failure without a message hands it in. -/
theorem addInvalid_of_writtenBy? (hs : s.Sound) {ev : Event}
    (hw : s.writtenBy? name k ev = some (some e)) (he : e.message = .null) :
    ∃ errors, ev = .step (.ask name (.addInvalid errors)) := by
  cases ev with
  | change h => contradiction
  | step st =>
    rw [writtenBy?] at hw
    cases st with
    | ask context r =>
      rw [written?] at hw
      split at hw
      · rename_i hn
        obtain ⟨c, hc, hw⟩ := Option.bind_eq_some_iff.1 hw
        obtain ⟨errors, rfl⟩ := Context.addInvalid_of_written? (hs _ c hc).compiled hw he
        exact ⟨errors, hn ▸ rfl⟩
      · contradiction
    | renew context made messages =>
      obtain ⟨c, -, hw⟩ := Option.bind_eq_some_iff.1 hw
      unfold writtenByMaking at hw
      repeat' split at hw
      all_goals cases hw
    | make context made root messages =>
      obtain ⟨c, -, hw⟩ := Option.bind_eq_some_iff.1 hw
      unfold writtenByMaking at hw
      repeat' split at hw
      all_goals cases hw

/-- A failure was handed in for a field during a run, and nothing has been written to the field
since. -/
inductive HandedIn (s : Session) (name k : String) (e : FieldError) : List Event → Prop
  | entry {events : List Event} {errors : Value} :
      (s.after events).writtenBy? name k (.step (.ask name (.addInvalid errors))) = some (some e) →
      HandedIn s name k e (events ++ [.step (.ask name (.addInvalid errors))])
  | kept {events : List Event} {ev : Event} : HandedIn s name k e events →
      (s.after events).writtenBy? name k ev = none → HandedIn s name k e (events ++ [ev])

theorem HandedIn.recorded (hs : s.Sound) {events : List Event}
    (hh : HandedIn s name k e events) : (s.after events).recorded name k = some e := by
  induction hh with
  | entry hw =>
    rw [after_append_singleton, recorded_next (hs.after _), hw]
    rfl
  | kept _ hw ih =>
    rw [after_append_singleton, recorded_next (hs.after _), hw]
    exact ih

/-- The failures without a message that are recorded after a run are those handed in and left. -/
theorem recorded_after_iff (hi : Initial s) (events : List Event) (he : e.message = .null) :
    (s.after events).recorded name k = some e ↔ HandedIn s name k e events := by
  have hs : s.Sound := (Reachable.start hi).sound
  refine ⟨fun hr => ?_, fun hh => hh.recorded hs⟩
  induction events using List.reverseRecOn with
  | nil =>
    rw [after, List.foldl_nil, hi.recorded] at hr
    contradiction
  | append_singleton events ev ih =>
    rw [after_append_singleton, recorded_next (hs.after events)] at hr
    cases hw : (s.after events).writtenBy? name k ev with
    | none =>
      rw [hw] at hr
      exact (ih hr).kept hw
    | some o =>
      rw [hw] at hr
      obtain rfl : o = some e := hr
      obtain ⟨errors, rfl⟩ := addInvalid_of_writtenBy? (hs.after events) hw he
      exact .entry hw

/-- Every entry that is handed in to a context during a run has a message. -/
def Worded (s : Session) (name : String) (events : List Event) : Prop :=
  ∀ before errors later, events = before ++ .step (.ask name (.addInvalid errors)) :: later →
    ∀ c entries, (s.after before).contexts.get? name = some c →
      (s.after before).heap.members? errors = some entries →
      ∀ x ∈ entries, ∀ p, c.Gives (s.after before).heap x p → p.2.message ≠ .null

theorem HandedIn.message_ne_null {events : List Event} (hh : HandedIn s name k e events)
    (hw : s.Worded name events) : e.message ≠ .null := by
  induction hh with
  | @entry events errors hentry =>
    rw [writtenBy?, written?, if_pos rfl] at hentry
    obtain ⟨c, hc, hgiven⟩ := Option.bind_eq_some_iff.1 hentry
    obtain ⟨entries, hentries, x, hx, hgives⟩ := Context.gives_of_written? hgiven
    exact hw events errors [] rfl c entries hc hentries x hx _ hgives
  | @kept events ev _ _ ih =>
    refine ih fun before errors later hsplit => hw before errors (later ++ [ev]) ?_
    rw [hsplit, List.append_assoc, List.cons_append]

/-- A field has no message exactly if it has no failure, or one that was handed in without a message
and that nothing has replaced since. So whenever all entries handed in have a message, a field has
none exactly if it is not invalid, whatever the overrides of the context are. -/
theorem message_missing_iff (hi : Initial s) (events : List Event) {c : Context}
    (hc : (s.after events).contexts.get? name = some c) :
    (∀ key, c.keyErrorMessage key = .ok none ↔ c.keyIsInvalid key = .ok false ∨
      ∃ k e, key = .str k ∧ HandedIn s name k e events ∧ e.message = .null) ∧
    (s.Worded name events → ∀ key,
      (c.keyErrorMessage key = .ok none ↔ c.keyIsInvalid key = .ok false)) := by
  have hiff : ∀ key, c.keyErrorMessage key = .ok none ↔ c.keyIsInvalid key = .ok false ∨
      ∃ k e, key = .str k ∧ HandedIn s name k e events ∧ e.message = .null := by
    intro key
    rw [Context.keyErrorMessage_eq_none_iff, Context.keyIsInvalid_eq_false_iff]
    refine or_congr_right ⟨?_, ?_⟩
    · rintro ⟨e, hf, he⟩
      obtain ⟨k, rfl, hk⟩ := Context.failure?_eq_some_iff.1 hf
      rw [← recorded_of_get? hc] at hk
      exact ⟨k, e, rfl, (recorded_after_iff hi events he).1 hk, he⟩
    · rintro ⟨k, e, rfl, hh, he⟩
      have hk := (recorded_after_iff hi events he).2 hh
      rw [recorded_of_get? hc] at hk
      exact ⟨e, Context.failure?_eq_some_iff.2 ⟨k, rfl, hk⟩, he⟩
  refine ⟨hiff, fun hw key => (hiff key).trans (or_iff_left ?_)⟩
  rintro ⟨k, e, -, hh, he⟩
  exact hh.message_ne_null hw he

/-- Two failures of a label as mappings, the first of which says nothing. -/
def labelNotes : Heap where
  cells := #[.mapping [(.str "name", .str "label"), (.str "message", .null)],
    .mapping [(.str "name", .str "label"), (.str "message", .str "too long")]]

/-- One of the two is handed in. -/
def noted (a : Addr) : List Event :=
  [.change labelNotes, .step (.ask "links" (.addInvalid (.tuple 2 [.object a])))]

theorem worded_noted (s : Session) : s.Worded "links" (noted 1) := by
  intro before errors later hsplit c entries _ hentries x hx p hp
  obtain ⟨rfl, rfl⟩ : before = [.change labelNotes] ∧ errors = .tuple 2 [.object 1] := by
    rcases before with _ | ⟨first, _ | ⟨second, before⟩⟩
    · cases hsplit
    · cases hsplit
      exact ⟨rfl, rfl⟩
    · have hlen := congrArg List.length hsplit
      simp only [noted, List.length_cons, List.length_append, List.length_nil] at hlen
      omega
  cases hentries
  obtain rfl := List.mem_singleton.1 hx
  cases hp with
  | mapping hm hname hmessage hf =>
    cases hm
    cases hmessage
    exact nofun

/-- Without a message the label counts as invalid and has no message; with one it has it. -/
theorem message_missing_links : ∃ s c d, Initial s ∧
    (s.after (noted 0)).contexts.get? "links" = some c ∧
    (s.after (noted 1)).contexts.get? "links" = some d ∧
    c.keyErrorMessage (.str "label") = .ok none ∧ c.keyIsInvalid (.str "label") = .ok true ∧
    s.Worded "links" (noted 1) ∧ d.keyErrorMessage (.str "label") ≠ .ok none ∧
    d.keyErrorMessage (.str "next") = .ok none := by
  have hi := initial_link {}
  have hc : ((⟨{}, [("links", linkContext)]⟩ : Session).after (noted 0)).contexts.get? "links" =
      some (linkContext.perform labelNotes (.addInvalid (.tuple 2 [.object 0]))).2.1 := by
    rfl
  have hd : ((⟨{}, [("links", linkContext)]⟩ : Session).after (noted 1)).contexts.get? "links" =
      some (linkContext.perform labelNotes (.addInvalid (.tuple 2 [.object 1]))).2.1 := by
    rfl
  have hsilent : HandedIn ⟨{}, [("links", linkContext)]⟩ "links" "label"
      { name := .str "label", message := .null, typeName := some "String" } (noted 0) :=
    @HandedIn.entry _ _ _ _ [.change labelNotes] (.tuple 2 [.object 0]) (by rfl)
  obtain ⟨hmissing, -⟩ := message_missing_iff hi (noted 0) hc
  obtain ⟨-, hworded⟩ := message_missing_iff hi (noted 1) hd
  have hsame := hworded (worded_noted _)
  refine ⟨_, _, _, hi, hc, hd, ?_, by rfl, worded_noted _, fun hnone => ?_, ?_⟩
  · exact (hmissing (.str "label")).2 (.inr ⟨"label", _, rfl, hsilent, rfl⟩)
  · exact Bool.noConfusion (Except.ok.inj ((hsame (.str "label")).1 hnone))
  · exact (hsame (.str "next")).2 (by rfl)

theorem message_missing_though_invalid : ∃ s c, Reachable s ∧
    s.contexts.get? "links" = some c ∧ c.keyIsInvalid (.str "label") = .ok true ∧
    ¬(c.keyErrorMessage (.str "label") = .ok none ↔ c.keyIsInvalid (.str "label") = .ok false) := by
  have hr := ((Reachable.start (initial_link {})).change labelNotes).step
    (.ask "links" (.addInvalid (.tuple 2 [.object 0])))
  have hinvalid : (linkContext.perform labelNotes
      (.addInvalid (.tuple 2 [.object 0]))).2.1.keyIsInvalid (.str "label") = .ok true := by
    rfl
  refine ⟨_, _, hr, by rfl, hinvalid, fun hiff => ?_⟩
  have hfalse := hiff.1 (by rfl)
  rw [hinvalid] at hfalse
  cases hfalse

end Session

end ShapeCheck
