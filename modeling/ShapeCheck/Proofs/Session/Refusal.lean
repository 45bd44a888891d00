import ShapeCheck.Proofs.Check.Totality
import ShapeCheck.Proofs.Session.Cleaning
import ShapeCheck.Proofs.Session.Invariant

/-
  What a refused request leaves behind. `Refuses` lists why a request can be refused for what is
  handed to it; then it changes neither the heap nor the context (`perform_of_refuses`). Over a
  compiled schema there is no other reason, as long as what the request writes to the log can be
  written out (`Loggable`, `perform_error_iff`), and none at all that leaves a mark of a validation
  of one field (`perform_validateOne_of_error`). Only failures handed in are taken one by one: an
  entry gives something to record (`Gives`) or is refused itself (`RefusesEntry`), one of the two,
  and those before the first refused one are recorded (`recordEntries_of_gives`).
-/

namespace ShapeCheck

/-! ## Names of fields -/

namespace ObjectType

variable {t : ObjectType} {name : Value}

theorem fieldNamed?_of_notKey (hn : name.isKey = false) :
    t.fieldNamed? name = .error (.misuse .notKey) := by
  unfold fieldNamed?
  split
  · contradiction
  · rw [hn]
    rfl

theorem fieldNamed?_of_undeclared (hkey : name.isKey = true)
    (hn : ∀ k ∈ t.fieldNames, name ≠ .str k) : t.fieldNamed? name = .ok none := by
  unfold fieldNamed?
  split
  · rename_i k
    refine congrArg _ (Option.not_isSome_iff_eq_none.1 fun hf => ?_)
    exact hn k (hasField_iff.1 hf) rfl
  · rw [hkey]
    rfl

theorem fieldNamed?_cases (t : ObjectType) (name : Value) :
    name.isKey = false ∨ (name.isKey = true ∧ ∀ k ∈ t.fieldNames, name ≠ .str k) ∨
      ∃ k f, name = .str k ∧ k ∈ t.fieldNames ∧ t.field? k = some f := by
  cases hkey : name.isKey with
  | false => exact .inl rfl
  | true =>
    by_cases hn : ∃ k ∈ t.fieldNames, name = .str k
    · obtain ⟨k, hk, rfl⟩ := hn
      obtain ⟨f, hf⟩ := Option.isSome_iff_exists.1 (hasField_iff.2 hk)
      exact .inr (.inr ⟨k, f, rfl, hk, hf⟩)
    · exact .inr (.inl ⟨rfl, fun k hk he => hn ⟨k, hk, he⟩⟩)

end ObjectType

namespace Context

variable {h : Heap} {c : Context} {e : Fault}

/-! ## Requests that are refused at once -/

/-- An argument is no object to validate: it is left out, nothing or no mapping. -/
inductive NoObject (h : Heap) (operation : String) : Option Value → UsageError → Prop
  | absent : NoObject h operation none (.objectMissing operation)
  | null : NoObject h operation (some .null) (.objectMissing operation)
  | notMapping {v : Value} : v ≠ .null → h.mapping? v = none →
      NoObject h operation (some v) (.objectNotMapping operation v)

/-- Why a request other than to record failures from outside is refused. A field is asked for only
after the object. -/
inductive Refuses (h : Heap) (c : Context) : Request → Fault → Prop
  | validate {object : Option Value} {u : UsageError} : NoObject h "validate" object u →
      Refuses h c (.validate object) (.usage u)
  | validateOne {object key : Option Value} {u : UsageError} :
      NoObject h "validate_one" object u → Refuses h c (.validateOne object key) (.usage u)
  | keyMissing {v : Value} : (h.mapping? v).isSome →
      Refuses h c (.validateOne (some v) none) (.usage (.keyMissing c.root.name))
  | keyNotKey {v key : Value} : (h.mapping? v).isSome → key.isKey = false →
      Refuses h c (.validateOne (some v) (some key)) (.misuse .notKey)
  | keyUndeclared {v key : Value} : (h.mapping? v).isSome → key.isKey = true →
      (∀ k ∈ c.root.fieldNames, key ≠ .str k) →
      Refuses h c (.validateOne (some v) (some key))
        (.usage (.undeclaredKey key c.root.name c.root.fieldNames))
  | clean {object : Option Value} {u : UsageError} : CannotClean h object u →
      Refuses h c (.clean object) (.usage u)
  | message {key : Value} : key.isKey = false → Refuses h c (.keyErrorMessage key) (.misuse .notKey)
  | verdict {key : Value} : key.isKey = false → Refuses h c (.keyIsInvalid key) (.misuse .notKey)

theorem noObject_iff {operation : String} {object : Option Value} {u : UsageError} :
    requireObject h operation object = .error u ↔ NoObject h operation object u := by
  rw [requireObject_error_iff]
  constructor
  · rintro (⟨rfl | rfl, rfl⟩ | ⟨v, rfl, hn, hm, rfl⟩)
    · exact .absent
    · exact .null
    · exact .notMapping hn hm
  · intro ho
    cases ho with
    | absent => exact .inl ⟨.inl rfl, rfl⟩
    | null => exact .inl ⟨.inr rfl, rfl⟩
    | notMapping hn hm => exact .inr ⟨_, rfl, hn, hm, rfl⟩

theorem check_of_notKey {v key : Value} (hk : key.isKey = false) :
    c.check h v key = .error (.misuse .notKey) := by
  rw [check, Schema.checkField, Schema.findFailure, ObjectType.fieldNamed?_of_notKey hk]

theorem check_of_undeclared {v key : Value} (hkey : key.isKey = true)
    (hk : ∀ k ∈ c.root.fieldNames, key ≠ .str k) :
    c.check h v key = .error (.usage (.undeclaredKey key c.root.name c.root.fieldNames)) := by
  rw [check, Schema.checkField, Schema.findFailure, ObjectType.fieldNamed?_of_undeclared hkey hk]

theorem validateOne_of_check_error {v key : Value} (hm : (h.mapping? v).isSome)
    (he : c.check h v key = .error e) :
    c.validateOne h (some v) (some key) = (c.outcome, .error e) := by
  rw [validateOne, requireObject_ok_iff.2 ⟨rfl, hm⟩]
  dsimp only
  rw [he]

theorem failure?_of_notKey {key : Value} (hk : key.isKey = false) :
    c.failure? key = .error (.misuse .notKey) := by
  unfold failure?
  split
  · contradiction
  · rw [hk]
    rfl

/-- A request that is refused changes nothing. -/
theorem perform_of_refuses {r : Request} (hr : c.Refuses h r e) :
    c.perform h r = (h, c, .error e) := by
  cases hr with
  | validate ho =>
    rw [perform, validate, noObject_iff.2 ho]
    rfl
  | validateOne ho =>
    rw [perform, validateOne, noObject_iff.2 ho]
    rfl
  | keyMissing hm =>
    rw [perform, validateOne, requireObject_ok_iff.2 ⟨rfl, hm⟩]
    rfl
  | keyNotKey hm hk =>
    rw [perform, validateOne_of_check_error hm (check_of_notKey hk)]
    rfl
  | keyUndeclared hm hkey hk =>
    rw [perform, validateOne_of_check_error hm (check_of_undeclared hkey hk)]
    rfl
  | clean ho => exact perform_clean_of_cannot ho
  | message hk =>
    rw [perform, keyErrorMessage, failure?_of_notKey hk]
    rfl
  | verdict hk =>
    rw [perform, keyIsInvalid, failure?_of_notKey hk]
    rfl

theorem failure?_of_isKey {key : Value} (hk : key.isKey = true) :
    ∃ e, c.failure? key = .ok e := by
  unfold failure?
  split
  · exact ⟨_, rfl⟩
  · rw [hk]
    exact ⟨none, rfl⟩

/-- What a request writes to the log can be written out: the message of a failure that it finds, and
the keys that it removes. -/
def Loggable (h : Heap) (c : Context) : Request → Prop
  | .validate _ => c.overrides.Legible
  | .validateOne .. => c.overrides.Legible
  | .clean (some v) => ∀ a es, v = .object a → h.cell? a = some (.mapping es) →
      ∀ k ∈ es.keys, c.root.declares k = false → ∀ h' : Heap, h'.canSpell k = true
  | _ => True

theorem validateOne_refused_or_ok (hc : c.Compiled) (hw : c.overrides.Legible)
    (object key : Option Value) :
    (∃ e, c.Refuses h (.validateOne object key) e) ∨
      ∃ valid, (c.validateOne h object key).2 = .ok valid := by
  cases ho : requireObject h "validate_one" object with
  | error u => exact .inl ⟨_, .validateOne (noObject_iff.1 ho)⟩
  | ok v =>
    obtain ⟨rfl, hm⟩ := requireObject_ok_iff.1 ho
    cases key with
    | none => exact .inl ⟨_, .keyMissing hm⟩
    | some key =>
      rcases c.root.fieldNamed?_cases key with hkey | ⟨hkey, hn⟩ | ⟨k, -, rfl, hk, -⟩
      · exact .inl ⟨_, .keyNotKey hm hkey⟩
      · exact .inl ⟨_, .keyUndeclared hm hkey hn⟩
      · have hnote := hc.closed.canNote_found? hw hm hk
        exact .inr ⟨_, congrArg Prod.snd (validateOne_ok hc hm hk hnote)⟩

theorem clean_refused_or_ok {object : Option Value} (hl : c.Loggable h (.clean object)) :
    (∃ e, c.Refuses h (.clean object) e) ∨
      ∃ reply, (c.perform h (.clean object)).2.2 = .ok reply := by
  rcases cannotClean_or_mapping h object with ⟨u, hu⟩ | ⟨a, es, rfl, ha⟩
  · exact .inl ⟨_, .clean hu⟩
  · obtain ⟨h', -, -, hperform⟩ := perform_clean_of_cell? ha c
    refine .inr ⟨_, (congrArg (·.2.2) hperform).trans (if_pos ?_)⟩
    refine List.all_eq_true.2 fun k hk => ?_
    obtain ⟨hmem, hundeclared⟩ := List.mem_filter.1 hk
    exact hl a es rfl ha k hmem (Bool.not_eq_true' _ ▸ hundeclared) h'

/-- Over a compiled schema a request is refused for one of the listed reasons, or answered, if what
it writes to the log can be written out. -/
theorem refused_or_ok (hc : c.Compiled) {r : Request} (hadd : ∀ errors, r ≠ .addInvalid errors)
    (hl : c.Loggable h r) :
    (∃ e, c.Refuses h r e) ∨ ∃ reply, (c.perform h r).2.2 = .ok reply := by
  cases r with
  | validate object =>
    cases ho : requireObject h "validate" object with
    | error u => exact .inl ⟨_, .validate (noObject_iff.1 ho)⟩
    | ok v =>
      obtain ⟨rfl, hm⟩ := requireObject_ok_iff.1 ho
      exact .inr ⟨_, congrArg (·.2.map Reply.verdict) (validate_ok hc hl hm)⟩
  | validateOne object key =>
    refine (validateOne_refused_or_ok hc hl object key).imp id ?_
    rintro ⟨valid, hv⟩
    exact ⟨_, congrArg (Except.map Reply.verdict) hv⟩
  | clean object => exact clean_refused_or_ok hl
  | addInvalid errors => exact absurd rfl (hadd errors)
  | reset => exact .inr ⟨_, rfl⟩
  | keyErrorMessage key =>
    cases hk : key.isKey with
    | false => exact .inl ⟨_, .message hk⟩
    | true =>
      obtain ⟨e, he⟩ := failure?_of_isKey (c := c) hk
      right
      rw [perform, keyErrorMessage, he]
      exact ⟨_, rfl⟩
  | keyIsInvalid key =>
    cases hk : key.isKey with
    | false => exact .inl ⟨_, .verdict hk⟩
    | true =>
      obtain ⟨e, he⟩ := failure?_of_isKey (c := c) hk
      right
      rw [perform, keyIsInvalid, he]
      exact ⟨_, rfl⟩
  | invalidKeys => exact .inr ⟨_, rfl⟩
  | isValid => exact .inr ⟨_, rfl⟩

theorem perform_error_iff (hc : c.Compiled) {r : Request} (hadd : ∀ errors, r ≠ .addInvalid errors)
    (hl : c.Loggable h r) : (c.perform h r).2.2 = .error e ↔ c.Refuses h r e := by
  constructor
  · intro he
    rcases refused_or_ok hc hadd hl with ⟨f, hf⟩ | ⟨reply, hreply⟩
    · rw [perform_of_refuses hf] at he
      cases he
      exact hf
    · rw [hreply] at he
      contradiction
  · intro hr
    rw [perform_of_refuses hr]

/-- A validation of one field that fails for whatever reason changes nothing. -/
theorem perform_validateOne_of_error (hc : c.Compiled) {object key : Option Value}
    (he : (c.perform h (.validateOne object key)).2.2 = .error e) :
    c.perform h (.validateOne object key) = (h, c, .error e) := by
  rcases validateOne_cases (h := h) hc object key with
    ⟨f, hf⟩ | ⟨v, k, rfl, hm, rfl, hk, hnote⟩
  · rw [perform, hf] at he ⊢
    cases he
    rfl
  · rw [perform, validateOne_ok hc hm hk hnote] at he
    contradiction

/-! ## Failures handed in -/

/-- The name that an entry has: that of a failure, or the one under "name" of a mapping, which has
to have a message as well. -/
inductive Names (h : Heap) : Value → Value → Prop
  | report {a : Addr} {e : FieldError} : Names h (.report a e) e.name
  | mapping {v : Value} {a : Addr} {es : Entries} {name message : Value} :
      h.mapping? v = some (a, es) → es.field? "name" = some name →
      es.field? "message" = some message → Names h v name

/-- Why an entry is refused: it has no name, or none that could be one of a field, or none that
is. -/
inductive RefusesEntry (h : Heap) (c : Context) (entry : Value) : Fault → Prop
  | shapeless : (∀ name, ¬Names h entry name) → RefusesEntry h c entry (.usage (.badEntry entry))
  | notKey {name : Value} : Names h entry name → name.isKey = false →
      RefusesEntry h c entry (.misuse .notKey)
  | undeclared {name : Value} : Names h entry name → name.isKey = true →
      (∀ k ∈ c.root.fieldNames, name ≠ .str k) →
      RefusesEntry h c entry (.usage (.undeclaredEntry name c.root.name))

/-- The failure that an entry gives for a declared field: itself, or one with the message of a
mapping and the type of the field. -/
inductive Gives (h : Heap) (c : Context) : Value → String × FieldError → Prop
  | report {a : Addr} {e : FieldError} {k : String} : e.name = .str k → k ∈ c.root.fieldNames →
      Gives h c (.report a e) (k, e)
  | mapping {v message : Value} {a : Addr} {es : Entries} {k : String} {f : Field} :
      h.mapping? v = some (a, es) → es.field? "name" = some (.str k) →
      es.field? "message" = some message → c.root.field? k = some f →
      Gives h c v (k, { name := .str k, message, typeName := some f.typeRef })

theorem entryError_mapping {v name message : Value} {a : Addr} {es : Entries}
    (hm : h.mapping? v = some (a, es)) (hn : es.field? "name" = some name)
    (hmessage : es.field? "message" = some message) :
    c.entryError h v = (c.root.fieldNamed? name).map fun f =>
      { name, message, typeName := f.map Field.typeRef } := by
  obtain rfl := Heap.eq_object_of_mapping? hm
  unfold entryError
  dsimp only
  rw [hm]
  dsimp only
  rw [hn, hmessage]
  dsimp only
  cases c.root.fieldNamed? name <;> rfl

theorem entryError_of_shapeless {entry : Value} (hn : ∀ name, ¬Names h entry name) :
    c.entryError h entry = .error (.usage (.badEntry entry)) := by
  unfold entryError
  split
  · exact absurd .report (hn _)
  · split
    · rfl
    · rename_i hm
      split
      · rename_i hname hmessage
        exact absurd (.mapping hm hname hmessage) (hn _)
      · rfl

/-- What is wrong with the name of an entry is wrong with the entry. -/
theorem readEntry_of_names {entry name : Value} (hn : Names h entry name) :
    (∀ e, c.root.fieldNamed? name = .error e → c.readEntry h entry = .error e) ∧
      (c.root.fieldNamed? name = .ok none →
        c.readEntry h entry = .error (.usage (.undeclaredEntry name c.root.name))) := by
  cases hn with
  | report =>
    unfold readEntry entryError
    exact ⟨fun e he => by dsimp only; rw [he], fun he => by dsimp only; rw [he]⟩
  | mapping hm hname hmessage =>
    unfold readEntry
    rw [entryError_mapping hm hname hmessage]
    refine ⟨fun e he => by rw [he]; rfl, fun he => ?_⟩
    rw [he]
    dsimp only [Except.map]
    rw [he]

theorem readEntry_of_refuses {entry : Value} (he : c.RefusesEntry h entry e) :
    c.readEntry h entry = .error e := by
  cases he with
  | shapeless hn => rw [readEntry, entryError_of_shapeless hn]
  | notKey hn hkey =>
    exact (readEntry_of_names hn).1 _ (ObjectType.fieldNamed?_of_notKey hkey)
  | undeclared hn hkey hname =>
    exact (readEntry_of_names hn).2 (ObjectType.fieldNamed?_of_undeclared hkey hname)

theorem readEntry_of_gives {entry : Value} {p : String × FieldError} (hp : c.Gives h entry p) :
    c.readEntry h entry = .ok p := by
  cases hp with
  | @report a e k hn hk =>
    obtain ⟨f, hf⟩ := Option.isSome_iff_exists.1 (ObjectType.hasField_iff.2 hk)
    unfold readEntry entryError
    dsimp only
    rw [hn, ObjectType.fieldNamed?, hf]
    dsimp only
    rw [(ObjectType.mem_of_field? hf).2]
  | mapping hm hname hmessage hf =>
    unfold readEntry
    rw [entryError_mapping hm hname hmessage, ObjectType.fieldNamed?, hf]
    dsimp only [Except.map]
    rw [ObjectType.fieldNamed?, hf]
    dsimp only
    rw [(ObjectType.mem_of_field? hf).2]
    rfl

/-- Every entry gives a failure or is refused. -/
theorem gives_or_refuses (h : Heap) (c : Context) (entry : Value) :
    (∃ p, c.Gives h entry p) ∨ ∃ e, c.RefusesEntry h entry e := by
  by_cases hn : ∃ name, Names h entry name
  · obtain ⟨name, hn⟩ := hn
    rcases c.root.fieldNamed?_cases name with hkey | ⟨hkey, hname⟩ | ⟨k, f, rfl, hk, hf⟩
    · exact .inr ⟨_, .notKey hn hkey⟩
    · exact .inr ⟨_, .undeclared hn hkey hname⟩
    · refine .inl ?_
      generalize hl : Value.str k = name at hn
      cases hn with
      | report => exact ⟨_, .report hl.symm hk⟩
      | mapping hm hname hmessage => exact ⟨_, .mapping hm (hl ▸ hname) hmessage hf⟩
  · exact .inr ⟨_, .shapeless fun name h => hn ⟨name, h⟩⟩

theorem not_refuses_iff {entry : Value} :
    (∀ e, ¬c.RefusesEntry h entry e) ↔ ∃ p, c.Gives h entry p := by
  constructor
  · intro hnot
    refine (gives_or_refuses h c entry).resolve_right ?_
    rintro ⟨e, he⟩
    exact hnot e he
  · rintro ⟨p, hp⟩ e he
    have hread := readEntry_of_gives hp
    rw [readEntry_of_refuses he] at hread
    contradiction

/-- The context with failures recorded one after the other. -/
def recording (c : Context) (l : List (String × FieldError)) : Context :=
  { c with outcome := c.outcome.recordAll (l.map fun p => (p.1, some p.2)) }

theorem exists_forall₂_gives {entries : List Value}
    (hentries : ∀ x ∈ entries, ∀ e, ¬c.RefusesEntry h x e) :
    ∃ given, List.Forall₂ (c.Gives h) entries given := by
  induction entries with
  | nil => exact ⟨[], .nil⟩
  | cons x entries ih =>
    obtain ⟨hx, hentries⟩ := List.forall_mem_cons.1 hentries
    obtain ⟨p, hp⟩ := not_refuses_iff.1 hx
    obtain ⟨given, hgiven⟩ := ih hentries
    exact ⟨p :: given, .cons hp hgiven⟩

/-- Entries that give something are recorded before the rest is looked at. -/
theorem recordEntries_of_gives {before : List Value} {given : List (String × FieldError)}
    (hg : List.Forall₂ (c.Gives h) before given) (rest : List Value) (o : Outcome) :
    c.recordEntries h (before ++ rest) o =
      c.recordEntries h rest (o.recordAll (given.map fun p => (p.1, some p.2))) := by
  induction hg generalizing o with
  | nil => rfl
  | @cons x p before given hx _ ih =>
    rw [List.cons_append, recordEntries, readEntry_of_gives hx]
    exact ih _

theorem perform_addInvalid_of_gives {errors : Value} {entries : List Value}
    {given : List (String × FieldError)} (hm : h.members? errors = some entries)
    (hg : List.Forall₂ (c.Gives h) entries given) :
    c.perform h (.addInvalid errors) = (h, c.recording given, .ok .done) := by
  have hrun := recordEntries_of_gives hg [] c.outcome
  rw [List.append_nil, recordEntries] at hrun
  rw [perform, addInvalid, hm]
  dsimp only
  rw [hrun]
  rfl

theorem perform_addInvalid_of_refuses {errors bad : Value} {before after : List Value}
    {given : List (String × FieldError)} (hm : h.members? errors = some (before ++ bad :: after))
    (hg : List.Forall₂ (c.Gives h) before given) (he : c.RefusesEntry h bad e) :
    c.perform h (.addInvalid errors) = (h, c.recording given, .error e) := by
  have hrun := recordEntries_of_gives hg (bad :: after) c.outcome
  rw [perform, addInvalid, hm]
  dsimp only
  rw [hrun, recordEntries, readEntry_of_refuses he]
  rfl

theorem exists_first_refused {entries : List Value}
    (hentries : ∃ x ∈ entries, ∃ e, c.RefusesEntry h x e) :
    ∃ before bad after e, entries = before ++ bad :: after ∧
      (∀ x ∈ before, ∀ e, ¬c.RefusesEntry h x e) ∧ c.RefusesEntry h bad e := by
  induction entries with
  | nil =>
    obtain ⟨x, hx, -⟩ := hentries
    exact absurd hx List.not_mem_nil
  | cons x entries ih =>
    by_cases hx : ∃ e, c.RefusesEntry h x e
    · obtain ⟨e, he⟩ := hx
      exact ⟨[], x, entries, e, rfl, fun _ h => absurd h List.not_mem_nil, he⟩
    · obtain ⟨y, hy, e, he⟩ := hentries
      have hrest : y ∈ entries := by
        rcases List.mem_cons.1 hy with rfl | hy
        · exact absurd ⟨e, he⟩ hx
        · exact hy
      obtain ⟨before, bad, after, f, rfl, hbefore, hbad⟩ := ih ⟨y, hrest, e, he⟩
      refine ⟨x :: before, bad, after, f, rfl, List.forall_mem_cons.2 ⟨?_, hbefore⟩, hbad⟩
      exact fun e he => hx ⟨e, he⟩

theorem perform_addInvalid_error_iff {errors : Value} {entries : List Value}
    (hm : h.members? errors = some entries) :
    (c.perform h (.addInvalid errors)).2.2 = .error e ↔
      ∃ before bad after, entries = before ++ bad :: after ∧
        (∀ x ∈ before, ∀ e, ¬c.RefusesEntry h x e) ∧ c.RefusesEntry h bad e := by
  constructor
  · intro he
    have hsome : ∃ x ∈ entries, ∃ e, c.RefusesEntry h x e := by
      by_contra hnone
      obtain ⟨given, hg⟩ := exists_forall₂_gives fun x hx e he => hnone ⟨x, hx, e, he⟩
      rw [perform_addInvalid_of_gives hm hg] at he
      contradiction
    obtain ⟨before, bad, after, f, rfl, hbefore, hbad⟩ := exists_first_refused hsome
    obtain ⟨given, hg⟩ := exists_forall₂_gives hbefore
    rw [perform_addInvalid_of_refuses hm hg hbad] at he
    cases he
    exact ⟨before, bad, after, rfl, hbefore, hbad⟩
  · rintro ⟨before, bad, after, rfl, hbefore, hbad⟩
    obtain ⟨given, hg⟩ := exists_forall₂_gives hbefore
    rw [perform_addInvalid_of_refuses hm hg hbad]

/-- Of several failures recorded for a field the last one counts. -/
theorem get?_recording (ho : c.outcome.Distinct) (given : List (String × FieldError)) (k : String) :
    (c.recording given).outcome.get? k =
      ((given.filter (·.1 = k)).getLast?.map (·.2)).or (c.outcome.get? k) := by
  have hlast : Outcome.last? (given.map fun p => (p.1, some p.2)) k =
      (given.filter (·.1 = k)).getLast?.map fun p => some p.2 := by
    rw [Outcome.last?, List.filter_map, List.getLast?_map, Option.map_map]
    rfl
  rw [recording, Outcome.get?_recordAll ho, hlast]
  cases (given.filter (·.1 = k)).getLast? <;> rfl

end Context

/-! ## Sessions -/

namespace Session

variable {s : Session} {name : String} {c : Context}

/-- What a request that is refused leaves behind. One that does not record failures from outside
leaves the heap and the context as they were if it is refused for what is handed to it; and it is
refused for nothing else, if what it writes to the log can be written out. Of a validation of one
field no failure leaves a mark. One that records failures from outside is refused for the first
entry that is, and then what the entries before that one give has been recorded, in their order. If
none is refused, all are recorded; of several for one field the last one counts. -/
theorem refused_request_leaves (hr : Reachable s) (hc : s.contexts.get? name = some c) (h : Heap) :
    (∀ r e, (∀ errors, r ≠ .addInvalid errors) →
      (c.Refuses h r e → c.perform h r = (h, c, .error e)) ∧
      (c.Loggable h r → ((c.perform h r).2.2 = .error e ↔ c.Refuses h r e))) ∧
    (∀ object key e, (c.perform h (.validateOne object key)).2.2 = .error e →
      c.perform h (.validateOne object key) = (h, c, .error e)) ∧
    (∀ errors, h.members? errors = none →
      c.perform h (.addInvalid errors) = (h, c, .error (.misuse .notIterable))) ∧
    (∀ errors entries, h.members? errors = some entries →
      (∀ e, (c.perform h (.addInvalid errors)).2.2 = .error e ↔
        ∃ before bad after, entries = before ++ bad :: after ∧
          (∀ x ∈ before, ∀ e, ¬c.RefusesEntry h x e) ∧ c.RefusesEntry h bad e) ∧
      (∀ before bad after e, entries = before ++ bad :: after →
        (∀ x ∈ before, ∀ e, ¬c.RefusesEntry h x e) → c.RefusesEntry h bad e →
        ∃ given, List.Forall₂ (c.Gives h) before given ∧
          c.perform h (.addInvalid errors) = (h, c.recording given, .error e)) ∧
      ((∀ x ∈ entries, ∀ e, ¬c.RefusesEntry h x e) →
        ∃ given, List.Forall₂ (c.Gives h) entries given ∧
          c.perform h (.addInvalid errors) = (h, c.recording given, .ok .done))) ∧
    ∀ given k, (c.recording given).outcome.get? k =
      ((given.filter (·.1 = k)).getLast?.map (·.2)).or (c.outcome.get? k) := by
  have hs : c.Sound := hr.sound name c hc
  refine ⟨fun r e hadd => ⟨Context.perform_of_refuses, Context.perform_error_iff hs.compiled hadd⟩,
    fun object key e => Context.perform_validateOne_of_error hs.compiled, fun errors hm => ?_,
    fun errors entries hm => ⟨fun e => ?_, ?_, fun hentries => ?_⟩,
    Context.get?_recording hs.on.distinct⟩
  · rw [Context.perform, Context.addInvalid, hm]
    rfl
  · exact Context.perform_addInvalid_error_iff hm
  · rintro before bad after e rfl hbefore hbad
    obtain ⟨given, hg⟩ := Context.exists_forall₂_gives hbefore
    exact ⟨given, hg, Context.perform_addInvalid_of_refuses hm hg hbad⟩
  · obtain ⟨given, hg⟩ := Context.exists_forall₂_gives hentries
    exact ⟨given, hg, Context.perform_addInvalid_of_gives hm hg⟩

/-- Failures of links as mappings, one of them for a field that links do not have. -/
def noteHeap : Heap where
  cells := #[.mapping [(.str "message", .str "moved"), (.str "name", .str "next")],
    .mapping [(.str "name", .str "draft"), (.str "message", .str "lost")]]

/-- Failures of both kinds, the fourth of which cannot be recorded. -/
def mixedNotes : Value :=
  .tuple 2 [.report 3 { name := .str "label", message := .str "too short" }, .object 0,
    .report 4 { name := .str "label", message := .str "still too short" }, .object 1,
    .report 5 { name := .str "label", message := .str "fine" }]

theorem refused_request_leaves_notes : ∃ s c d, Reachable s ∧
    s.contexts.get? "links" = some c ∧
    c.outcome.errors.keys = ["label", "next"] ∧
    c.perform noteHeap (.validateOne (some (.object 0)) (some (.object 0))) =
      (noteHeap, c, .error (.misuse .notKey)) ∧
    c.perform noteHeap (.addInvalid mixedNotes) =
      (noteHeap, d, .error (.usage (.undeclaredEntry (.str "draft") "Link"))) ∧
    d.outcome.get? "label" =
      some { name := .str "label", message := .str "still too short" } ∧
    d.outcome.get? "next" =
      some { name := .str "next", message := .str "moved", typeName := some "Link" } := by
  have hr := (Reachable.start (initial_link {})).step (.ask "links" (.addInvalid handedIn))
  have hc : ((⟨{}, [("links", linkContext)]⟩ : Session).step
      (.ask "links" (.addInvalid handedIn))).1.contexts.get? "links" =
      some (linkContext.perform {} (.addInvalid handedIn)).2.1 := by
    rfl
  obtain ⟨hrefused, -, -, hentries, -⟩ := refused_request_leaves hr hc noteHeap
  obtain ⟨-, hfirst, -⟩ := hentries mixedNotes _ rfl
  have hbefore : ∀ x ∈ [.report 3 { name := .str "label", message := .str "too short" },
      .object 0, .report 4 { name := .str "label", message := .str "still too short" }],
      ∀ e, ¬Context.RefusesEntry noteHeap (linkContext.perform {} (.addInvalid handedIn)).2.1 x
        e := by
    intro x hx
    simp only [List.mem_cons, List.not_mem_nil, or_false] at hx
    rcases hx with rfl | rfl | rfl
    · exact Context.not_refuses_iff.2 ⟨_, .report rfl (by decide)⟩
    · exact Context.not_refuses_iff.2 ⟨_, .mapping (by rfl) (by rfl) (by rfl) (by rfl)⟩
    · exact Context.not_refuses_iff.2 ⟨_, .report rfl (by decide)⟩
  have hbad : Context.RefusesEntry noteHeap (linkContext.perform {} (.addInvalid handedIn)).2.1
      (.object 1) (.usage (.undeclaredEntry (.str "draft") "Link")) := by
    refine .undeclared (.mapping (by rfl) (by rfl) (by rfl)) rfl fun k hk he => ?_
    cases he
    exact absurd hk (by decide)
  obtain ⟨given, -, hperform⟩ := hfirst _ _ _ _ rfl hbefore hbad
  refine ⟨_, _, _, hr, hc, by rfl, ?_, hperform, ?_, ?_⟩
  · have hkey := hrefused (.validateOne (some (.object 0)) (some (.object 0))) (.misuse .notKey)
    exact (hkey nofun).1 (.keyNotKey (by rfl) rfl)
  · have hlabel := congrArg (fun p => p.2.1.outcome.get? "label") hperform
    exact hlabel.symm
  · have hnext := congrArg (fun p => p.2.1.outcome.get? "next") hperform
    exact hnext.symm

/-- Overrides for links, of which the one for the first field cannot be written out. -/
def overgrownOverrides : Heap where
  cells := #[.mapping [(.str "next", hugeNumber)]]

def overgrownContext : Context := { linkContext with messages := [(.str "next", hugeNumber)] }

theorem initial_overgrown : Initial ⟨overgrownOverrides, [("links", overgrownContext)]⟩ :=
  .context "links" compile_link
    (by rfl : Context.make overgrownOverrides linkSchema (.str "Link") (.object 0) = _)

/-- An empty link. -/
def emptyLink : Heap where
  cells := #[.mapping []]

theorem check_emptyLink (o : Outcome) : Context.check emptyLink
    { overgrownContext with outcome := o } (.object 0) (.str "next") =
      .error (.misuse .overlong) := by
  have hvalue : linkSchema.findFailure emptyLink overgrownContext.overrides linkType (.str "next")
      (.object 0) = linkSchema.checkValue emptyLink overgrownContext.overrides [0]
        ⟨"next", "Link", none⟩ none "next" := rfl
  rw [Schema.checkValue.eq_def] at hvalue
  exact (Schema.checkField_of_findFailure hvalue).trans
    (if_neg (Bool.eq_false_iff.1 (canSpell_hugeNumber emptyLink)))

theorem validate_emptyLink (o : Outcome) : Context.validate emptyLink
    { overgrownContext with outcome := o } (some (.object 0)) =
      (o.reset, .error (.misuse .overlong)) := by
  have hfields : ObjectType.fieldNames (Context.root { overgrownContext with outcome := o }) =
      ["next", "label"] := rfl
  rw [Context.validate, Context.requireObject_ok_iff.2 ⟨rfl, rfl⟩]
  dsimp only
  rw [hfields, Context.recordFields, check_emptyLink]

/-- A validation that is stopped by a message has forgotten what was recorded before, and a cleaning
that is stopped by a key has removed it. -/
theorem stopped_request_leaves_marks : ∃ s c d h', Reachable s ∧
    s.contexts.get? "links" = some c ∧
    c.outcome.errors.keys = ["label", "next"] ∧
    c.perform emptyLink (.validate (some (.object 0))) =
      (emptyLink, d, .error (.misuse .overlong)) ∧
    d.outcome.errors = [] ∧
    c.perform Context.overgrownLink (.clean (some (.object 0))) =
      (h', c, .error (.misuse .overlong)) ∧
    h'.cell? 0 ≠ Context.overgrownLink.cell? 0 := by
  have hr := (Reachable.start initial_overgrown).step (.ask "links" (.addInvalid handedIn))
  have hc : ((⟨overgrownOverrides, [("links", overgrownContext)]⟩ : Session).step
      (.ask "links" (.addInvalid handedIn))).1.contexts.get? "links" =
      some { overgrownContext with
        outcome := (overgrownContext.addInvalid overgrownOverrides handedIn).1 } := rfl
  obtain ⟨h', hclean, hself⟩ := Context.perform_clean_overgrownLink
    (rfl : Context.root { overgrownContext with
      outcome := (overgrownContext.addInvalid overgrownOverrides handedIn).1 } = linkType)
  refine ⟨_, _, overgrownContext, h', hr, hc, by rfl, ?_, rfl, hclean, ?_⟩
  · rw [Context.perform, validate_emptyLink]
    rfl
  · rw [hself]
    intro he
    cases he

end Session

end ShapeCheck
