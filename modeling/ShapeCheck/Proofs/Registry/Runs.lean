import ShapeCheck.Fault

/-
  Runs of a registry. Against it stands a listing: rows in the order of their registration, written
  with nothing but the common operations on lists. A call of a registry is answered as by the
  listing of its items, and leaves the listing of what it leaves (`perform_listing`), as long as no
  two keys compare as equal. So is every run of calls on a new registry; `run_eq_listing` puts this
  together with what a freeze does to the calls after it.
-/

namespace ShapeCheck

namespace Registry

variable {α : Type}

/-! ## Calls -/

/-- What a registry can be asked, by one of its operations or as a container. -/
inductive Call (α : Type) where
  | register (key : Value) (item : α) (overwrite : Bool)
  | unregister (key : Value)
  | freeze
  | get (key : Value)
  | getOptional (key : Value)
  | has (key : Value)
  | keys
  | values
  | items
  | size
  | frozen
  /-- whether the key is in the container -/
  | contains (key : Value)
  /-- going through the container -/
  | iterate
  | length

/-- The call is to change what is registered. -/
def Call.IsChange : Call α → Prop
  | register .. => True
  | unregister _ => True
  | _ => False

inductive Answer (α : Type) where
  | done
  | item (item : α)
  | optional (item : Option α)
  | flag (b : Bool)
  | keys (keys : List Value)
  | values (items : List α)
  | items (rows : List (Value × α))
  | size (n : Nat)

/-- Answers a call. A registry that refuses a call stays as it is. -/
def perform (r : Registry α) : Call α → Registry α × Except RegistryError (Answer α)
  | .register key item overwrite =>
    match r.register key item overwrite with
    | .error e => (r, .error e)
    | .ok r => (r, .ok .done)
  | .unregister key =>
    match r.unregister key with
    | .error e => (r, .error e)
    | .ok (r, item) => (r, .ok (.item item))
  | .freeze => (r.freeze, .ok .done)
  | .get key => (r, (r.get key).map .item)
  | .getOptional key => (r, (r.getOptional key).map .optional)
  | .has key => (r, (r.has key).map .flag)
  | .keys => (r, .ok (.keys r.keys))
  | .values => (r, .ok (.values r.items.values))
  | .items => (r, .ok (.items r.items))
  | .size => (r, .ok (.size r.size))
  | .frozen => (r, .ok (.flag r.frozen))
  | .contains key => (r, (r.has key).map .flag)
  | .iterate => (r, .ok (.keys r.keys))
  | .length => (r, .ok (.size r.size))

/-- Answers calls one after the other. -/
def run (r : Registry α) : List (Call α) → Registry α × List (Except RegistryError (Answer α))
  | [] => (r, [])
  | call :: calls =>
    (((r.perform call).1.run calls).1, (r.perform call).2 :: ((r.perform call).1.run calls).2)

end Registry

/-! ## Listings -/

/-- Rows of keys and items in the order of their registration. -/
structure Listing (α : Type) where
  rows : List (Value × α) := []
  frozen : Bool := false

namespace Listing

open Registry

variable {α : Type}

/-- The item in the row of a key, if there is one. -/
def item? (l : Listing α) (key : Value) : Option α :=
  (l.rows.find? fun row => row.1 == key).map (·.2)

/-- A new key gets a row at the end; one that is there keeps its row and its spelling. -/
def register (l : Listing α) (key : Value) (item : α) (overwrite : Bool) :
    Listing α × Except RegistryError (Answer α) :=
  if l.frozen then (l, .error (.frozen key))
  else if !key.isKey then (l, .error .notKey)
  else match l.item? key with
    | none => ({ l with rows := l.rows ++ [(key, item)] }, .ok .done)
    | some _ =>
      if overwrite then
        ({ l with rows := l.rows.map fun row => if row.1 == key then (row.1, item) else row },
          .ok .done)
      else (l, .error (.taken key))

def unregister (l : Listing α) (key : Value) : Listing α × Except RegistryError (Answer α) :=
  if l.frozen then (l, .error (.frozen key))
  else if !key.isKey then (l, .error .notKey)
  else match l.item? key with
    | none => (l, .error (.absent key))
    | some item => ({ l with rows := l.rows.filter fun row => !(row.1 == key) }, .ok (.item item))

/-- What is found under a key, which has to be one. -/
def look (key : Value) (found : Except RegistryError (Answer α)) :
    Except RegistryError (Answer α) :=
  if !key.isKey then .error .notKey else found

def perform (l : Listing α) : Call α → Listing α × Except RegistryError (Answer α)
  | .register key item overwrite => l.register key item overwrite
  | .unregister key => l.unregister key
  | .freeze => ({ l with frozen := true }, .ok .done)
  | .get key => (l, look key (match l.item? key with
    | none => .error (.notFound key (l.rows.map (·.1)))
    | some item => .ok (.item item)))
  | .getOptional key => (l, look key (.ok (.optional (l.item? key))))
  | .has key => (l, look key (.ok (.flag (l.rows.any fun row => row.1 == key))))
  | .keys => (l, .ok (.keys (l.rows.map (·.1))))
  | .values => (l, .ok (.values (l.rows.map (·.2))))
  | .items => (l, .ok (.items l.rows))
  | .size => (l, .ok (.size l.rows.length))
  | .frozen => (l, .ok (.flag l.frozen))
  | .contains key => (l, look key (.ok (.flag (l.rows.any fun row => row.1 == key))))
  | .iterate => (l, .ok (.keys (l.rows.map (·.1))))
  | .length => (l, .ok (.size l.rows.length))

def run (l : Listing α) : List (Call α) → Listing α × List (Except RegistryError (Answer α))
  | [] => (l, [])
  | call :: calls =>
    (((l.perform call).1.run calls).1, (l.perform call).2 :: ((l.perform call).1.run calls).2)

end Listing

namespace Registry

variable {α : Type} {r : Registry α}

/-! ## One call -/

/-- The items of a registry as a listing. -/
def listing (r : Registry α) : Listing α := ⟨r.items, r.frozen⟩

theorem item?_listing (r : Registry α) (key : Value) : r.listing.item? key = r.find? key :=
  (Assoc.get?_eq_find? r.items key).symm

theorem any_listing (r : Registry α) (key : Value) :
    (r.listing.rows.any fun row => row.1 == key) = r.items.contains key := by
  rw [Assoc.contains, Assoc.get?_eq_find?, Option.isSome_map, List.isSome_find?]
  rfl

theorem register_listing (hr : r.items.Apart) (key : Value) (item : α) (overwrite : Bool) :
    r.listing.perform (.register key item overwrite) =
      ((r.perform (.register key item overwrite)).1.listing,
        (r.perform (.register key item overwrite)).2) := by
  show r.listing.register key item overwrite = _
  have hitem : r.listing.item? key = r.items.get? key := item?_listing r key
  have hfrozen : r.listing.frozen = r.frozen := rfl
  unfold Listing.register
  rw [perform, register, hitem, hfrozen, Assoc.contains]
  by_cases hf : r.frozen = true
  · rw [if_pos hf, if_pos hf]
  · rw [if_neg hf, if_neg hf]
    by_cases hk : (!key.isKey) = true
    · rw [if_pos hk, if_pos hk]
    · rw [if_neg hk, if_neg hk]
      cases hi : r.items.get? key with
      | none =>
        rw [Option.isSome_none, Bool.and_false, Assoc.insert_of_get?_eq_none hi]
        rfl
      | some a =>
        rw [Option.isSome_some, Bool.and_true, Assoc.insert_eq_map hr hi]
        cases overwrite <;> rfl

theorem unregister_listing (hr : r.items.Apart) (key : Value) :
    r.listing.perform (.unregister key) =
      ((r.perform (.unregister key)).1.listing, (r.perform (.unregister key)).2) := by
  show r.listing.unregister key = _
  have hitem : r.listing.item? key = r.find? key := item?_listing r key
  have hfrozen : r.listing.frozen = r.frozen := rfl
  unfold Listing.unregister
  rw [perform, unregister, hitem, hfrozen, Assoc.erase_eq_filter hr]
  by_cases hf : r.frozen = true
  · rw [if_pos hf, if_pos hf]
  · rw [if_neg hf, if_neg hf]
    by_cases hk : (!key.isKey) = true
    · rw [if_pos hk, if_pos hk]
    · rw [if_neg hk, if_neg hk]
      cases r.find? key <;> rfl

/-- A call is answered as by the listing of the items, and leaves the listing of what it leaves. -/
theorem perform_listing (hr : r.items.Apart) (call : Call α) :
    r.listing.perform call = ((r.perform call).1.listing, (r.perform call).2) := by
  cases call with
  | register key item overwrite => exact register_listing hr key item overwrite
  | unregister key => exact unregister_listing hr key
  | get key =>
    rw [Listing.perform, item?_listing, perform, get, Listing.look]
    cases key.isKey with
    | false => rfl
    | true => cases r.find? key <;> rfl
  | getOptional key =>
    rw [Listing.perform, item?_listing, perform, getOptional, Listing.look]
    cases key.isKey <;> rfl
  | has key =>
    rw [Listing.perform, any_listing, perform, has, Listing.look]
    cases key.isKey <;> rfl
  | contains key =>
    rw [Listing.perform, any_listing, perform, has, Listing.look]
    cases key.isKey <;> rfl
  | freeze => rfl
  | keys => rfl
  | values => rfl
  | items => rfl
  | size => rfl
  | frozen => rfl
  | iterate => rfl
  | length => rfl

theorem register_ok {key : Value} {item : α} {overwrite : Bool} {r' : Registry α}
    (h : r.register key item overwrite = .ok r') :
    r.frozen = false ∧ r' = { r with items := r.items.insert key item } := by
  unfold register at h
  split at h
  · contradiction
  · rename_i hf
    split at h
    · contradiction
    · split at h
      · contradiction
      · exact ⟨Bool.eq_false_iff.2 hf, (Except.ok.inj h).symm⟩

theorem unregister_ok {key : Value} {item : α} {r' : Registry α}
    (h : r.unregister key = .ok (r', item)) :
    r.frozen = false ∧ r' = { r with items := r.items.erase key } := by
  unfold unregister at h
  split at h
  · contradiction
  · rename_i hf
    split at h
    · contradiction
    · split at h
      · contradiction
      · exact ⟨Bool.eq_false_iff.2 hf, (Prod.mk.inj (Except.ok.inj h)).1.symm⟩

/-- What a call can do to a registry. -/
theorem perform_cases (r : Registry α) (call : Call α) :
    (r.perform call).1 = r ∨ (call = .freeze ∧ (r.perform call).1 = r.freeze) ∨
      (r.frozen = false ∧ ∃ key item,
        (r.perform call).1 = { r with items := r.items.insert key item }) ∨
      (r.frozen = false ∧ ∃ key, (r.perform call).1 = { r with items := r.items.erase key }) := by
  cases call with
  | register key item overwrite =>
    rw [perform]
    cases hr : r.register key item overwrite with
    | error e => exact .inl rfl
    | ok r' =>
      obtain ⟨hf, he⟩ := register_ok hr
      exact .inr (.inr (.inl ⟨hf, key, item, he⟩))
  | unregister key =>
    rw [perform]
    cases hr : r.unregister key with
    | error e => exact .inl rfl
    | ok p =>
      obtain ⟨hf, he⟩ := unregister_ok hr
      exact .inr (.inr (.inr ⟨hf, key, he⟩))
  | freeze => exact .inr (.inl ⟨rfl, rfl⟩)
  | _ => exact .inl rfl

theorem apart_perform (hr : r.items.Apart) (call : Call α) : (r.perform call).1.items.Apart := by
  rcases perform_cases r call with he | ⟨-, he⟩ | ⟨-, key, item, he⟩ | ⟨-, key, he⟩
  · rw [he]
    exact hr
  · rw [he]
    exact hr
  · rw [he]
    exact hr.insert key item
  · rw [he]
    exact hr.erase key

/-- A call that is refused changes nothing. -/
theorem perform_of_error {call : Call α} {e : RegistryError}
    (he : (r.perform call).2 = .error e) : (r.perform call).1 = r := by
  cases call with
  | register key item overwrite =>
    rw [perform] at he ⊢
    cases hr : r.register key item overwrite with
    | error e => rfl
    | ok r' =>
      rw [hr] at he
      contradiction
  | unregister key =>
    rw [perform] at he ⊢
    cases hr : r.unregister key with
    | error e => rfl
    | ok p =>
      rw [hr] at he
      contradiction
  | freeze => contradiction
  | _ => rfl

/-! ## After a freeze -/

/-- A frozen registry refuses to be changed before it looks at the key. -/
theorem perform_change_of_frozen (hf : r.frozen = true) {call : Call α} (hc : call.IsChange) :
    ∃ key, (r.perform call).2 = .error (.frozen key) := by
  cases call with
  | register key item overwrite =>
    refine ⟨key, ?_⟩
    rw [perform, register, if_pos hf]
  | unregister key =>
    refine ⟨key, ?_⟩
    rw [perform, unregister, if_pos hf]
  | _ => exact hc.elim

theorem perform_of_frozen (hf : r.frozen = true) (call : Call α) : (r.perform call).1 = r := by
  have hopen : r.frozen ≠ false := by simp [hf]
  rcases perform_cases r call with he | ⟨-, he⟩ | ⟨hr, -⟩ | ⟨hr, -⟩
  · exact he
  · rw [he, freeze, ← hf]
  · exact absurd hr hopen
  · exact absurd hr hopen

theorem run_of_frozen (hf : r.frozen = true) (calls : List (Call α)) : (r.run calls).1 = r := by
  induction calls with
  | nil => rfl
  | cons call calls ih =>
    rw [run, perform_of_frozen hf]
    exact ih

theorem frozen_run {calls : List (Call α)} (hc : .freeze ∈ calls) :
    (r.run calls).1.frozen = true := by
  induction calls generalizing r with
  | nil => contradiction
  | cons call calls ih =>
    rcases List.mem_cons.1 hc with rfl | hc
    · have hf : (r.perform .freeze).1.frozen = true := rfl
      rw [run, run_of_frozen hf]
      exact hf
    · exact ih hc

/-- The refusal of a frozen registry is one of the operation, whatever the key. -/
theorem family_frozen (h : Heap) (key : Value) (name : String) :
    ∃ notice, ((Fault.registry (.frozen key) name).settled h).notice? h = some notice ∧
      notice.family = .operation :=
  ⟨_, rfl, rfl⟩

/-! ## Runs -/

/-- A run is answered as by the listing of the items, and the keys stay told apart. -/
theorem run_listing (hr : r.items.Apart) (calls : List (Call α)) :
    r.listing.run calls = ((r.run calls).1.listing, (r.run calls).2) ∧
      (r.run calls).1.items.Apart := by
  induction calls generalizing r with
  | nil => exact ⟨rfl, hr⟩
  | cons call calls ih =>
    obtain ⟨hrest, hapart⟩ := ih (apart_perform hr call)
    rw [Listing.run, perform_listing hr, hrest]
    exact ⟨rfl, hapart⟩

/-- A registry is an ordered map that can be frozen once and for all. Every run of calls on a new
registry is answered as by a listing, whose keys are told apart; a call that is refused changes
nothing; and after a freeze no call changes anything, those that are to do so being refused as
operations. -/
theorem run_eq_listing (name : String) (calls : List (Call α)) :
    ∃ r answers, ({ name := name } : Registry α).run calls = (r, answers) ∧
      Listing.run {} calls = (⟨r.items, r.frozen⟩, answers) ∧ r.items.Apart ∧
      (∀ call e, (r.perform call).2 = .error e → (r.perform call).1 = r) ∧
      (.freeze ∈ calls → (∀ more, (r.run more).1 = r) ∧
        ∀ call : Call α, call.IsChange → ∃ e, (r.perform call).2 = .error e ∧
          ∀ h, ∃ notice, ((Fault.registry e r.name).settled h).notice? h = some notice ∧
            notice.family = .operation) := by
  have hnew : ({ name := name } : Registry α).items.Apart := List.Pairwise.nil
  obtain ⟨hrun, hapart⟩ := run_listing hnew calls
  refine ⟨_, _, rfl, hrun, hapart, fun call e => perform_of_error, fun hfreeze => ?_⟩
  have hf : (({ name := name } : Registry α).run calls).1.frozen = true := frozen_run hfreeze
  refine ⟨run_of_frozen hf, fun call hcall => ?_⟩
  obtain ⟨key, hkey⟩ := perform_change_of_frozen hf hcall
  exact ⟨_, hkey, fun h => family_frozen h key _⟩

/-- One key under two spellings, and a freeze that comes before its removal. -/
def spellings : List (Call String) :=
  [.register (.int 1) "a" false, .register (.bool true) "b" true,
    .register (.bool true) "c" false, .freeze, .unregister (.int 1)]

theorem run_eq_listing_spellings : Call.freeze ∈ spellings ∧
    ∃ r answers, ({ name := "numbers" } : Registry String).run spellings = (r, answers) ∧
      r.items = [(.int 1, "b")] ∧
      answers = [.ok .done, .ok .done, .error (.taken (.bool true)), .ok .done,
        .error (.frozen (.int 1))] ∧
      ∀ more, (r.run more).1 = r := by
  have hfreeze : Call.freeze ∈ spellings := by simp [spellings]
  obtain ⟨r, answers, hrun, -, -, -, hfrozen⟩ := run_eq_listing "numbers" spellings
  have hvalue : ({ name := "numbers" } : Registry String).run spellings =
      ({ name := "numbers", items := [(.int 1, "b")], frozen := true },
        [.ok .done, .ok .done, .error (.taken (.bool true)), .ok .done,
          .error (.frozen (.int 1))]) := by
    rfl
  obtain ⟨hr, hanswers⟩ := Prod.mk.inj (hrun.symm.trans hvalue)
  refine ⟨hfreeze, r, answers, hrun, ?_, hanswers, (hfrozen hfreeze).1⟩
  rw [hr]

end Registry

end ShapeCheck
