/-
  Association lists in order of first arrival. A key that is there keeps its place and its spelling
  when its value is replaced; a new key goes to the end.
-/

namespace ShapeCheck

abbrev Assoc (κ α : Type) := List (κ × α)

namespace Assoc

variable {κ α : Type} [BEq κ]

def get? (m : Assoc κ α) (k : κ) : Option α :=
  match m with
  | [] => none
  | (k', v) :: rest => if k' == k then some v else get? rest k

def contains (m : Assoc κ α) (k : κ) : Bool := (m.get? k).isSome

def insert (m : Assoc κ α) (k : κ) (v : α) : Assoc κ α :=
  match m with
  | [] => [(k, v)]
  | (k', v') :: rest => if k' == k then (k', v) :: rest else (k', v') :: insert rest k v

def erase (m : Assoc κ α) (k : κ) : Assoc κ α :=
  match m with
  | [] => []
  | (k', v') :: rest => if k' == k then rest else (k', v') :: erase rest k

def keys (m : Assoc κ α) : List κ := m.map (·.1)

def values (m : Assoc κ α) : List α := m.map (·.2)

/-- The entries of `l` entered one after the other. -/
def insertAll (m : Assoc κ α) (l : List (κ × α)) : Assoc κ α :=
  l.foldl (fun m (k, v) => m.insert k v) m

def ofList (l : List (κ × α)) : Assoc κ α := insertAll [] l

/-! ## Looking up after a change -/

theorem keys_cons {κ α : Type} (m : Assoc κ α) (k : κ) (v : α) :
    keys ((k, v) :: m) = k :: m.keys := rfl

theorem insertAll_cons (m : Assoc κ α) (k : κ) (v : α) (l : List (κ × α)) :
    m.insertAll ((k, v) :: l) = (m.insert k v).insertAll l := rfl

theorem erase_sublist (m : Assoc κ α) (k : κ) : (m.erase k).Sublist m := by
  induction m with
  | nil => exact List.Sublist.refl _
  | cons p m ih =>
    rw [erase]
    split
    · exact List.sublist_cons_self ..
    · exact ih.cons_cons p

theorem nodup_keys_erase {m : Assoc κ α} (hm : m.keys.Nodup) (k : κ) : (m.erase k).keys.Nodup :=
  hm.sublist ((erase_sublist m k).map _)

theorem map_insert {β : Type} (m : Assoc κ α) (k : κ) (v : α) (g : α → β) :
    (m.insert k v).map (fun p => (p.1, g p.2)) = insert (m.map fun p => (p.1, g p.2)) k (g v) := by
  induction m with
  | nil => rfl
  | cons p m ih =>
    rw [List.map_cons, insert, insert]
    split
    · rfl
    · rw [List.map_cons, ih]

theorem map_erase {β : Type} (m : Assoc κ α) (k : κ) (g : α → β) :
    (m.erase k).map (fun p => (p.1, g p.2)) = erase (m.map fun p => (p.1, g p.2)) k := by
  induction m with
  | nil => rfl
  | cons p m ih =>
    rw [List.map_cons, erase, erase]
    split
    · rfl
    · rw [List.map_cons, ih]

/-- A key that is not there yet goes to the end. -/
theorem insert_of_get?_eq_none {m : Assoc κ α} {k : κ} (h : m.get? k = none) (v : α) :
    m.insert k v = m ++ [(k, v)] := by
  induction m with
  | nil => rfl
  | cons p m ih =>
    obtain ⟨a, b⟩ := p
    rw [get?] at h
    split at h
    · contradiction
    · rename_i ha
      rw [insert, if_neg ha, ih h, List.cons_append]

theorem get?_eq_find? (m : Assoc κ α) (k : κ) :
    m.get? k = (m.find? fun p => p.1 == k).map (·.2) := by
  induction m with
  | nil => rfl
  | cons p m ih =>
    obtain ⟨a, b⟩ := p
    rw [get?, List.find?_cons]
    cases a == k with
    | true => rfl
    | false => exact ih

theorem get?_eq_none_iff_forall {m : Assoc κ α} {k : κ} :
    m.get? k = none ↔ ∀ p ∈ m, (p.1 == k) = false := by
  rw [get?_eq_find?, Option.map_eq_none_iff, List.find?_eq_none]
  simp only [Bool.not_eq_true]

theorem keys_insert_of_get?_eq_some {m : Assoc κ α} {k : κ} {a : α} (h : m.get? k = some a)
    (v : α) : (m.insert k v).keys = m.keys := by
  induction m with
  | nil => contradiction
  | cons p m ih =>
    obtain ⟨b, w⟩ := p
    rw [get?] at h
    rw [insert]
    split
    · rfl
    · rename_i hb
      rw [if_neg hb] at h
      rw [keys_cons, keys_cons, ih h]

/-! ## Keys told apart -/

/-- No two keys compare as equal. -/
def Apart (m : Assoc κ α) : Prop := m.keys.Pairwise fun k l => (k == l) = false

theorem apart_cons {m : Assoc κ α} {k : κ} {v : α} :
    Apart ((k, v) :: m) ↔ (∀ p ∈ m, (k == p.1) = false) ∧ m.Apart := by
  rw [Apart, keys_cons, List.pairwise_cons, keys, List.forall_mem_map]
  rfl

theorem Apart.erase {m : Assoc κ α} (hm : m.Apart) (k : κ) : (m.erase k).Apart :=
  List.Pairwise.sublist ((erase_sublist m k).map _) hm

theorem Apart.insert {m : Assoc κ α} (hm : m.Apart) (k : κ) (v : α) : (m.insert k v).Apart := by
  cases h : m.get? k with
  | some a =>
    rw [Apart, keys_insert_of_get?_eq_some h]
    exact hm
  | none =>
    rw [insert_of_get?_eq_none h, Apart, keys, List.map_append, List.pairwise_append]
    refine ⟨hm, List.pairwise_singleton _ _, fun a ha b hb => ?_⟩
    obtain ⟨p, hp, rfl⟩ := List.mem_map.1 ha
    obtain rfl := List.mem_singleton.1 hb
    exact get?_eq_none_iff_forall.1 h p hp

section Compared

variable [PartialEquivBEq κ] {m : Assoc κ α} {k l : κ}

/-- Keys that are told apart from a key are so from all that compare as equal to it. -/
theorem forall_beq_eq_false (hl : (l == k) = true) (hm : ∀ p ∈ m, (l == p.1) = false) :
    ∀ p ∈ m, (p.1 == k) = false := by
  intro p hp
  refine Bool.eq_false_iff.2 fun hk => ?_
  have hlp : (l == p.1) = true := BEq.trans hl (BEq.symm hk)
  rw [hm p hp] at hlp
  contradiction

/-- Of keys told apart, one at most is replaced. -/
theorem insert_eq_map (hm : m.Apart) {a : α} (h : m.get? k = some a) (v : α) :
    m.insert k v = m.map fun p => if p.1 == k then (p.1, v) else p := by
  induction m with
  | nil => contradiction
  | cons p m ih =>
    obtain ⟨l, w⟩ := p
    obtain ⟨hl, hm⟩ := apart_cons.1 hm
    rw [get?] at h
    rw [insert, List.map_cons]
    split
    · rename_i hk
      have hrest := forall_beq_eq_false hk hl
      have hsame : (m.map fun p => if p.1 == k then (p.1, v) else p) = m.map id := by
        refine List.map_congr_left fun p hp => ?_
        rw [hrest p hp]
        rfl
      rw [hsame, List.map_id]
    · rename_i hk
      rw [if_neg hk] at h
      rw [ih hm h]

/-- Of keys told apart, one at most is removed. -/
theorem erase_eq_filter (hm : m.Apart) (k : κ) : m.erase k = m.filter fun p => !(p.1 == k) := by
  induction m with
  | nil => rfl
  | cons p m ih =>
    obtain ⟨l, w⟩ := p
    obtain ⟨hl, hm⟩ := apart_cons.1 hm
    rw [erase, List.filter_cons]
    split
    · rename_i hk
      have hrest := forall_beq_eq_false hk hl
      have hsame : m.filter (fun p => !(p.1 == k)) = m := by
        refine List.filter_eq_self.2 fun p hp => ?_
        rw [hrest p hp]
        rfl
      rw [hk, hsame]
      rfl
    · rename_i hk
      rw [Bool.eq_false_iff.2 hk, ih hm]
      rfl

end Compared

section Lookup

variable [LawfulBEq κ] {m : Assoc κ α} {k k' : κ} {v : α}

theorem get?_cons_self (m : Assoc κ α) (k : κ) (v : α) : get? ((k, v) :: m) k = some v := by
  rw [get?, if_pos (beq_self_eq_true k)]

theorem get?_cons_of_ne (h : k ≠ k') (m : Assoc κ α) (v : α) :
    get? ((k, v) :: m) k' = m.get? k' := by
  rw [get?, if_neg (by simpa using h)]

theorem get?_insert_self (m : Assoc κ α) (k : κ) (v : α) : (m.insert k v).get? k = some v := by
  induction m with
  | nil => exact get?_cons_self [] k v
  | cons p m ih =>
    rw [insert]
    split
    · rename_i h
      rw [get?, if_pos h]
    · rename_i h
      rw [get?, if_neg h, ih]

theorem get?_insert_of_ne (h : k ≠ k') (m : Assoc κ α) (v : α) :
    (m.insert k v).get? k' = m.get? k' := by
  induction m with
  | nil => exact get?_cons_of_ne h [] v
  | cons p m ih =>
    obtain ⟨a, b⟩ := p
    rw [insert]
    split
    · rename_i ha
      rw [eq_of_beq ha, get?_cons_of_ne h, get?_cons_of_ne h]
    · rw [get?, get?, ih]

theorem get?_erase_of_ne (h : k ≠ k') (m : Assoc κ α) : (m.erase k).get? k' = m.get? k' := by
  induction m with
  | nil => rfl
  | cons p m ih =>
    obtain ⟨a, b⟩ := p
    rw [erase]
    split
    · rename_i ha
      rw [eq_of_beq ha, get?_cons_of_ne h]
    · rw [get?, get?, ih]

theorem get?_eq_none_iff : m.get? k = none ↔ k ∉ m.keys := by
  induction m with
  | nil => exact iff_of_true rfl List.not_mem_nil
  | cons p m ih =>
    obtain ⟨a, b⟩ := p
    rw [keys_cons, List.mem_cons, not_or]
    by_cases h : a = k
    · rw [h, get?_cons_self]
      exact iff_of_false (Option.some_ne_none _) fun hn => hn.1 rfl
    · rw [get?_cons_of_ne h, ih]
      exact ⟨fun hm => ⟨fun he => h he.symm, hm⟩, fun hm => hm.2⟩

theorem mem_of_get? (h : m.get? k = some v) : (k, v) ∈ m := by
  induction m with
  | nil => contradiction
  | cons p m ih =>
    obtain ⟨a, b⟩ := p
    by_cases ha : a = k
    · rw [ha, get?_cons_self] at h
      rw [ha, Option.some.inj h]
      exact List.mem_cons_self ..
    · rw [get?_cons_of_ne ha] at h
      exact List.mem_cons_of_mem _ (ih h)

theorem mem_keys_of_get? (h : m.get? k = some v) : k ∈ m.keys :=
  List.mem_map_of_mem (mem_of_get? h)

theorem get?_of_mem (hm : m.keys.Nodup) (h : (k, v) ∈ m) : m.get? k = some v := by
  induction m with
  | nil => contradiction
  | cons p m ih =>
    obtain ⟨a, b⟩ := p
    rw [keys_cons] at hm
    obtain ⟨ha, hm⟩ := List.nodup_cons.1 hm
    rcases List.mem_cons.1 h with he | h
    · cases he
      exact get?_cons_self m k v
    · have hne : a ≠ k := by
        rintro rfl
        exact ha (List.mem_map.2 ⟨_, h, rfl⟩)
      rw [get?_cons_of_ne hne]
      exact ih hm h

theorem mem_keys_insert {a : κ} : a ∈ (m.insert k v).keys ↔ a = k ∨ a ∈ m.keys := by
  have h : (m.insert k v).get? a = none ↔ a ≠ k ∧ m.get? a = none := by
    by_cases h : k = a
    · rw [h, get?_insert_self]
      exact iff_of_false (Option.some_ne_none _) fun hn => hn.1 rfl
    · rw [get?_insert_of_ne h]
      exact ⟨fun hm => ⟨fun he => h he.symm, hm⟩, fun hm => hm.2⟩
  rw [get?_eq_none_iff, get?_eq_none_iff] at h
  have := not_congr h
  rwa [Classical.not_not, Classical.not_and_iff_not_or_not, Classical.not_not,
    Classical.not_not] at this

theorem nodup_keys_insert (hm : m.keys.Nodup) (k : κ) (v : α) : (m.insert k v).keys.Nodup := by
  induction m with
  | nil => exact List.nodup_cons.2 ⟨List.not_mem_nil, List.nodup_nil⟩
  | cons p m ih =>
    obtain ⟨a, b⟩ := p
    rw [keys_cons] at hm
    obtain ⟨ha, hm⟩ := List.nodup_cons.1 hm
    rw [insert]
    split
    · exact List.nodup_cons.2 ⟨ha, hm⟩
    · rename_i h
      refine List.nodup_cons.2 ⟨fun hi => ?_, ih hm⟩
      rcases mem_keys_insert.1 hi with he | hi
      · exact h (beq_iff_eq.2 he)
      · exact ha hi

theorem get?_erase_self (hm : m.keys.Nodup) : (m.erase k).get? k = none := by
  rw [get?_eq_none_iff]
  induction m with
  | nil => exact List.not_mem_nil
  | cons p m ih =>
    obtain ⟨a, b⟩ := p
    rw [keys_cons] at hm
    obtain ⟨ha, hm⟩ := List.nodup_cons.1 hm
    rw [erase]
    split
    · rename_i h
      exact eq_of_beq h ▸ ha
    · rename_i h
      rw [keys_cons, List.mem_cons]
      rintro (he | hk)
      · exact h (beq_iff_eq.2 he.symm)
      · exact ih hm hk

/-- Of several entries of one key that are entered, the last counts. -/
theorem get?_insertAll (m : Assoc κ α) (l : List (κ × α)) (k : κ) :
    (m.insertAll l).get? k = (((l.filter (·.1 == k)).getLast?).map (·.2)).or (m.get? k) := by
  induction l generalizing m with
  | nil => rfl
  | cons p l ih =>
    obtain ⟨a, b⟩ := p
    rw [insertAll_cons, ih]
    by_cases ha : a = k
    · have hd : (a == k) = true := beq_iff_eq.2 ha
      rw [List.filter_cons, if_pos hd, List.getLast?_cons, ← ha, get?_insert_self]
      cases (l.filter (·.1 == a)).getLast? <;> rfl
    · have hd : ¬(a == k) = true := fun hd => ha (beq_iff_eq.1 hd)
      rw [List.filter_cons, if_neg hd, get?_insert_of_ne ha]

theorem insertAll_of_nodup {m : Assoc κ α} {l : List (κ × α)}
    (h : (keys (m ++ l)).Nodup) : m.insertAll l = m ++ l := by
  induction l generalizing m with
  | nil => exact (List.append_nil m).symm
  | cons p l ih =>
    obtain ⟨a, b⟩ := p
    have hsplit : m ++ (a, b) :: l = (m ++ [(a, b)]) ++ l := by simp
    have ha : a ∉ m.keys := by
      intro hm
      rw [keys, List.map_append, List.map_cons, List.nodup_append] at h
      exact h.2.2 a hm a (List.mem_cons_self ..) rfl
    rw [insertAll_cons, insert_of_get?_eq_none (get?_eq_none_iff.2 ha), hsplit]
    rw [hsplit] at h
    exact ih h

/-- Entries under distinct keys stay as they are. -/
theorem ofList_of_nodup {l : List (κ × α)} (h : (keys l).Nodup) : ofList l = l :=
  insertAll_of_nodup (m := []) h

theorem nodup_keys_insertAll {m : Assoc κ α} (hm : m.keys.Nodup) (l : List (κ × α)) :
    (m.insertAll l).keys.Nodup := by
  induction l generalizing m with
  | nil => exact hm
  | cons p l ih => exact ih (nodup_keys_insert hm p.1 p.2)

theorem mem_keys_insertAll {l : List (κ × α)} {a : κ} :
    a ∈ (m.insertAll l).keys ↔ a ∈ l.map (·.1) ∨ a ∈ m.keys := by
  induction l generalizing m with
  | nil => exact ⟨.inr, fun h => h.resolve_left List.not_mem_nil⟩
  | cons p l ih =>
    obtain ⟨b, w⟩ := p
    rw [insertAll_cons, ih, mem_keys_insert, List.map_cons, List.mem_cons]
    constructor
    · rintro (h | h | h)
      · exact .inl (.inr h)
      · exact .inl (.inl h)
      · exact .inr h
    · rintro ((h | h) | h)
      · exact .inr (.inl h)
      · exact .inl h
      · exact .inr (.inr h)

/-! ## Entering lists after each other -/

variable {l : Assoc κ α}

theorem insert_cons_self (m : Assoc κ α) (k : κ) (v w : α) :
    insert ((k, w) :: m) k v = (k, v) :: m := by
  rw [insert, if_pos (beq_self_eq_true k)]

theorem insert_cons_of_ne (h : k' ≠ k) (m : Assoc κ α) (v w : α) :
    insert ((k', w) :: m) k v = (k', w) :: m.insert k v := by
  rw [insert, if_neg (by simpa using h)]

theorem insert_insert (m : Assoc κ α) (k : κ) (v w : α) :
    (m.insert k v).insert k w = m.insert k w := by
  induction m with
  | nil => exact insert_cons_self [] k w v
  | cons p m ih =>
    obtain ⟨a, b⟩ := p
    by_cases ha : a = k
    · rw [ha, insert_cons_self, insert_cons_self, insert_cons_self]
    · rw [insert_cons_of_ne ha, insert_cons_of_ne ha, insert_cons_of_ne ha, ih]

/-- A key that is there keeps its place, so it can be entered before another key or after it. -/
theorem insert_comm (hne : k' ≠ k) (hk : k ∈ m.keys) (v w : α) :
    (m.insert k' w).insert k v = (m.insert k v).insert k' w := by
  induction m with
  | nil => exact absurd hk List.not_mem_nil
  | cons p m ih =>
    obtain ⟨a, b⟩ := p
    by_cases ha : a = k
    · subst ha
      rw [insert_cons_of_ne hne.symm, insert_cons_self, insert_cons_self,
        insert_cons_of_ne hne.symm]
    · have hm : k ∈ keys m := (List.mem_cons.1 hk).resolve_left (Ne.symm ha)
      by_cases ha' : a = k'
      · subst ha'
        rw [insert_cons_self, insert_cons_of_ne ha, insert_cons_of_ne ha, insert_cons_self]
      · rw [insert_cons_of_ne ha', insert_cons_of_ne ha, insert_cons_of_ne ha,
          insert_cons_of_ne ha', ih hm]

theorem insert_insertAll (hk : k ∈ m.keys) (hl : k ∉ l.keys) (v : α) :
    (m.insertAll l).insert k v = (m.insert k v).insertAll l := by
  induction l generalizing m with
  | nil => rfl
  | cons p l ih =>
    obtain ⟨a, b⟩ := p
    rw [keys_cons, List.mem_cons, not_or] at hl
    rw [insertAll_cons, insertAll_cons, ih (mem_keys_insert.2 (.inr hk)) hl.2,
      insert_comm (Ne.symm hl.1) hk]

theorem insertAll_insert (hl : l.keys.Nodup) (m : Assoc κ α) (k : κ) (v : α) :
    m.insertAll (l.insert k v) = (m.insertAll l).insert k v := by
  induction l generalizing m with
  | nil => rfl
  | cons p l ih =>
    obtain ⟨a, b⟩ := p
    rw [keys_cons] at hl
    obtain ⟨ha, hl⟩ := List.nodup_cons.1 hl
    by_cases hak : a = k
    · subst hak
      have hmem : a ∈ (m.insert a b).keys := mem_keys_insert.2 (.inl rfl)
      rw [insert_cons_self, insertAll_cons, insertAll_cons, insert_insertAll hmem ha,
        insert_insert]
    · rw [insert_cons_of_ne hak, insertAll_cons, insertAll_cons, ih hl]

/-- Two lists of distinct keys can be entered one after the other, or the second into the first and
the result at once. -/
theorem insertAll_insertAll (hl : l.keys.Nodup) (m l' : Assoc κ α) :
    m.insertAll (l.insertAll l') = (m.insertAll l).insertAll l' := by
  induction l' generalizing l with
  | nil => rfl
  | cons p l' ih =>
    obtain ⟨a, b⟩ := p
    rw [insertAll_cons, insertAll_cons, ih (nodup_keys_insert hl a b), insertAll_insert hl]

/-- What is entered wins over what was there. -/
theorem get?_insertAll_of_nodup (hl : l.keys.Nodup) (m : Assoc κ α) (k : κ) :
    (m.insertAll l).get? k = (l.get? k).or (m.get? k) := by
  induction l generalizing m with
  | nil => rfl
  | cons p l ih =>
    obtain ⟨a, b⟩ := p
    rw [keys_cons] at hl
    obtain ⟨ha, hl⟩ := List.nodup_cons.1 hl
    rw [insertAll_cons, ih hl]
    by_cases hak : a = k
    · subst hak
      rw [get?_eq_none_iff.2 ha, get?_insert_self, get?_cons_self]
      rfl
    · rw [get?_insert_of_ne hak, get?_cons_of_ne hak]

/-- The keys that were there stay in front, and new ones follow in the order of the list. -/
theorem keys_insertAll (hl : l.keys.Nodup) (m : Assoc κ α) :
    (m.insertAll l).keys = m.keys ++ l.keys.filter fun k => !m.contains k := by
  induction l generalizing m with
  | nil => exact (List.append_nil _).symm
  | cons p l ih =>
    obtain ⟨a, b⟩ := p
    rw [keys_cons] at hl
    obtain ⟨ha, hl⟩ := List.nodup_cons.1 hl
    have hrest : ((keys l).filter fun k => !(m.insert a b).contains k) =
        (keys l).filter fun k => !m.contains k := by
      refine List.filter_congr fun k hk => ?_
      have hak : a ≠ k := fun he => ha (he ▸ hk)
      rw [contains, contains, get?_insert_of_ne hak]
    rw [insertAll_cons, ih hl, hrest, keys_cons, List.filter_cons]
    cases hm : m.get? a with
    | some w =>
      rw [keys_insert_of_get?_eq_some hm, contains, hm]
      rfl
    | none =>
      rw [insert_of_get?_eq_none hm, contains, hm, keys, List.map_append]
      exact List.append_assoc ..

end Lookup

end Assoc

end ShapeCheck
