import ShapeCheck.Proofs.Session.Recording

/-
  Cleaning an object in place. The keys to go are collected before any of them is removed, and a
  removal finds a key again by its form, so it could meet another entry than the one that the key
  was taken from. It never meets one that is to stay (`declares_congr`), and while the keys are
  removed in their order, what stands before the next one is clean already (`foldl_remove`). On the
  heap each removal writes one container and leaves all others (`cells_foldl_removeKey`). The keys
  are written to the log when they are gone, so one that cannot be written out spoils the answer and
  nothing else (`Heap.clean_of_cell?`). `clean_projects` puts this together for requests to a
  context, with those that are refused.
-/

namespace ShapeCheck

/-! ## Keys and their forms -/

namespace ObjectType

variable {t : ObjectType} {k l : Value}

theorem declares_iff : t.declares k = true ↔ ∃ n ∈ t.fieldNames, k = .str n := by
  cases k with
  | str n =>
    rw [declares, hasField_iff]
    constructor
    · intro hn
      exact ⟨n, hn, rfl⟩
    · rintro ⟨m, hm, he⟩
      cases he
      exact hm
  | _ => exact iff_of_false Bool.false_ne_true (by simp)

/-- Whether a key is declared depends on its form only. -/
theorem declares_congr (t : ObjectType) (hkl : k.keyForm = l.keyForm) :
    t.declares k = t.declares l := by
  have hle : ∀ {k l : Value}, k.keyForm = l.keyForm → t.declares k = true →
      t.declares l = true := by
    intro k l hkl hk
    obtain ⟨n, hn, rfl⟩ := declares_iff.1 hk
    rw [Value.keyForm] at hkl
    exact declares_iff.2 ⟨n, hn, Value.eq_str_of_keyForm hkl.symm⟩
  exact Bool.eq_iff_iff.2 ⟨hle hkl, hle hkl.symm⟩

end ObjectType

/-! ## Removing keys from entries -/

namespace Entries

theorem remove_append {before : Entries} {k v : Value} (after : Entries)
    (hbefore : ∀ p ∈ before, p.1.keyForm ≠ k.keyForm) :
    Entries.remove (before ++ (k, v) :: after) k = before ++ after := by
  have hnone : ∀ p ∈ before, ¬(p.1.keyForm == k.keyForm) = true :=
    fun p hp he => hbefore p hp (beq_iff_eq.1 he)
  rw [remove, List.eraseP_append_right _ hnone, List.eraseP_cons_of_pos]
  exact beq_self_eq_true _

/-- Removing the undeclared keys of the rest in their order leaves what is declared, as long as
everything before the rest is declared. -/
theorem foldl_remove (t : ObjectType) (before es : Entries)
    (hbefore : ∀ p ∈ before, t.declares p.1 = true) :
    (es.keys.filter fun k => !t.declares k).foldl remove (before ++ es) =
      before ++ es.filter fun p => t.declares p.1 := by
  induction es generalizing before with
  | nil => rfl
  | cons p es ih =>
    obtain ⟨k, v⟩ := p
    rw [Assoc.keys_cons, List.filter_cons, List.filter_cons]
    cases hk : t.declares k with
    | true =>
      have hmore : ∀ q ∈ before ++ [(k, v)], t.declares q.1 = true := by
        intro q hq
        rcases List.mem_append.1 hq with hq | hq
        · exact hbefore q hq
        · cases List.mem_singleton.1 hq
          exact hk
      have hrest := ih (before ++ [(k, v)]) hmore
      rw [List.append_assoc, List.append_assoc] at hrest
      exact hrest
    | false =>
      have hother : ∀ q ∈ before, q.1.keyForm ≠ k.keyForm := by
        intro q hq he
        have hq := hbefore q hq
        rw [t.declares_congr he, hk] at hq
        contradiction
      have hremove := remove_append (v := v) es hother
      simp only [Bool.not_false, if_true, List.foldl_cons, hremove, Bool.false_eq_true, if_false]
      exact ih before hbefore

end Entries

/-! ## Cleaning on the heap -/

namespace Heap

variable {h : Heap} {a b : Addr} {es : Entries}

theorem removeKey_of_cell? (ha : h.cell? a = some (.mapping es)) (k : Value) :
    h.removeKey a k = h.write a (.mapping (es.remove k)) := by
  rw [removeKey, mappingAt?_eq_some_iff.2 ha]

/-- Removing keys writes one container, and what it holds are the entries without the keys. -/
theorem cells_foldl_removeKey (ha : h.cell? a = some (.mapping es)) (ks : List Value) :
    (ks.foldl (·.removeKey a) h).cell? a = some (.mapping (ks.foldl Entries.remove es)) ∧
      ∀ b, b ≠ a → (ks.foldl (·.removeKey a) h).cell? b = h.cell? b := by
  induction ks generalizing h es with
  | nil => exact ⟨ha, fun _ _ => rfl⟩
  | cons k ks ih =>
    rw [List.foldl_cons, List.foldl_cons, removeKey_of_cell? ha]
    obtain ⟨hself, hother⟩ := ih (cell?_write_self ha (.mapping (es.remove k)))
    refine ⟨hself, fun b hb => ?_⟩
    rw [hother b hb, cell?_write_of_ne hb]

/-- A clean of a mapping that may be changed leaves its declared entries as they are, and all
other containers, whether or not the keys that are gone can be written out. -/
theorem clean_of_cell? (ha : h.cell? a = some (.mapping es)) (t : ObjectType) :
    ∃ h', h'.cell? a = some (.mapping (es.filter fun p => t.declares p.1)) ∧
      (∀ b, b ≠ a → h'.cell? b = h.cell? b) ∧
      h.clean (.object a) t = (h', if (es.keys.filter fun k => !t.declares k).all h'.canSpell
        then .ok () else .error (.misuse .overlong)) := by
  obtain ⟨hself, hother⟩ := cells_foldl_removeKey ha (es.keys.filter fun k => !t.declares k)
  have hloop := Entries.foldl_remove t [] es fun _ hp => absurd hp List.not_mem_nil
  rw [List.nil_append, List.nil_append] at hloop
  rw [hloop] at hself
  refine ⟨_, hself, hother, ?_⟩
  rw [clean, mutable?_eq_some_iff.2 ⟨rfl, ha⟩]

/-- There is nothing to remove from what is clean already. -/
theorem clean_of_declared {t : ObjectType} (ha : h.cell? a = some (.mapping es))
    (hes : ∀ p ∈ es, t.declares p.1 = true) : h.clean (.object a) t = (h, .ok ()) := by
  have hnone : (es.keys.filter fun k => !t.declares k) = [] := by
    refine List.filter_eq_nil_iff.2 fun k hk => ?_
    obtain ⟨p, hp, rfl⟩ := List.mem_map.1 hk
    rw [hes p hp]
    exact Bool.false_ne_true
  rw [clean, mutable?_eq_some_iff.2 ⟨rfl, ha⟩]
  dsimp only
  rw [hnone]
  rfl

theorem mutable?_eq_none_iff {v : Value} :
    h.mutable? v = none ↔ ¬∃ a es, v = .object a ∧ h.cell? a = some (.mapping es) := by
  rw [Option.eq_none_iff_forall_ne_some]
  simp only [← mutable?_eq_some_iff, not_exists, Prod.forall]

end Heap

/-! ## Requests -/

namespace Context

variable {h : Heap} {c : Context}

theorem perform_clean_object (h : Heap) (c : Context) (a : Addr) :
    c.perform h (.clean (some (.object a))) = ((h.clean (.object a) c.root).1, c,
      (h.clean (.object a) c.root).2.map fun _ => .cleaned (.object a)) := by
  rw [perform, clean]
  · dsimp only
    cases (h.clean (.object a) c.root).2 <;> rfl
  · intro he
    contradiction

/-- The declared entries stay as they are, and the answer is the object unless one of the keys that
are gone cannot be written out. -/
theorem perform_clean_of_cell? {a : Addr} {es : Entries} (ha : h.cell? a = some (.mapping es))
    (c : Context) : ∃ h', h'.cell? a = some (.mapping (es.filter fun p => c.root.declares p.1)) ∧
      (∀ b, b ≠ a → h'.cell? b = h.cell? b) ∧
      c.perform h (.clean (some (.object a))) =
        (h', c, if (es.keys.filter fun k => !c.root.declares k).all h'.canSpell
          then .ok (.cleaned (.object a)) else .error (.misuse .overlong)) := by
  obtain ⟨h', hself, hother, hclean⟩ := Heap.clean_of_cell? ha c.root
  refine ⟨h', hself, hother, ?_⟩
  rw [perform_clean_object, hclean]
  dsimp only
  split <;> rfl

/-- Why an object cannot be cleaned: there is none, or it is no mapping that may be changed. -/
inductive CannotClean (h : Heap) : Option Value → UsageError → Prop
  | absent : CannotClean h none .nothingToClean
  | null : CannotClean h (some .null) .nothingToClean
  | fixed {v : Value} : v ≠ .null → (¬∃ a es, v = .object a ∧ h.cell? a = some (.mapping es)) →
      CannotClean h (some v) (.notMutable v)

theorem perform_clean_of_cannot {object : Option Value} {u : UsageError}
    (ho : CannotClean h object u) : c.perform h (.clean object) = (h, c, .error (.usage u)) := by
  cases ho with
  | absent => rfl
  | null => rfl
  | @fixed v hv hm =>
    rw [perform, clean]
    · dsimp only
      rw [Heap.clean, Heap.mutable?_eq_none_iff.2 hm]
      rfl
    · exact hv

theorem cannotClean_or_mapping (h : Heap) (object : Option Value) :
    (∃ u, CannotClean h object u) ∨
      ∃ a es, object = some (.object a) ∧ h.cell? a = some (.mapping es) := by
  cases object with
  | none => exact .inl ⟨_, .absent⟩
  | some v =>
    by_cases hv : v = .null
    · cases hv
      exact .inl ⟨_, .null⟩
    · by_cases hm : ∃ a es, v = .object a ∧ h.cell? a = some (.mapping es)
      · obtain ⟨a, es, rfl, ha⟩ := hm
        exact .inr ⟨a, es, rfl, ha⟩
      · exact .inl ⟨_, .fixed hv hm⟩

/-- Cleaning projects an object on the fields of the root type, in place. A mapping that may be
changed keeps exactly the entries under declared names, with their values and in their order, no
other container of the heap and nothing of the context is changed, and cleaning once more changes
nothing and answers with the mapping itself. So does the first cleaning if all keys that are gone
can be written out; if one of them cannot, it fails, when all of them are gone. Anything else is
refused, and the heap stays as it is. -/
theorem clean_projects (c : Context) (h : Heap) (object : Option Value) :
    (∀ a es, object = some (.object a) → h.cell? a = some (.mapping es) →
      ∃ h' answer, c.perform h (.clean object) = (h', c, answer) ∧
        h'.cell? a = some (.mapping (es.filter fun p => c.root.declares p.1)) ∧
        (∀ b, b ≠ a → h'.cell? b = h.cell? b) ∧
        c.perform h' (.clean object) = (h', c, .ok (.cleaned (.object a))) ∧
        ((∀ k ∈ es.keys, c.root.declares k = false → h'.canSpell k = true) →
          answer = .ok (.cleaned (.object a))) ∧
        ((∃ k ∈ es.keys, c.root.declares k = false ∧ h'.canSpell k = false) →
          answer = .error (.misuse .overlong))) ∧
    (∀ k, c.root.declares k = true ↔ ∃ n ∈ c.root.fieldNames, k = .str n) ∧
    (object = none ∨ object = some .null →
      c.perform h (.clean object) = (h, c, .error (.usage .nothingToClean))) ∧
    ∀ v, object = some v → v ≠ .null → (¬∃ a es, v = .object a ∧ h.cell? a = some (.mapping es)) →
      c.perform h (.clean object) = (h, c, .error (.usage (.notMutable v))) := by
  refine ⟨?_, fun k => ObjectType.declares_iff, ?_, ?_⟩
  · rintro a es rfl ha
    obtain ⟨h', hself, hother, hperform⟩ := perform_clean_of_cell? ha c
    have hagain : h'.clean (.object a) c.root = (h', .ok ()) :=
      Heap.clean_of_declared hself fun p hp => (List.mem_filter.1 hp).2
    refine ⟨h', _, hperform, hself, hother, ?_, fun hall => if_pos ?_, fun hsome => if_neg ?_⟩
    · rw [perform_clean_object, hagain]
      rfl
    · refine List.all_eq_true.2 fun k hk => ?_
      obtain ⟨hmem, hundeclared⟩ := List.mem_filter.1 hk
      exact hall k hmem (Bool.not_eq_true' _ ▸ hundeclared)
    · obtain ⟨k, hk, hundeclared, hlong⟩ := hsome
      rw [List.all_eq_true]
      intro hall
      have hspell := hall k (List.mem_filter.2 ⟨hk, by rw [hundeclared]; rfl⟩)
      rw [hlong] at hspell
      contradiction
  · rintro (rfl | rfl)
    · exact perform_clean_of_cannot .absent
    · exact perform_clean_of_cannot .null
  · rintro v rfl hv hm
    exact perform_clean_of_cannot (.fixed hv hm)

/-- A link with keys of several kinds, among them two that are no numbers, and a view of it. The
link after it has a key of its own that is not declared. -/
def litteredLinks : Heap where
  cells := #[
    .mapping [(.float .nan, .int 1), (.str "label", .null), (.int 7, .int 2),
      (.tuple 4 [.str "next"], .int 3), (.decimal (.nan false false 0), .int 4),
      (.str "next", .object 1)],
    .mapping [(.str "draft", .bool true)], .view 0, .list [.object 0], .taken]

theorem clean_projects_littered : ∃ h',
    linkContext.perform litteredLinks (.clean (some (.object 0))) =
      (h', linkContext, .ok (.cleaned (.object 0))) ∧
    h'.mapping? (.object 0) = some (0, [(.str "label", .null), (.str "next", .object 1)]) ∧
    h'.mapping? (.object 2) = some (2, [(.str "label", .null), (.str "next", .object 1)]) ∧
    h'.cell? 1 = litteredLinks.cell? 1 ∧
    linkContext.perform h' (.clean (some (.object 0))) =
      (h', linkContext, .ok (.cleaned (.object 0))) ∧
    linkContext.perform h' (.clean (some (.object 2))) =
      (h', linkContext, .error (.usage (.notMutable (.object 2)))) := by
  obtain ⟨hclean, -⟩ := clean_projects linkContext litteredLinks (some (.object 0))
  obtain ⟨h', answer, hperform, hself, hother, hagain, hspelled, -⟩ := hclean 0 _ rfl rfl
  have hview : h'.cell? 2 = some (.view 0) := hother 2 (by decide)
  obtain ⟨-, -, -, hrefused⟩ := clean_projects linkContext h' (some (.object 2))
  have hseven : ¬pow10 maxDigits ≤ 7 := by decide +kernel
  have hanswer : answer = .ok (.cleaned (.object 0)) := by
    refine hspelled fun k hk _ => ?_
    simp only [Assoc.keys, List.map_cons, List.map_nil, List.mem_cons, List.not_mem_nil,
      or_false] at hk
    rcases hk with rfl | rfl | rfl | rfl | rfl | rfl <;>
      simp [Heap.canSpell, Heap.anyWithin, Heap.anyWithinAll, isOverlong, hseven]
  rw [hanswer] at hperform
  have hnull : (.object 2 : Value) ≠ .null := by
    intro he
    cases he
  refine ⟨h', hperform, ?_, ?_, hother 1 (by decide), hagain, hrefused _ rfl hnull ?_⟩
  · rw [Heap.mapping?, hself]
    rfl
  · rw [Heap.mapping?, hview]
    dsimp only
    rw [Heap.mappingAt?_eq_some_iff.2 hself]
    rfl
  · rintro ⟨a, es, ha, hcell⟩
    cases ha
    rw [hview] at hcell
    cases hcell

/-- A link with a key that cannot be written out. -/
def overgrownLink : Heap where
  cells := #[.mapping [(hugeNumber, .int 1), (.str "label", .str "a")]]

theorem perform_clean_overgrownLink (hroot : c.root = linkType) : ∃ h',
    c.perform overgrownLink (.clean (some (.object 0))) = (h', c, .error (.misuse .overlong)) ∧
    h'.cell? 0 = some (.mapping [(.str "label", .str "a")]) := by
  have hcell : overgrownLink.cell? 0 =
      some (.mapping [(hugeNumber, .int 1), (.str "label", .str "a")]) := rfl
  obtain ⟨h', hself, -, hperform⟩ := perform_clean_of_cell? hcell c
  rw [hroot] at hself hperform
  refine ⟨h', hperform.trans ?_, hself⟩
  have hkeys : (Assoc.keys [(hugeNumber, Value.int 1), (.str "label", .str "a")]).filter
      (fun k => !linkType.declares k) = [hugeNumber] := rfl
  rw [hkeys, List.all_cons, canSpell_hugeNumber]
  rfl

/-- The key is removed, and still there is no answer. -/
theorem clean_fails_when_done : ∃ h',
    linkContext.perform overgrownLink (.clean (some (.object 0))) =
      (h', linkContext, .error (.misuse .overlong)) ∧
    h'.cell? 0 = some (.mapping [(.str "label", .str "a")]) :=
  perform_clean_overgrownLink rfl

end Context

end ShapeCheck
