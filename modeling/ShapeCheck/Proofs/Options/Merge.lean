import ShapeCheck.Proofs.Options.Acceptance
import ShapeCheck.Value.Convert

/-
  Options under further overrides. Overrides are entered over those that options have: they win, a
  key that was there keeps its place, and new keys follow in their order (`Options.overridden`). By
  `overridden_overridden` it is the same to enter two sets of overrides one after the other, or the
  second into the first and then the result. A merge in a heap writes nothing over: all that was
  there stays, and what is new is put at a fresh address (`Overriding.mergeAt`), so that the same
  holds of merges in a heap (`Overriding.mergeAt_mergeAt`).
-/

namespace ShapeCheck

/-! ## Growing heaps -/

namespace Heap

variable {h h' h'' : Heap} {v : Value} {a : Addr} {es : Entries}

/-- Every container of the one heap is in the other, with the same content. -/
def Keeps (h h' : Heap) : Prop := ∀ a c, h.cell? a = some c → h'.cell? a = some c

theorem keeps_refl (h : Heap) : h.Keeps h := fun _ _ hc => hc

theorem Keeps.trans (hk : h.Keeps h') (hk' : h'.Keeps h'') : h.Keeps h'' :=
  fun a c hc => hk' a c (hk a c hc)

theorem cell?_alloc_self (h : Heap) (c : Cell) : (h.alloc c).1.cell? (h.alloc c).2 = some c :=
  Array.getElem?_push_size

theorem keeps_alloc (h : Heap) (c : Cell) : h.Keeps (h.alloc c).1 := by
  intro a d hd
  have ha : a < h.cells.size := lt_size_of_cell? hd
  rw [cell?, Array.getElem?_eq_getElem ha] at hd
  rw [alloc, cell?, Array.getElem?_push_lt ha, hd]

theorem Keeps.mappingAt? (hk : h.Keeps h') (hm : h.mappingAt? a = some es) :
    h'.mappingAt? a = some es :=
  mappingAt?_eq_some_iff.2 (hk a _ (mappingAt?_eq_some_iff.1 hm))

theorem Keeps.mapping? (hk : h.Keeps h') (hm : h.mapping? v = some (a, es)) :
    h'.mapping? v = some (a, es) := by
  obtain rfl := eq_object_of_mapping? hm
  unfold Heap.mapping? at hm ⊢
  dsimp only at hm ⊢
  split at hm
  · rename_i hc
    rw [hk _ _ hc]
    exact hm
  · rename_i t hc
    obtain ⟨fs, hfs, he⟩ := Option.map_eq_some_iff.1 hm
    rw [hk _ _ hc]
    dsimp only
    rw [hk.mappingAt? hfs, Option.map_some, he]
  · contradiction

theorem options?_object_iff {o : Options} :
    h.options? (.object a) = some o ↔ h.cell? a = some (.options o) := by
  unfold options?
  dsimp only
  split
  · rename_i hc
    rw [hc, Option.some.injEq, Option.some.injEq, Cell.options.injEq]
  · rename_i hc
    exact iff_of_false nofun (hc o)

theorem Keeps.options? (hk : h.Keeps h') {o : Options} (ho : h.options? (.object a) = some o) :
    h'.options? (.object a) = some o :=
  options?_object_iff.2 (hk a _ (options?_object_iff.1 ho))

end Heap

namespace Options

variable {h h' : Heap} {v : Value} {ms l : Assoc String String} {o : Options}

/-! ## Overrides as entries -/

theorem insert_map_textEntry (m : Assoc String String) (k w : String) :
    Assoc.insert (m.map textEntry) (.str k) (.str w) = (m.insert k w).map textEntry := by
  induction m with
  | nil => rfl
  | cons p m ih =>
    obtain ⟨k', w'⟩ := p
    by_cases hk : k' = k
    · subst hk
      have hself : (Value.str k' == .str k') = true := Value.beq_str_iff.2 rfl
      rw [Assoc.insert_cons_self, List.map_cons, List.map_cons, textEntry, textEntry,
        Assoc.insert, if_pos hself]
    · have hne : ¬(Value.str k' == .str k) = true :=
        fun he => hk (Value.str.inj (Value.beq_str_iff.1 he))
      rw [Assoc.insert_cons_of_ne hk, List.map_cons, List.map_cons, textEntry, Assoc.insert,
        if_neg hne, ih]

theorem insertAll_map_textEntry (m l : Assoc String String) :
    Assoc.insertAll (m.map textEntry) (l.map textEntry) = (m.insertAll l).map textEntry := by
  induction l generalizing m with
  | nil => rfl
  | cons p l ih =>
    obtain ⟨k, w⟩ := p
    rw [List.map_cons, textEntry, Assoc.insertAll_cons, Assoc.insertAll_cons,
      insert_map_textEntry, ih]

theorem field?_map_textEntry (ms : Assoc String String) (k : String) :
    Entries.field? (ms.map textEntry) k = (ms.get? k).map .str := by
  induction ms with
  | nil => rfl
  | cons p ms ih =>
    obtain ⟨k', w⟩ := p
    rw [List.map_cons, textEntry, Entries.field?, Assoc.get?]
    by_cases hk : k' = k
    · rw [if_pos hk, if_pos (beq_iff_eq.2 hk), Option.map_some]
    · rw [if_neg hk, if_neg fun he => hk (beq_iff_eq.1 he), ih]

/-- A value with overrides for distinct texts: a mapping from texts to texts, or nothing. -/
structure Overriding (h : Heap) (v : Value) (ms : Assoc String String) : Prop where
  given : Given h (some v) ms
  nodup : ms.keys.Nodup

theorem Overriding.keeps (hv : Overriding h v ms) (hk : h.Keeps h') : Overriding h' v ms := by
  obtain ⟨hgiven, hnodup⟩ := hv
  refine ⟨?_, hnodup⟩
  cases hgiven with
  | null => exact .null
  | mapping hm => exact .mapping (hk.mapping? hm)

theorem Overriding.entriesOf (hv : Overriding h v ms) :
    h.entriesOf v = .ok (ms.map textEntry) := by
  unfold Heap.entriesOf
  cases hv.given with
  | null => rfl
  | mapping hm =>
    rw [Heap.isTruthy_of_mapping? hm, hm]
    cases ms <;> rfl

/-! ## Merging -/

/-- The options with overrides entered over those that they have. -/
def overridden (o : Options) (ms : Assoc String String) : Options :=
  { o with messages := o.messages.insertAll ms }

theorem entries_overridden (o : Options) (ms : Assoc String String) :
    (o.overridden ms).entries = o.entries.insertAll (ms.map textEntry) :=
  (insertAll_map_textEntry o.messages ms).symm

theorem get?_overridden (hms : ms.keys.Nodup) (o : Options) (p : String) :
    (o.overridden ms).messages.get? p = (ms.get? p).or (o.messages.get? p) :=
  Assoc.get?_insertAll_of_nodup hms o.messages p

theorem keys_overridden (hms : ms.keys.Nodup) (o : Options) :
    (o.overridden ms).messages.keys =
      o.messages.keys ++ ms.keys.filter fun p => !o.messages.contains p :=
  Assoc.keys_insertAll hms o.messages

example : (overridden ⟨[("id", "a"), ("name", "b")], none⟩ [("age", "c"), ("id", "d")]).messages =
    [("id", "d"), ("name", "b"), ("age", "c")] := by decide

/-- Entering two sets of overrides one after the other is the same as entering the second into the
first, and then the result. -/
theorem overridden_overridden (hl : l.keys.Nodup) (o : Options) (ms : Assoc String String) :
    (o.overridden l).overridden ms = o.overridden (l.insertAll ms) := by
  unfold overridden
  rw [Assoc.insertAll_insertAll hl]

theorem Overriding.merge? (hv : Overriding h v ms) (o : Options) :
    o.merge? h v = .ok (if ms = [] then none else some (o.overridden ms)) := by
  unfold Options.merge?
  cases hv.given with
  | null => rfl
  | mapping hm =>
    rw [Heap.isTruthy_of_mapping? hm, hm]
    cases ms with
    | nil => rfl
    | cons p ms =>
      have htexts : textMessages (o.entries.insertAll ((p :: ms).map textEntry)) =
          .ok (o.overridden (p :: ms)).messages :=
        textMessages_ok_iff.2 (entries_overridden o (p :: ms)).symm
      dsimp only
      rw [htexts]
      rfl

/-- No overrides change nothing, so that the options stay what they are. -/
theorem Overriding.withMessages (hv : Overriding h v ms) (o : Options) :
    o.withMessages h v = .ok (o.overridden ms) := by
  rw [Options.withMessages, hv.merge? o]
  by_cases hms : ms = []
  · rw [if_pos hms, hms]
    rfl
  · rw [if_neg hms]
    rfl

/-- Merged options can be found in a heap that keeps everything else, the options before the merge
included. -/
theorem Overriding.mergeAt {a : Addr} (hv : Overriding h v ms)
    (ho : h.options? (.object a) = some o) :
    ∃ h' b, mergeAt h a v = .ok (h', b) ∧ h'.options? (.object b) = some (o.overridden ms) ∧
      h.Keeps h' := by
  unfold Options.mergeAt
  rw [ho]
  dsimp only
  rw [hv.merge? o]
  by_cases hms : ms = []
  · subst hms
    exact ⟨h, a, rfl, ho, h.keeps_refl⟩
  · rw [if_neg hms]
    exact ⟨_, _, rfl, Heap.options?_object_iff.2 (h.cell?_alloc_self _), h.keeps_alloc _⟩

/-- Two merges in a row have the result of one merge with the second set entered into the first, and
the options that they start from stay. -/
theorem Overriding.mergeAt_mergeAt {u w : Value} {a b : Assoc String String} {c : Addr}
    (hu : Overriding h u a) (hv : Overriding h v b) (hw : Overriding h w (a.insertAll b))
    (hc : h.options? (.object c) = some o) : ∃ h₁ c₁ h₂ c₂ h₃ c₃,
      Options.mergeAt h c u = .ok (h₁, c₁) ∧ Options.mergeAt h₁ c₁ v = .ok (h₂, c₂) ∧
      Options.mergeAt h₂ c w = .ok (h₃, c₃) ∧
      h₃.options? (.object c₂) = some (o.overridden (a.insertAll b)) ∧
      h₃.options? (.object c₃) = some (o.overridden (a.insertAll b)) ∧
      h₃.options? (.object c) = some o := by
  obtain ⟨h₁, c₁, hmerge₁, hc₁, hk₁⟩ := hu.mergeAt hc
  obtain ⟨h₂, c₂, hmerge₂, hc₂, hk₂⟩ := (hv.keeps hk₁).mergeAt hc₁
  rw [overridden_overridden hu.nodup] at hc₂
  have hk : h.Keeps h₂ := hk₁.trans hk₂
  obtain ⟨h₃, c₃, hmerge₃, hc₃, hk₃⟩ := (hw.keeps hk).mergeAt (hk.options? hc)
  exact ⟨h₁, c₁, h₂, c₂, h₃, c₃, hmerge₁, hmerge₂, hmerge₃, hk₃.options? hc₂, hc₃,
    hk₃.options? (hk.options? hc)⟩

end Options

end ShapeCheck
