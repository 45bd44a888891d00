import ShapeCheck.Proofs.Check.Sharing
import ShapeCheck.Proofs.Session.Cleaning

/-
  What a validation reads of the data. It looks up the declared fields of an object that it enters,
  and nothing else, so two runs on heaps that differ elsewhere stay in step: at every place that the
  first comes to, the second finds the same value, the same fault in it and the same fields inside
  (`Alike`, `alike_of_edited`). By induction into objects they find the same (`finding?_of_alike`).
  A clean is an edit of this kind, as long as the object is entered under the root type only; being
  around all that is inside it, it can be entered once more only through a view
  (`opens_of_no_view`).
-/

namespace ShapeCheck

open Place

/-! ## Text keys -/

namespace Entries

variable {n : String} {v : Value}

/-- Keeping some keys does not change what is found under one of them. -/
theorem field?_filter {p : Value → Bool} (hn : p (.str n) = true) (es : Entries) :
    field? (es.filter fun q => p q.1) n = es.field? n := by
  induction es with
  | nil => rfl
  | cons q es ih =>
    obtain ⟨l, w⟩ := q
    rw [List.filter_cons]
    by_cases hl : l = .str n
    · subst hl
      rw [if_pos hn, field?_cons_self, field?_cons_self]
    · rw [field?_cons_of_ne hl]
      split
      · rw [field?_cons_of_ne hl, ih]
      · exact ih

end Entries

/-! ## Edits of the heap -/

namespace Heap

/-- Where the entries of a mapping are kept: at its own address, or for a view, at the address of
the mapping that it shows. -/
def contentOf? (h : Heap) : Value → Option Addr
  | .object a =>
    match h.cell? a with
    | some (.mapping _) => some a
    | some (.view b) => some b
    | _ => none
  | _ => none

/-- Something of the heap refers to an address: a mapping has it for a value, or a view shows it. -/
inductive Refers (h : Heap) (a : Addr) : Prop
  | value {b : Addr} {es : Entries} {k : Value} :
      h.cell? b = some (.mapping es) → (k, .object a) ∈ es → Refers h a
  | view {b : Addr} : h.cell? b = some (.view a) → Refers h a

/-- The heap after an edit. The entries of mappings may be others, or in another order, so long as
the same is found under every key that is kept; containers may be added where nothing refers to. -/
structure Edited (h : Heap) (kept : Addr → String → Prop) (h' : Heap) : Prop where
  mapping : ∀ {a es}, h.cell? a = some (.mapping es) →
    ∃ es', h'.cell? a = some (.mapping es') ∧ ∀ k, kept a k → es'.field? k = es.field? k
  other : ∀ {a c}, h.cell? a = some c → (∀ es, c ≠ .mapping es) → h'.cell? a = some c
  fresh : ∀ {a}, h.cell? a = none → h.Refers a → h'.cell? a = none

variable {h h' : Heap} {v : Value} {a : Addr} {es : Entries} {kept : Addr → String → Prop}

theorem mapping?_eq_some_iff : h.mapping? v = some (a, es) ↔
    v = .object a ∧ ∃ d, h.contentOf? v = some d ∧ h.cell? d = some (.mapping es) := by
  constructor
  · intro hm
    obtain rfl := eq_object_of_mapping? hm
    refine ⟨rfl, ?_⟩
    unfold mapping? at hm
    dsimp only at hm
    split at hm
    · rename_i hcell
      cases hm
      refine ⟨a, ?_, hcell⟩
      rw [contentOf?, hcell]
    · rename_i b hcell
      obtain ⟨fs, hb, he⟩ := Option.map_eq_some_iff.1 hm
      cases he
      refine ⟨b, ?_, mappingAt?_eq_some_iff.1 hb⟩
      rw [contentOf?, hcell]
    · contradiction
  · rintro ⟨rfl, d, hd, hcell⟩
    unfold contentOf? at hd
    dsimp only at hd
    split at hd
    · cases hd
      rw [mapping?, hcell]
    · rename_i hview
      cases hd
      rw [mapping?, hview]
      dsimp only
      rw [mappingAt?_eq_some_iff.2 hcell]
      rfl
    · contradiction

/-- An object in a field of an object is one that the heap refers to. -/
theorem refers_of_field? (hm : h.mapping? v = some (a, es)) {n : String} {b : Addr}
    (hb : es.field? n = some (.object b)) : h.Refers b := by
  obtain ⟨-, d, -, hcell⟩ := mapping?_eq_some_iff.1 hm
  exact .value hcell (Entries.mem_of_field? hb)

theorem refers_of_contentOf? {d : Addr} (ha : h.Refers a)
    (hd : h.contentOf? (.object a) = some d) : h.Refers d := by
  unfold contentOf? at hd
  dsimp only at hd
  split at hd
  · cases hd
    exact ha
  · rename_i hcell
    cases hd
    exact .view hcell
  · contradiction

namespace Edited

/-- An edit moves no content. -/
theorem contentOf?_eq (he : h.Edited kept h')
    (hv : ∀ a, v = .object a → h.cell? a = none → h.Refers a) :
    h'.contentOf? v = h.contentOf? v := by
  cases v with
  | object a =>
    unfold contentOf?
    dsimp only
    cases hcell : h.cell? a with
    | none => rw [he.fresh hcell (hv a rfl hcell)]
    | some c =>
      by_cases hc : ∃ es, c = .mapping es
      · obtain ⟨es, rfl⟩ := hc
        obtain ⟨es', hcell', -⟩ := he.mapping hcell
        rw [hcell']
      · rw [he.other hcell fun es hes => hc ⟨es, hes⟩]
  | _ => rfl

/-- What is no mapping becomes none. -/
theorem ne_mapping (he : h.Edited kept h') (hnot : ∀ es, h.cell? a ≠ some (.mapping es))
    (href : h.Refers a) : h'.cell? a ≠ some (.mapping es) := by
  intro hes
  cases hcell : h.cell? a with
  | none =>
    rw [he.fresh hcell href] at hes
    contradiction
  | some c =>
    have hc : ∀ es, c ≠ .mapping es := fun es he => hnot es (he ▸ hcell)
    rw [he.other hcell hc] at hes
    exact hc es (Option.some.inj hes)

/-- A mapping is one after the edit, with the same under the keys that are kept. -/
theorem mapping?_some (he : h.Edited kept h') (hm : h.mapping? v = some (a, es)) :
    ∃ d es', h.contentOf? v = some d ∧ h'.mapping? v = some (a, es') ∧
      ∀ k, kept d k → es'.field? k = es.field? k := by
  obtain ⟨rfl, d, hd, hcell⟩ := mapping?_eq_some_iff.1 hm
  obtain ⟨es', hcell', hkept⟩ := he.mapping hcell
  have hthere : ∀ b, Value.object a = .object b → h.cell? b = none → h.Refers b := by
    rintro b hb hnone
    cases hb
    rw [contentOf?, hnone] at hd
    contradiction
  have hd' : h'.contentOf? (.object a) = some d := (he.contentOf?_eq hthere).trans hd
  exact ⟨d, es', hd, mapping?_eq_some_iff.2 ⟨rfl, d, hd', hcell'⟩, hkept⟩

/-- What is no mapping is none after the edit, if it was referred to before. -/
theorem mapping?_none (he : h.Edited kept h') (hm : h.mapping? v = none)
    (hv : ∀ a, v = .object a → h.Refers a) : h'.mapping? v = none := by
  refine Option.eq_none_iff_forall_ne_some.2 fun ⟨a, es⟩ hm' => ?_
  obtain ⟨rfl, d, hd, hes⟩ := mapping?_eq_some_iff.1 hm'
  rw [he.contentOf?_eq fun a ha _ => hv a ha] at hd
  refine he.ne_mapping (fun fs hfs => ?_) (refers_of_contentOf? (hv a rfl) hd) hes
  rw [mapping?_eq_some_iff.2 ⟨rfl, d, hd, hfs⟩] at hm
  contradiction

end Edited

end Heap

/-! ## Two runs in step -/

namespace Place

variable {s : Schema} {h h' : Heap} {x z : Place} {row : List Place} {q : List String}
  {kept : Addr → String → Prop}

/-- The same is wrong with a place on both heaps, and its object has the same fields. -/
structure Alike (s : Schema) (h h' : Heap) (x : Place) : Prop where
  violation : x.violation? h' = x.violation? h
  inner : x.inner s h' = x.inner s h

/-- Where all places are alike, the same is found. -/
theorem finding?_of_alike (hx : x.Alike s h h')
    (hw : ∀ q z, Walk s h (x.inner s h) q z → z.Alike s h h') :
    x.finding? s h' = x.finding? s h := by
  induction hn : h.unvisited x.seen using Nat.strongRecOn generalizing x with
  | ind n ih =>
    refine finding?_congr rfl hx.violation ?_
    rw [hx.inner]
    refine List.filterMap_congr fun y hy => ?_
    exact ih _ (hn ▸ unvisited_lt_of_mem_inner hy) (hw _ y (.here hy))
      (fun q z hz => hw _ z (.inside hy hz)) rfl

/-- An object at the place is one that the heap refers to. -/
def Known (h : Heap) (x : Place) : Prop := ∀ a, x.value = some (.object a) → h.Refers a

theorem known_of_mem_row {v : Value} {a : Addr} {es : Entries} {t : ObjectType} {A : List Addr}
    (hm : h.mapping? v = some (a, es)) (hx : x ∈ Place.row t es A) : x.Known h := by
  obtain ⟨f, -, rfl⟩ := mem_row.1 hx
  exact fun b hb => Heap.refers_of_field? hm hb

theorem Walk.known (hw : Walk s h row q z) (hrow : ∀ x ∈ row, x.Known h) : z.Known h := by
  induction hw with
  | here hx => exact hrow _ hx
  | inside _ _ ih =>
    refine ih fun y hy => ?_
    obtain ⟨t, v, a, es, -, -, -, hm, -, hinner⟩ := entered_of_mem_inner hy
    exact known_of_mem_row hm (hinner ▸ hy)

theorem row_congr {t : ObjectType} {es es' : Entries} (A : List Addr)
    (hes : ∀ k ∈ t.fieldNames, es'.field? k = es.field? k) :
    Place.row t es' A = Place.row t es A := by
  refine List.map_congr_left fun f hf => ?_
  rw [hes _ (ObjectType.mem_fieldNames hf)]

/-- A place is alike before and after an edit that keeps the fields of the object there, if the
object is entered. -/
theorem alike_of_edited (he : h.Edited kept h') (hx : x.Known h)
    (hkept : ∀ a d t, x.Holds h a → a ∉ x.seen → x.value.bind h.contentOf? = some d →
      s.type? x.field.typeRef = some t → ∀ k ∈ t.fieldNames, kept d k) :
    x.Alike s h h' := by
  cases hf : x.field.scalar with
  | some k => exact ⟨by simp [violation?, hf], by simp [inner, hf]⟩
  | none =>
    cases hv : x.value with
    | none => exact ⟨by simp [violation?, hv], by simp [inner, hv]⟩
    | some v =>
      by_cases hn : v = .null
      · subst hn
        exact ⟨by simp [violation?, hv], by simp [inner, hv, Heap.mapping?]⟩
      · cases hm : h.mapping? v with
        | none =>
          have hm' := he.mapping?_none hm fun a ha => hx a (ha ▸ hv)
          refine ⟨?_, by simp [inner, hv, hm, hm']⟩
          rw [violation?_of_object hv hn hf, violation?_of_object hv hn hf, hm, hm']
        | some m =>
          obtain ⟨a, es⟩ := m
          obtain ⟨d, es', hd, hm', hes⟩ := he.mapping?_some hm
          refine ⟨?_, ?_⟩
          · rw [violation?_of_object hv hn hf, violation?_of_object hv hn hf, hm, hm']
          · cases ht : s.type? x.field.typeRef with
            | none => simp [inner, ht]
            | some t =>
              by_cases ha : a ∈ x.seen
              · simp [inner, hv, hf, ht, hm, hm', ha]
              · rw [inner_of_entered hf ht hv hm ha, inner_of_entered hf ht hv hm' ha]
                refine row_congr _ fun k hk => hes k ?_
                have hd' : x.value.bind h.contentOf? = some d := by
                  rw [hv, Option.bind_some, hd]
                exact hkept a d t ⟨hf, v, es, hv, hm⟩ ha hd' ht k hk

end Place

/-! ## Validations -/

namespace Context

variable {h h' : Heap} {c : Context} {o : Value} {a d : Addr} {es : Entries} {n : String}

/-- The content at an address is entered as an object of a type when an object is validated. -/
inductive Opens (h : Heap) (c : Context) (o : Value) : Addr → String → Prop
  | root {d : Addr} : h.contentOf? o = some d → Opens h c o d c.root.name
  | inside {p : List String} {x : Place} {a d : Addr} : c.Reaches h o p x → x.Holds h a →
      a ∉ x.seen → x.value.bind h.contentOf? = some d → Opens h c o d x.field.typeRef

/-- A key is declared by a type under which the content at an address is entered. -/
def Reads (h : Heap) (c : Context) (o : Value) (d : Addr) (k : String) : Prop :=
  ∃ n t, c.Opens h o d n ∧ c.schema.type? n = some t ∧ k ∈ t.fieldNames

theorem validate_of_edited (hc : c.Compiled) (hw : c.overrides.Legible)
    (hm : h.mapping? o = some (a, es)) (he : h.Edited (c.Reads h o) h') :
    c.validate h' (some o) = c.validate h (some o) := by
  obtain ⟨d, es', hd, hm', hes⟩ := he.mapping?_some hm
  -- every place that the validation comes to is alike on both heaps
  have halike : ∀ p x, c.Reaches h o p x → x.Alike c.schema h h' := by
    intro p x hr
    have hknown : x.Known h := ((reaches_iff hm).1 hr).known fun y hy => known_of_mem_row hm hy
    refine alike_of_edited he hknown fun b e t hb hseen hcontent ht k hk => ?_
    exact ⟨_, t, .inside hr hb hseen hcontent, ht, hk⟩
  refine validate_eq_of_findings hc hw hm' hm fun f hf => ?_
  have hroot : es'.field? f.name = es.field? f.name :=
    hes f.name ⟨_, c.root, .root hd, hc.root, ObjectType.mem_fieldNames hf⟩
  have hmem : (⟨f, es.field? f.name, [a]⟩ : Place) ∈ row c.root es [a] :=
    mem_row.2 ⟨f, hf, rfl⟩
  rw [hroot]
  refine finding?_of_alike (halike _ _ ((reaches_iff hm).2 (.here hmem))) fun q z hz => ?_
  exact halike _ z ((reaches_iff hm).2 (.inside hmem hz))

/-! ## Validation after a clean -/

/-- The object itself is around every place inside it, so without views of it on the way it is
entered as an object of the root type only. -/
theorem opens_of_no_view (ha : h.cell? a = some (.mapping es))
    (hview : ∀ p x b, c.Reaches h (.object a) p x → x.Holds h b → h.cell? b ≠ some (.view a))
    (ho : c.Opens h (.object a) a n) : n = c.root.name := by
  cases ho with
  | root => rfl
  | @inside p x b _ hr hb hseen hd =>
    obtain ⟨hscalar, v, fs, hv, hm⟩ := hb
    obtain rfl := Heap.eq_object_of_mapping? hm
    rw [hv, Option.bind_some, Heap.contentOf?] at hd
    split at hd
    · rename_i hcell
      cases hd
      have hroot : h.mapping? (.object a) = some (a, es) := by
        rw [Heap.mapping?, ha]
      have haround : a ∈ x.seen := ((reaches_iff hroot).1 hr).mem_seen fun y hy => by
        obtain ⟨f, -, rfl⟩ := mem_row.1 hy
        exact List.mem_singleton_self a
      exact absurd haround hseen
    · rename_i hcell
      cases hd
      exact absurd hcell (hview p x b hr ⟨hscalar, _, fs, hv, hm⟩)
    · contradiction

theorem edited_of_clean (hc : c.Compiled) (ha : h.cell? a = some (.mapping es))
    (hview : ∀ p x b, c.Reaches h (.object a) p x → x.Holds h b → h.cell? b ≠ some (.view a))
    (hself : h'.cell? a = some (.mapping (es.filter fun p => c.root.declares p.1)))
    (hother : ∀ b, b ≠ a → h'.cell? b = h.cell? b) :
    h.Edited (c.Reads h (.object a)) h' where
  mapping {b fs} hb := by
    by_cases hne : b = a
    · subst hne
      cases ha.symm.trans hb
      refine ⟨_, hself, fun k hk => ?_⟩
      obtain ⟨n, t, hopens, ht, hk⟩ := hk
      rw [opens_of_no_view ha hview hopens] at ht
      cases hc.root.symm.trans ht
      exact Entries.field?_filter (ObjectType.declares_iff.2 ⟨k, hk, rfl⟩) es
    · exact ⟨fs, (hother b hne).trans hb, fun _ _ => rfl⟩
  other {b e} hb hnot := by
    have hne : b ≠ a := by
      rintro rfl
      exact hnot es (Option.some.inj (hb.symm.trans ha))
    exact (hother b hne).trans hb
  fresh {b} hb _ := by
    have hne : b ≠ a := by
      rintro rfl
      cases ha.symm.trans hb
    exact (hother b hne).trans hb

/-- A validation reads declared keys only. With legible overrides no edit of the data changes its
answer or anything that it reports, if under each key that is declared by a type under which some
content is entered the content has what it had before. So a clean of a mapping, even one whose keys
cannot all be written out, makes no difference to its validation, even if the mapping leads back to
itself, unless the way back is through a view of it. -/
theorem validate_reads_declared_keys (hc : c.Compiled) (hw : c.overrides.Legible)
    (hm : (h.mapping? o).isSome) :
    ∃ out valid, c.validate h (some o) = (out, .ok valid) ∧
      (∀ h', h.Edited (c.Reads h o) h' → c.validate h' (some o) = (out, .ok valid)) ∧
      ∀ a es, o = .object a → h.cell? a = some (.mapping es) →
        (∀ p x b, c.Reaches h o p x → x.Holds h b → h.cell? b ≠ some (.view a)) →
        ∃ h' answer, c.perform h (.clean (some o)) = (h', c, answer) ∧
          (answer = .ok (.cleaned o) ∨ answer = .error (.misuse .overlong)) ∧
          ∀ before, Context.validate h' { c with outcome := before } (some o) =
            (out, .ok valid) := by
  have hvalidate := validate_ok hc hw hm
  obtain ⟨⟨a, es⟩, hm⟩ := Option.isSome_iff_exists.1 hm
  refine ⟨_, _, hvalidate, fun h' he => (validate_of_edited hc hw hm he).trans hvalidate, ?_⟩
  rintro b fs rfl hb hview
  obtain ⟨h', hself, hother, hclean⟩ := perform_clean_of_cell? hb c
  refine ⟨h', _, hclean, ?_, fun before => ?_⟩
  · split
    · exact .inl rfl
    · exact .inr rfl
  · -- what was recorded before does not show in a validation
    have hm₀ : c.validate h (some (.object b)) =
        Context.validate h { c with outcome := before } (some (.object b)) := by
      rw [hvalidate, validate_ok (hc.outcome before) hw (Option.isSome_iff_exists.2 ⟨_, hm⟩)]
      rfl
    rw [← hvalidate, hm₀]
    have hc := hc.outcome before
    exact validate_of_edited hc hw hm (edited_of_clean hc hb hview hself hother)

/-- Two links with keys of no link, next to each other by way of a view. -/
def draftedLinks : Heap where
  cells := #[.mapping [(.str "next", .object 2), (.str "label", .str "a"), (.str "draft", .int 1)],
    .mapping [(.str "next", .object 0), (.str "note", .int 2)], .view 1]

/-- The same links in another order, with other keys of no link, one of which leads to a new
mapping. -/
def revisedLinks : Heap where
  cells := #[.mapping [(.str "label", .str "a"), (.str "next", .object 2)],
    .mapping [(.str "note", .object 3), (.int 5, .null), (.str "next", .object 0)], .view 1,
    .mapping []]

theorem lt_of_refers_draftedLinks (hr : draftedLinks.Refers a) : a < 3 := by
  cases hr with
  | @value b es k hb he =>
    obtain _ | _ | _ | b := b
    · cases hb
      simp only [List.mem_cons, Prod.mk.injEq, List.not_mem_nil, or_false] at he
      rcases he with ⟨-, he⟩ | ⟨-, he⟩ | ⟨-, he⟩ <;> cases he
      decide
    · cases hb
      simp only [List.mem_cons, Prod.mk.injEq, List.not_mem_nil, or_false] at he
      rcases he with ⟨-, he⟩ | ⟨-, he⟩ <;> cases he
      decide
    · cases hb
    · cases hb
  | @view b hb =>
    obtain _ | _ | _ | b := b
    · cases hb
    · cases hb
    · cases hb
      decide
    · cases hb

theorem edited_draftedLinks :
    draftedLinks.Edited (linkContext.Reads draftedLinks (.object 0)) revisedLinks := by
  have hkeys : ∀ d k, linkContext.Reads draftedLinks (.object 0) d k →
      k = "next" ∨ k = "label" := by
    rintro d k ⟨n, t, -, ht, hk⟩
    rw [link_of_type? ht] at hk
    simpa [linkType, ObjectType.fieldNames] using hk
  refine ⟨?_, ?_, ?_⟩
  · intro a es ha
    obtain _ | _ | _ | a := a
    · cases ha
      refine ⟨_, rfl, fun k hk => ?_⟩
      rcases hkeys _ _ hk with rfl | rfl <;> rfl
    · cases ha
      refine ⟨_, rfl, fun k hk => ?_⟩
      rcases hkeys _ _ hk with rfl | rfl <;> rfl
    · cases ha
    · cases ha
  · intro a cell ha hnot
    obtain _ | _ | _ | a := a
    · exact absurd (Option.some.inj ha).symm (hnot _)
    · exact absurd (Option.some.inj ha).symm (hnot _)
    · exact ha
    · cases ha
  · intro a ha href
    -- the new mapping stands at an address that nothing referred to
    have hsome : draftedLinks.cells[a]? ≠ none :=
      mt Array.getElem?_eq_none_iff.1 (Nat.not_le.2 (lt_of_refers_draftedLinks href))
    exact absurd ha hsome

/-- What is wrong with the drafted links: the second leads back to itself and has no label. -/
def draftedOutcome : Outcome where
  errors := [("next", ⟨.str "next", .str "next is not a valid Link", "Link",
    [⟨.str "next.next", .str "next.next contains a circular reference", "Link", []⟩,
      ⟨.str "next.label", .str "next.label is required", "String", []⟩]⟩)]
  validated := true

theorem validate_reads_declared_keys_drafted :
    linkContext.Compiled ∧ linkContext.overrides.Legible ∧
    (draftedLinks.mapping? (.object 0)).isSome ∧
    draftedLinks.Edited (linkContext.Reads draftedLinks (.object 0)) revisedLinks ∧
    linkContext.validate draftedLinks (some (.object 0)) = (draftedOutcome, .ok false) ∧
    linkContext.validate revisedLinks (some (.object 0)) = (draftedOutcome, .ok false) ∧
    ∃ h' answer, linkContext.perform draftedLinks (.clean (some (.object 0))) =
        (h', linkContext, answer) ∧
      (answer = .ok (.cleaned (.object 0)) ∨ answer = .error (.misuse .overlong)) ∧
      Context.validate h' { linkContext with outcome := draftedOutcome } (some (.object 0)) =
        (draftedOutcome, .ok false) := by
  have hm : (draftedLinks.mapping? (.object 0)).isSome := by rfl
  obtain ⟨out, valid, hvalidate, hedited, hclean⟩ :=
    validate_reads_declared_keys linkContext_compiled Overrides.legible_nil hm
  have hrun : linkContext.validate draftedLinks (some (.object 0)) =
      (draftedOutcome, .ok false) := by
    cbv
  rw [hrun] at hvalidate
  cases hvalidate
  have hview : ∀ b, draftedLinks.cell? b ≠ some (.view 0) := by
    intro b hb
    obtain _ | _ | _ | b := b <;> cases hb
  obtain ⟨h', answer, hperform, hanswer, hafter⟩ := hclean 0 _ rfl rfl fun _ _ b _ _ => hview b
  exact ⟨linkContext_compiled, Overrides.legible_nil, hm, edited_draftedLinks, hrun,
    hedited _ edited_draftedLinks, h', answer, hperform, hanswer, hafter _⟩

end Context

end ShapeCheck
