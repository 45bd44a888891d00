import ShapeCheck.Proofs.Check.Coverage
import ShapeCheck.Proofs.Check.Finding

/-
  Two ways into the check of an object. Its fields can be checked one by one, with the object itself
  around each of them; that is what a validation records (`ordered_validate`). Or its fields are
  checked as those of an object inside others, with nothing around them. The second way does not
  know the object when it meets it again. So the two agree exactly on objects that no path leads
  back to (`checkFields_agrees_iff`), and an object that contains itself may go unnoticed
  (`checkFields_misses_return`).
-/

namespace ShapeCheck

namespace Place

variable {s : Schema} {h : Heap} {m : Overrides} {x z : Place} {row : List Place}
  {A B : List Addr} {p q : List String} {a : Addr}

/-! ## Walks with fewer objects around them -/

/-- Where a walk goes among some objects, it goes among fewer of them, and what it meets on the way
is added to both. -/
theorem Walk.withSeen (hw : Walk s h row q z) (hrow : ∀ x ∈ row, x.seen = B)
    (hAB : ∀ a ∈ A, a ∈ B) :
    ∃ C, Walk s h (row.map (·.withSeen A)) q (z.withSeen C) ∧ ∀ a ∈ C, a ∈ A ∨ a ∉ B := by
  induction hw generalizing A B with
  | here hx => exact ⟨A, .here (List.mem_map_of_mem hx), fun a ha => .inl ha⟩
  | @inside row x z p hx hw ih =>
    obtain ⟨b, -, hb, hinner, hentered⟩ := inner_withSeen hw.row_ne_nil
    rw [hrow x hx] at hb hinner
    have hbA : b ∉ A := fun hA => hb (hAB b hA)
    have hcons : ∀ a ∈ b :: A, a ∈ b :: B := by
      intro a ha
      rcases List.mem_cons.1 ha with rfl | ha
      · exact List.mem_cons_self ..
      · exact List.mem_cons_of_mem b (hAB a ha)
    obtain ⟨C, hC, hmet⟩ := ih hinner hcons
    refine ⟨C, .inside (x := x.withSeen A) (List.mem_map_of_mem hx) ?_, fun a ha => ?_⟩
    · rw [hentered A hbA]
      exact hC
    · rcases hmet a ha with hA | hB
      · rcases List.mem_cons.1 hA with rfl | hA
        · exact .inr hb
        · exact .inl hA
      · exact .inr fun hB' => hB (List.mem_cons_of_mem b hB')

/-- On a walk the objects around its start stay around. -/
theorem Walk.mem_seen (hw : Walk s h row q z) (hrow : ∀ x ∈ row, a ∈ x.seen) : a ∈ z.seen := by
  induction hw with
  | here hx => exact hrow _ hx
  | @inside row x z p hx hw ih =>
    refine ih fun y hy => ?_
    obtain ⟨b, -, -, hinner, -⟩ := inner_withSeen (List.ne_nil_of_mem hy)
    rw [hinner y hy]
    exact List.mem_cons_of_mem b (hrow x hx)

/-! ## Objects met again -/

theorem violation?_of_holds (ha : x.Holds h a) :
    x.violation? h = if a ∈ x.seen then some .circular else none := by
  obtain ⟨hf, v, es, hv, hm⟩ := ha
  have hn : v ≠ .null := by
    rintro rfl
    contradiction
  rw [violation?_of_object hv hn hf, hm]

/-- The failures of a row are what is found there, spelled at the path of its object. -/
theorem failures_eq (hs : s.Closed) (hrow : ∀ y ∈ row, y.Resolved s) (hp : IsPath p) :
    failures s h m row p = Finding.spellAll m (dotted p) (findings s h row) := by
  rw [← failures_eq_spell hs hrow, failures]
  refine List.filterMap_congr fun y _ => ?_
  rw [joinPath_dotted hp]

section Around

variable {n : String} {t : ObjectType} {es : Entries}

/-- An object that a walk meets again is missed by a check that has nothing around the row. -/
theorem failures_ne_of_holds (hs : s.Compiled) (ht : s.type? n = some t)
    (hw : Walk s h (Place.row t es [a]) q z) (hz : z.Holds h a) :
    failures s h m (Place.row t es []) [] ≠ failures s h m (Place.row t es [a]) [] := by
  intro he
  have hinside := proper_row hs ht es [a]
  have hfree := proper_row hs ht es []
  have hpath := hw.isPath hs hinside
  have hseen : ∀ x ∈ Place.row t es [a], x.seen = [a] := by
    intro x hx
    obtain ⟨f, -, rfl⟩ := mem_row.1 hx
    rfl
  -- among the failures of the object itself stands one at the place where it is met again
  have haround : a ∈ z.seen := hw.mem_seen fun x hx => by
    rw [hseen x hx]
    exact List.mem_cons_self ..
  have hcircular : z.violation? h = some .circular := by
    rw [violation?_of_holds hz, if_pos haround]
  have hfail : z.failure? s h m (dotted ([] ++ q)) =
      some (z.field.failure m (dotted q) .circular []) :=
    failure?_of_violation hs.toClosed (hw.resolved hs hinside) hcircular (dotted q)
  have hnode := (mem_forest_failures hs hinside isPath_nil).2 ⟨q, z, hw, hfail⟩
  -- without the object around it, the place on the same path is not at fault by itself
  rw [← he] at hnode
  obtain ⟨q', z', hw', hfail'⟩ := (mem_forest_failures hs hfree isPath_nil).1 hnode
  obtain ⟨hname, -, hdetails⟩ :=
    failure?_eq_some hs.toClosed (hw'.resolved hs hfree) hfail'
  obtain rfl : q = q' :=
    dotted_injective hpath (hw'.isPath hs hfree) (Value.str.inj hname)
  obtain ⟨C, hC, hmet⟩ := hw.withSeen hseen fun b (hb : b ∈ []) => absurd hb List.not_mem_nil
  rw [map_withSeen_row] at hC
  obtain rfl := hw'.unique hs hfree hC
  have hnot : a ∉ C := fun ha => (hmet a ha).elim List.not_mem_nil fun hn =>
    hn (List.mem_cons_self ..)
  have hsound : (z.withSeen C).violation? h = none := by
    have hz' : (z.withSeen C).Holds h a := hz
    rw [violation?_of_holds hz']
    exact if_neg hnot
  have hfault := hdetails.1 rfl
  rw [hsound] at hfault
  contradiction

theorem failures_eq_of_not_holds (hs : s.Compiled) (ht : s.type? n = some t)
    (hreturn : ∀ q z, Walk s h (Place.row t es [a]) q z → ¬z.Holds h a) :
    failures s h m (Place.row t es []) [] = failures s h m (Place.row t es [a]) [] := by
  have hinside := proper_row hs ht es [a]
  have hfree := proper_row hs ht es []
  have hfound : findings s h (Place.row t es []) = findings s h (Place.row t es [a]) := by
    refine findings_row t es fun q z hw b hb => ?_
    have hne : b ≠ a := fun he => hreturn q z hw (he ▸ hb)
    simp [hne]
  rw [failures_eq hs.toClosed hfree.resolved isPath_nil,
    failures_eq hs.toClosed hinside.resolved isPath_nil, hfound]

/-- The object around a row makes no difference exactly if no walk meets it again. -/
theorem failures_agree_iff (hs : s.Compiled) (ht : s.type? n = some t) :
    failures s h m (Place.row t es []) [] = failures s h m (Place.row t es [a]) [] ↔
      ∀ q z, Walk s h (Place.row t es [a]) q z → ¬z.Holds h a := by
  constructor
  · intro he q z hw hz
    exact failures_ne_of_holds hs ht hw hz he
  · exact failures_eq_of_not_holds hs ht

end Around

end Place

/-! ## The two ways -/

namespace Schema

open Place

variable {s : Schema} {n : String} {t : ObjectType} {h : Heap} {o : Value} {a : Addr}
  {es : Entries}

/-- The failures of the fields of an object, each checked by itself. -/
def checkEach (s : Schema) (h : Heap) (m : Overrides) (t : ObjectType) (o : Value) :
    Except Fault (List FieldError) :=
  collect (fun f => s.checkField h m t (.str f.name) o) t.fields

theorem filterMap_row (t : ObjectType) (es : Entries) (A : List Addr) {α : Type}
    (g : Place → Option α) :
    (row t es A).filterMap g = t.fields.filterMap fun f => g ⟨f, es.field? f.name, A⟩ := by
  rw [row, List.filterMap_map]
  rfl

theorem Compiled.checkEach_eq (hs : s.Compiled) (ht : s.type? n = some t) {m : Overrides}
    (hw : m.Legible) (hm : h.mapping? o = some (a, es)) :
    s.checkEach h m t o = .ok (failures s h m (row t es [a]) []) := by
  unfold failures
  rw [filterMap_row]
  refine collect_ok fun f hf => ?_
  rw [hs.checkField_eq ht hw hm hf, List.nil_append, dotted_singleton]

theorem Compiled.checkFields_eq (hs : s.Compiled) (ht : s.type? n = some t) (m : Overrides)
    (A : List Addr) (es : Entries) {p : List String} (hp : IsPath p) :
    s.checkFields h m A t es (dotted p) = .ok (failures s h m (row t es A) p) := by
  unfold failures
  rw [filterMap_row]
  refine collect_ok fun f hf => ?_
  have hx : Place.Resolved s ⟨f, es.field? f.name, A⟩ := hs.resolved ht f hf
  rw [joinPath_dotted hp]
  exact check_eq_ok hs.toClosed hx _

end Schema

/-- What a validation records, in the order of the fields, are the failures of the fields checked
one by one. -/
theorem Context.ordered_validate {c : Context} (hc : c.Compiled) (hw : c.overrides.Legible)
    {h : Heap} {o : Value} (hm : (h.mapping? o).isSome) :
    c.schema.checkEach h c.overrides c.root o =
      .ok ((c.validate h (some o)).1.ordered c.root.fieldNames) := by
  obtain ⟨⟨a, es⟩, hm⟩ := Option.isSome_iff_exists.1 hm
  have hsome : (h.mapping? o).isSome := Option.isSome_iff_exists.2 ⟨_, hm⟩
  rw [hc.schema.checkEach_eq hc.root hw hm]
  unfold Place.failures Outcome.ordered ObjectType.fieldNames
  rw [Schema.filterMap_row, List.filterMap_map]
  refine congrArg _ (List.filterMap_congr fun f hf => ?_)
  rw [Function.comp_apply, get?_validate hc hsome, hc.closed.noted_eq hw hsome,
    if_pos (ObjectType.mem_fieldNames hf), found?_field hc hm hf, List.nil_append,
    dotted_singleton]

/-- The two ways into the check of an object agree exactly if no path leads from the object back to
it. The fields checked one by one give what a validation records; checked as those of an object
inside others, with nothing around them, they give the same list in that case and in no other. The
overrides may be any that can be written out. -/
theorem Context.checkFields_agrees_iff {c : Context} (hc : c.Compiled) (hw : c.overrides.Legible)
    {h : Heap} {o : Value} {a : Addr} {es : Entries} (hm : h.mapping? o = some (a, es)) :
    ∃ whole each, c.schema.checkFields h c.overrides [] c.root es "" = .ok whole ∧
      c.schema.checkEach h c.overrides c.root o = .ok each ∧
      (c.validate h (some o)).1.ordered c.root.fieldNames = each ∧
      (whole = each ↔ ∀ p x, c.Reaches h o p x → ¬x.Holds h a) := by
  have hsome : (h.mapping? o).isSome := Option.isSome_iff_exists.2 ⟨_, hm⟩
  have heach := hc.schema.checkEach_eq hc.root hw hm
  have hrecorded := ordered_validate hc hw hsome
  rw [heach] at hrecorded
  refine ⟨_, _, hc.schema.checkFields_eq hc.root c.overrides [] es isPath_nil, heach,
    (Except.ok.inj hrecorded).symm, ?_⟩
  rw [Place.failures_agree_iff hc.schema hc.root]
  simp only [reaches_iff hm]

/-! ## An object that goes unnoticed -/

/-- An object that asks for another one. -/
def crateType : ObjectType where
  name := "Crate"
  kind := .input
  fields := [⟨"lid", "Lid", none⟩]

def lidType : ObjectType where
  name := "Lid"
  kind := .type
  fields := [⟨"size", "Int", some .int⟩]

def crateSchema : Schema where
  types := [("Crate", crateType), ("Lid", lidType)]
  inputs := ["Crate"]

theorem compile_crate :
    compile (.str "input Crate { lid: Lid } type Lid { size: Int }") = .ok crateSchema := by
  have hparse : parseSchema "input Crate { lid: Lid } type Lid { size: Int }" =
      .ok [⟨.input, "Crate", [⟨⟨"lid", "Lid"⟩, ⟨1, 15⟩⟩], ⟨1, 1⟩⟩,
        ⟨.type, "Lid", [⟨⟨"size", "Int"⟩, ⟨1, 37⟩⟩], ⟨1, 26⟩⟩] := by
    decide +kernel
  exact compile_of_parseSchema hparse (by cbv)

/-- A crate that is its own lid. -/
def crateHeap : Heap where
  cells := #[.mapping [(.str "lid", .object 0), (.str "size", .int 1)]]

/-- A context for crates. -/
def crateContext : Context where
  schema := crateSchema
  root := crateType
  messages := []

theorem crateContext_compiled : crateContext.Compiled :=
  Context.compiled_of_type? compile_crate (by cbv : crateSchema.type? "Crate" = some crateType)

/-- The lid of a crate that is its own lid leads back to the crate. -/
theorem Context.checkFields_differs_crate : crateContext.Compiled ∧
    crateContext.overrides.Legible ∧
    crateHeap.mapping? (.object 0) = some (0, [(.str "lid", .object 0), (.str "size", .int 1)]) ∧
    ∃ whole each, crateSchema.checkFields crateHeap crateContext.overrides [] crateType
        [(.str "lid", .object 0), (.str "size", .int 1)] "" = .ok whole ∧
      crateSchema.checkEach crateHeap crateContext.overrides crateType (.object 0) = .ok each ∧
      (crateContext.validate crateHeap (some (.object 0))).1.ordered crateType.fieldNames = each ∧
      whole ≠ each := by
  have hm : crateHeap.mapping? (.object 0) =
      some (0, [(.str "lid", .object 0), (.str "size", .int 1)]) := rfl
  obtain ⟨whole, each, hwhole, heach, hrecorded, hagree⟩ :=
    checkFields_agrees_iff crateContext_compiled Overrides.legible_nil hm
  have hreach : crateContext.Reaches crateHeap (.object 0) ["lid"]
      ⟨⟨"lid", "Lid", none⟩, some (.object 0), [0]⟩ :=
    ⟨0, _, hm, .here (List.mem_cons_self ..)⟩
  have hback : Place.Holds crateHeap ⟨⟨"lid", "Lid", none⟩, some (.object 0), [0]⟩ 0 :=
    ⟨rfl, _, _, rfl, hm⟩
  exact ⟨crateContext_compiled, Overrides.legible_nil, hm, whole, each, hwhole, heach, hrecorded,
    fun he => hagree.1 he _ _ hreach hback⟩

/-- The fields of a crate that is its own lid have nothing wrong with them if nothing is around
the crate, although the lid checked by itself is known for the crate. -/
theorem checkFields_misses_return :
    compile (.str "input Crate { lid: Lid } type Lid { size: Int }") = .ok crateSchema ∧
    crateSchema.type? "Crate" = some crateType ∧
    crateHeap.mapping? (.object 0) = some (0, [(.str "lid", .object 0), (.str "size", .int 1)]) ∧
    crateSchema.checkFields crateHeap (fun _ => none) [] crateType
      [(.str "lid", .object 0), (.str "size", .int 1)] "" = .ok [] ∧
    crateSchema.checkEach crateHeap (fun _ => none) crateType (.object 0) =
      .ok [⟨.str "lid", .str "lid contains a circular reference", "Lid", []⟩] := by
  refine ⟨compile_crate, ?_, ?_, ?_, ?_⟩
  · cbv
  · cbv
  · cbv
  · cbv

end ShapeCheck
