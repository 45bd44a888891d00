import ShapeCheck.Proofs.Check.Entrance
import ShapeCheck.Proofs.Check.Message

/-
  The form of the forest that a validation records. Nodes that stand next to each other are named
  for fields of one type, in the order of the type (`inOrder_failures`), and what is inside a node is
  named by longer paths through the same field (`name_of_mem_forest_details`). As a name says which
  path it spells, no two nodes have the same one (`nodup_names_forest`); a path goes from field to
  field through declared types (`Walk.fieldChain`), and its last field gives the node its type.
-/

namespace ShapeCheck

open Place

/-- A path of field names that starts at an object type: it goes from each field on it, up to the
last one, to a field of the declared type that the field refers to. -/
inductive Schema.FieldChain (s : Schema) : ObjectType → List String → Field → Prop
  | last {t : ObjectType} {f : Field} : f ∈ t.fields → FieldChain s t [f.name] f
  | through {t u : ObjectType} {f g : Field} {p : List String} : f ∈ t.fields → f.scalar = none →
      s.type? f.typeRef = some u → FieldChain s u p g → FieldChain s t (f.name :: p) g

namespace FieldError

/-- Failures that are named for fields of a type, in the order of the type, no field twice. -/
def InOrder (t : ObjectType) (before : String) (es : List FieldError) : Prop :=
  ∃ ks : List String, (∀ k ∈ ks, k ∈ t.fieldNames) ∧
    (ks.map fun k => t.fieldNames.idxOf k).Pairwise (· < ·) ∧
    es.map FieldError.name = ks.map fun k => .str (before ++ k)

theorem forest_eq_flatMap (es : List FieldError) : forest es = es.flatMap nodes := by
  induction es with
  | nil => rw [forest, List.flatMap_nil]
  | cons e es ih => rw [forest, ih, List.flatMap_cons]

end FieldError

theorem map_filterMap_eq {α β γ : Type} {g : α → Option β} {f : β → γ} {n : α → γ} {l : List α}
    (hl : ∀ a ∈ l, ∀ b, g a = some b → f b = n a) :
    (l.filterMap g).map f = (l.filter fun a => (g a).isSome).map n := by
  induction l with
  | nil => rfl
  | cons a l ih =>
    obtain ⟨ha, hl⟩ := List.forall_mem_cons.1 hl
    rw [List.filter_cons]
    cases hg : g a with
    | none =>
      rw [List.filterMap_cons_none hg]
      exact ih hl
    | some b =>
      rw [List.filterMap_cons_some hg, List.map_cons, ha b hg, ih hl]
      rfl

/-- Of distinct members, some in the same order come one after the other. -/
theorem pairwise_idxOf_of_sublist {ks ns : List String} (hk : ks.Sublist ns) (hn : ns.Nodup) :
    (ks.map fun k => ns.idxOf k).Pairwise (· < ·) := by
  have hall : ns.Pairwise fun k l => ns.idxOf k < ns.idxOf l := by
    refine List.pairwise_iff_getElem.2 fun i j hi hj hij => ?_
    rwa [hn.idxOf_getElem i hi, hn.idxOf_getElem j hj]
  exact List.pairwise_map.2 (hall.sublist hk)

theorem dotted_append_singleton {p : List String} (hp : IsPath p) (hne : p ≠ []) (f : String) :
    dotted (p ++ [f]) = dotted p ++ "." ++ f := by
  obtain ⟨g, q, rfl⟩ := List.exists_cons_of_ne_nil hne
  rw [← joinPath_dotted hp, joinPath, if_neg (dotted_cons_ne_empty (isPath_cons.1 hp).1)]

namespace Place

variable {s : Schema} {h : Heap} {m : Overrides} {row : List Place} {x z : Place}
  {p : List String} {d e : FieldError} {t : ObjectType} {es : Entries} {A : List Addr} {n : String}

/-! ## Paths through a schema -/

theorem Walk.fieldChain (hw : Walk s h (Place.row t es A) p z) : s.FieldChain t p z.field := by
  generalize hrow : Place.row t es A = row at hw
  induction hw generalizing t es A with
  | here hx =>
    subst hrow
    obtain ⟨f, hf, rfl⟩ := mem_row.1 hx
    exact .last hf
  | @inside row x z p hx hw ih =>
    subst hrow
    obtain ⟨u, v, a, fs, hscalar, hu, -, -, -, hinner⟩ := hw.entered
    obtain ⟨f, hf, rfl⟩ := mem_row.1 hx
    exact .through hf hscalar hu (ih hinner.symm)

/-! ## Nodes next to each other -/

/-- The failures of a row are named for fields of its type, in their order. -/
theorem inOrder_failures (hs : s.Compiled) (ht : s.type? n = some t) {before : String}
    (hbefore : ∀ k, dotted (p ++ [k]) = before ++ k) :
    FieldError.InOrder t before (failures s h m (Place.row t es A) p) := by
  have hrow := proper_row hs ht es A
  have hnames := map_filterMap_eq (f := FieldError.name)
    (g := fun x : Place => x.failure? s h m (dotted (p ++ [x.field.name])))
    (n := fun x : Place => .str (before ++ x.field.name)) (l := Place.row t es A)
    fun x hx e he => by
      rw [(failure?_eq_some hs.toClosed (hrow.resolved x hx) he).1, hbefore]
  -- the fields that have a failure are some of the fields of the type
  have hsub := (List.filter_sublist (p := fun x : Place =>
    (x.failure? s h m (dotted (p ++ [x.field.name]))).isSome) (l := Place.row t es A)).map
      fun x => x.field.name
  rw [map_name_row] at hsub
  refine ⟨_, fun k hk => hsub.subset hk, pairwise_idxOf_of_sublist hsub (hs.nodup_fieldNames ht), ?_⟩
  rw [failures, hnames, List.map_map]
  rfl

/-- What is inside a failure is named for fields of the type that its field refers to. -/
theorem inOrder_inner (hs : s.Compiled) {before : String}
    (hne : failures s h m (x.inner s h) p ≠ [])
    (hbefore : ∀ k, dotted (p ++ [k]) = before ++ k) : ∃ t, s.type? x.field.typeRef = some t ∧
      FieldError.InOrder t before (failures s h m (x.inner s h) p) := by
  obtain ⟨e, he⟩ := List.exists_mem_of_ne_nil _ hne
  obtain ⟨y, hy, -⟩ := List.mem_filterMap.1 he
  obtain ⟨t, v, a, es, -, ht, -, -, -, hinner⟩ := entered_of_mem_inner hy
  rw [hinner]
  exact ⟨t, ht, inOrder_failures hs ht hbefore⟩

/-! ## Nodes inside each other -/

/-- What is inside the failure of a field is named by longer paths through that field. -/
theorem name_of_mem_forest_details (hs : s.Compiled) (hrow : Proper s row) (hp : IsPath p)
    (hx : x ∈ row) (he : x.failure? s h m (dotted (p ++ [x.field.name])) = some e)
    (hd : d ∈ FieldError.forest e.details) : ∃ q, q ≠ [] ∧ IsPath (p ++ x.field.name :: q) ∧
      d.name = .str (dotted (p ++ x.field.name :: q)) := by
  have hxp := isPath_field hrow hp hx
  have hinner := proper_inner hs h x
  rw [(failure?_eq_some hs.toClosed (hrow.resolved x hx) he).2.1, details_dotted hxp,
    mem_forest_failures hs hinner hxp] at hd
  obtain ⟨q, z, hw, hz⟩ := hd
  have hpath := isPath_append.2 ⟨hxp, hw.isPath hs hinner⟩
  have hname := (failure?_eq_some hs.toClosed (hw.resolved hs hinner) hz).1
  rw [List.append_assoc, List.singleton_append] at hpath hname
  exact ⟨q, hw.ne_nil, hpath, hname⟩

theorem name_of_mem_nodes (hs : s.Compiled) (hrow : Proper s row) (hp : IsPath p)
    (hx : x ∈ row) (he : x.failure? s h m (dotted (p ++ [x.field.name])) = some e)
    (hd : d ∈ e.nodes) : ∃ q, IsPath (p ++ x.field.name :: q) ∧
      d.name = .str (dotted (p ++ x.field.name :: q)) := by
  rw [FieldError.nodes_eq] at hd
  rcases List.mem_cons.1 hd with rfl | hd
  · exact ⟨[], isPath_field hrow hp hx,
      (failure?_eq_some hs.toClosed (hrow.resolved x hx) he).1⟩
  · obtain ⟨q, -, hq⟩ := name_of_mem_forest_details hs hrow hp hx he hd
    exact ⟨q, hq⟩

/-- No two nodes have the same name. -/
theorem nodup_names_forest (hs : s.Compiled) (hrow : Proper s row) (hp : IsPath p) :
    ((FieldError.forest (failures s h m row p)).map FieldError.name).Nodup := by
  refine row_induction (h := h) (P := fun row => ∀ p, IsPath p →
    ((FieldError.forest (failures s h m row p)).map FieldError.name).Nodup) hs ?_ hrow p hp
  intro row hrow ih p hp
  rw [FieldError.forest_eq_flatMap, List.map_flatMap, List.nodup_flatMap]
  constructor
  · intro e he
    obtain ⟨x, hx, he⟩ := List.mem_filterMap.1 he
    have hxp := isPath_field hrow hp hx
    obtain ⟨hname, hdetails, -⟩ := failure?_eq_some hs.toClosed (hrow.resolved x hx) he
    rw [FieldError.nodes_eq, List.map_cons]
    refine List.nodup_cons.2 ⟨fun hmem => ?_, ?_⟩
    · obtain ⟨d, hd, hd'⟩ := List.mem_map.1 hmem
      obtain ⟨q, hne, hq, hlonger⟩ := name_of_mem_forest_details hs hrow hp hx he hd
      rw [hlonger, hname] at hd'
      have hpq := dotted_injective hq hxp (Value.str.inj hd')
      exact hne (List.cons.inj (List.append_cancel_left hpq)).2
    · rw [hdetails, details_dotted hxp]
      exact ih x hx _ hxp
  · -- the paths of different trees go through different fields
    rw [failures, List.pairwise_filterMap]
    refine (List.pairwise_map.1 hrow.nodup_names).imp_of_mem ?_
    intro x y hx hy hne e he e' he' k hk hk'
    obtain ⟨d, hd, rfl⟩ := List.mem_map.1 hk
    obtain ⟨d', hd', hdd⟩ := List.mem_map.1 hk'
    obtain ⟨q, hq, hname⟩ := name_of_mem_nodes hs hrow hp hx he hd
    obtain ⟨q', hq', hname'⟩ := name_of_mem_nodes hs hrow hp hy he' hd'
    rw [hname, hname'] at hdd
    have hpq := dotted_injective hq' hq (Value.str.inj hdd)
    exact hne (List.cons.inj (List.append_cancel_left hpq)).1.symm

end Place

/-! ## Validations -/

namespace Context

variable {h : Heap} {c : Context} {o : Value}

theorem invalidKeys_validate (hc : c.Compiled) (hw : c.overrides.Legible) {a : Addr}
    {es : Entries} (hm : h.mapping? o = some (a, es)) :
    Context.invalidKeys { c with outcome := (c.validate h (some o)).1 } =
      failures c.schema h c.overrides (Place.row c.root es [a]) [] := by
  have hsome : (h.mapping? o).isSome := Option.isSome_iff_exists.2 ⟨_, hm⟩
  have heach := ordered_validate hc hw hsome
  rw [hc.schema.checkEach_eq hc.root hw hm] at heach
  exact (Except.ok.inj heach).symm

/-- Well-formed reports. Of the failures that can be asked for after a validation no two have the
same name, at any depth. The name of each is the spelling of a path from the root type, whose last
field gives the type, and what is inside it is named after it, for fields of that type. At every
level the failures are in the order of the fields. The overrides may be any that can be written
out. -/
theorem invalidKeys_wellFormed (hc : c.Compiled) (hw : c.overrides.Legible)
    (hm : (h.mapping? o).isSome) :
    ∃ d valid row, c.perform h (.validate (some o)) = (h, d, .ok (.verdict valid)) ∧
      d.perform h .invalidKeys = (h, d, .ok (.failures row)) ∧
      ((FieldError.forest row).map FieldError.name).Nodup ∧
      FieldError.InOrder c.root "" row ∧
      ∀ e ∈ FieldError.forest row, ∃ n p f, e.name = .str n ∧
        n.toList.splitOn '.' = p.map String.toList ∧ c.schema.FieldChain c.root p f ∧
        e.typeName = some f.typeRef ∧
        (e.details ≠ [] → ∃ t, c.schema.type? f.typeRef = some t ∧
          FieldError.InOrder t (n ++ ".") e.details) := by
  obtain ⟨⟨a, es⟩, hm'⟩ := Option.isSome_iff_exists.1 hm
  have hs := hc.schema
  have hrow := proper_row hs hc.root es [a]
  obtain ⟨out, valid, hvalidate⟩ : ∃ out valid, c.validate h (some o) = (out, .ok valid) :=
    ⟨_, _, validate_ok hc hw hm⟩
  have hperform : c.perform h (.validate (some o)) =
      (h, { c with outcome := out }, .ok (.verdict valid)) := by
    rw [perform, hvalidate]
    rfl
  have hkeys := invalidKeys_validate hc hw hm'
  rw [hvalidate] at hkeys
  refine ⟨_, _, _, hperform, rfl, ?_⟩
  rw [hkeys]
  have hroot : FieldError.InOrder c.root "" (failures c.schema h c.overrides
      (Place.row c.root es [a]) []) :=
    inOrder_failures hs hc.root fun k => by
      rw [List.nil_append, dotted_singleton, String.empty_append]
  refine ⟨nodup_names_forest hs hrow isPath_nil, hroot, fun e he => ?_⟩
  obtain ⟨p, x, hw, he⟩ := (mem_forest_failures hs hrow isPath_nil).1 he
  rw [List.nil_append] at he
  have hp := hw.isPath hs hrow
  obtain ⟨hname, hdetails, -⟩ := failure?_eq_some hs.toClosed (hw.resolved hs hrow) he
  obtain ⟨-, -, htype, -⟩ := complains_of_failure? hs.toClosed (hw.resolved hs hrow) he
  refine ⟨_, p, x.field, hname, splitOn_dotted hp hw.ne_nil, hw.fieldChain, htype, fun hne => ?_⟩
  rw [hdetails, details_dotted hp] at hne ⊢
  exact inOrder_inner hs hne fun k => dotted_append_singleton hp hw.ne_nil k

/-- Two links that are next to each other. The first has no label and that of the second is no
text. -/
def mislabelledRing : Heap where
  cells := #[.mapping [(.str "next", .object 1)],
    .mapping [(.str "label", .int 1), (.str "next", .object 0)]]

def mislabelledFailures : List FieldError := [
  ⟨.str "next", .str "next is not a valid Link", "Link",
    [⟨.str "next.next", .str "next.next contains a circular reference", "Link", []⟩,
      ⟨.str "next.label", .str "next.label must be a string", "String", []⟩]⟩,
  ⟨.str "label", .str "label is required", "String", []⟩]

theorem invalidKeys_wellFormed_ring : linkContext.Compiled ∧ linkContext.overrides.Legible ∧
    (mislabelledRing.mapping? (.object 0)).isSome ∧
    ∃ d, linkContext.perform mislabelledRing (.validate (some (.object 0))) =
        (mislabelledRing, d, .ok (.verdict false)) ∧
      d.perform mislabelledRing .invalidKeys =
        (mislabelledRing, d, .ok (.failures mislabelledFailures)) ∧
      ((FieldError.forest mislabelledFailures).map FieldError.name).Nodup ∧
      FieldError.InOrder linkType "" mislabelledFailures := by
  have hm : (mislabelledRing.mapping? (.object 0)).isSome := by rfl
  obtain ⟨d, valid, row, hvalidate, hkeys, hnodup, horder, -⟩ :=
    invalidKeys_wellFormed linkContext_compiled Overrides.legible_nil hm
  have hrun : linkContext.perform mislabelledRing (.validate (some (.object 0))) =
      (mislabelledRing, { linkContext with
        outcome := ⟨["next", "label"].zip mislabelledFailures, true⟩ }, .ok (.verdict false)) := by
    cbv
  rw [hvalidate] at hrun
  cases hrun
  cases hkeys
  exact ⟨linkContext_compiled, Overrides.legible_nil, hm, _, hvalidate, rfl, hnodup, horder⟩

end Context

end ShapeCheck
