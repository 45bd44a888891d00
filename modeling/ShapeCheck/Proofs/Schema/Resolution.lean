import Mathlib.Data.List.Nodup
import ShapeCheck.Fault

/-
  The resolution of declarations, for any library of built-in types and any declarations, whether
  or not their names are distinct. Declarations are resolvable if none of them takes a name of the
  library and every field has a built-in type or a declared one. Then the schema holds one type for
  each declared name (`resolve_ok_iff`); otherwise the first fault in a fixed order is reported
  (`resolve_error_iff`). `resolve_accepts_resolvable` puts the two together and says what the fields
  carry.
-/

namespace ShapeCheck

variable {σ : Type}

/-! ## Names of a library -/

namespace Registry

/-- The library has an item under a name. -/
def Knows (library : Registry σ) (name : String) : Prop := library.has (.str name) = .ok true

variable {library : Registry σ} {name : String}

theorem knows_iff : library.Knows name ↔ (library.find? (.str name)).isSome = true := by
  have hkey : (Value.str name).isKey = true := rfl
  unfold Knows has
  simp only [hkey, Bool.not_true, Bool.false_eq_true, if_false, Except.ok.injEq]
  exact Iff.rfl

theorem not_knows_iff : ¬library.Knows name ↔ library.find? (.str name) = none := by
  rw [knows_iff, Option.not_isSome_iff_eq_none]

theorem getOptional_str : library.getOptional (.str name) = .ok (library.find? (.str name)) := rfl

end Registry

/-! ## Rows of results -/

section Rows

variable {ε α β γ : Type} {f : α → Except ε β} {l : List α} {e : ε}

theorem map_error_iff {r : Except ε β} {g : β → γ} : r.map g = .error e ↔ r = .error e := by
  cases r with
  | error e' => simp [Except.map]
  | ok b => simp [Except.map]

theorem exists_map_ok_iff {r : Except ε β} {g : β → γ} :
    (∃ c, r.map g = .ok c) ↔ ∃ b, r = .ok b := by
  cases r with
  | error e => simp [Except.map]
  | ok b => simp [Except.map]

theorem mapM_cons_error {a : α} (ha : f a = .error e) (l : List α) :
    (a :: l).mapM f = .error e := by
  rw [List.mapM_cons, ha]
  rfl

theorem mapM_cons_ok {a : α} {b : β} (ha : f a = .ok b) (l : List α) :
    (a :: l).mapM f = (l.mapM f).map (b :: ·) := by
  rw [List.mapM_cons, ha]
  cases l.mapM f <;> rfl

theorem mapM_ok {g : α → β} (h : ∀ a ∈ l, f a = .ok (g a)) : l.mapM f = .ok (l.map g) := by
  induction l with
  | nil => rfl
  | cons a l ih =>
    obtain ⟨ha, hl⟩ := List.forall_mem_cons.1 h
    rw [mapM_cons_ok ha, ih hl]
    rfl

theorem exists_mapM_ok_iff : (∃ bs, l.mapM f = .ok bs) ↔ ∀ a ∈ l, ∃ b, f a = .ok b := by
  induction l with
  | nil => exact iff_of_true ⟨[], rfl⟩ fun a ha => absurd ha List.not_mem_nil
  | cons a l ih =>
    rw [List.forall_mem_cons]
    cases ha : f a with
    | error e =>
      rw [mapM_cons_error ha]
      simp
    | ok b =>
      rw [mapM_cons_ok ha, exists_map_ok_iff, ih]
      simp

/-- A row fails with the error of its first member that has no result. -/
theorem mapM_error_iff : l.mapM f = .error e ↔ ∃ before a after,
    l = before ++ a :: after ∧ (∀ b ∈ before, ∃ r, f b = .ok r) ∧ f a = .error e := by
  constructor
  · intro h
    induction l with
    | nil => contradiction
    | cons a l ih =>
      cases ha : f a with
      | error e' =>
        rw [mapM_cons_error ha] at h
        obtain rfl := Except.error.inj h
        exact ⟨[], a, l, rfl, fun b hb => absurd hb List.not_mem_nil, ha⟩
      | ok b =>
        rw [mapM_cons_ok ha, map_error_iff] at h
        obtain ⟨before, c, after, hl, hbefore, hc⟩ := ih h
        exact ⟨a :: before, c, after, congrArg (a :: ·) hl,
          List.forall_mem_cons.2 ⟨⟨b, ha⟩, hbefore⟩, hc⟩
  · rintro ⟨before, a, after, rfl, hbefore, ha⟩
    induction before with
    | nil => exact mapM_cons_error ha after
    | cons b before ih =>
      obtain ⟨⟨r, hb⟩, hbefore⟩ := List.forall_mem_cons.1 hbefore
      rw [List.cons_append, mapM_cons_ok hb, ih hbefore]
      rfl

end Rows

namespace Schema

/-! ## The types of a schema -/

/-- Of several types of one name the last counts. -/
theorem type?_ofTypes (ts : List (ObjectType σ)) (n : String) :
    (ofTypes ts).type? n = (ts.filter (·.name = n)).getLast? := by
  have h := Assoc.get?_insertAll (κ := String) [] (ts.map fun t => (t.name, t)) n
  have hn : ∀ t : ObjectType σ, (t.name == n) = decide (t.name = n) := fun _ => rfl
  simp only [List.filter_map, Function.comp_def, hn] at h
  rw [type?, ofTypes, Assoc.ofList, h, List.getLast?_map, Option.map_map]
  cases (ts.filter fun t => decide (t.name = n)).getLast? <;> rfl

theorem mem_types_iff {ts : List (ObjectType σ)} {n : String} {t : ObjectType σ} :
    (n, t) ∈ (ofTypes ts).types ↔ (ofTypes ts).type? n = some t := by
  have hnodup : (ofTypes ts).types.keys.Nodup :=
    Assoc.nodup_keys_insertAll (m := []) List.nodup_nil _
  exact ⟨Assoc.get?_of_mem hnodup, Assoc.mem_of_get?⟩

theorem mem_typeNames_ofTypes {ts : List (ObjectType σ)} {n : String} :
    n ∈ (ofTypes ts).typeNames ↔ n ∈ ts.map ObjectType.name := by
  have h := Assoc.mem_keys_insertAll (m := []) (l := ts.map fun t => (t.name, t)) (a := n)
  rw [List.map_map] at h
  exact h.trans (or_iff_left List.not_mem_nil)

theorem mem_of_type?_ofTypes {ts : List (ObjectType σ)} {n : String} {t : ObjectType σ}
    (h : (ofTypes ts).type? n = some t) : t ∈ ts ∧ t.name = n := by
  rw [type?_ofTypes] at h
  have hmem := List.mem_filter.1 (List.mem_of_getLast? h)
  exact ⟨hmem.1, of_decide_eq_true hmem.2⟩

theorem exists_type?_ofTypes {ts : List (ObjectType σ)} {n : String}
    (h : n ∈ ts.map ObjectType.name) : ∃ t, (ofTypes ts).type? n = some t := by
  have hkey := mem_typeNames_ofTypes.2 h
  have hne : (ofTypes ts).type? n ≠ none := fun hnone => Assoc.get?_eq_none_iff.1 hnone hkey
  exact Option.ne_none_iff_exists'.1 hne

/-! ## Fields and declarations -/

/-- The type of a field is one of the library, or one of the declarations has its name. -/
def Resolves (library : Registry σ) (ds : List Declaration) (f : FieldDeclaration) : Prop :=
  library.Knows f.typeRef ∨ f.typeRef ∈ ds.map Declaration.name

/-- A field with what the library has for its type. -/
def resolvedField (library : Registry σ) (f : FieldDeclaration) : Field σ :=
  ⟨f.name, f.typeRef, library.find? (.str f.typeRef)⟩

/-- A declaration with its fields resolved in their order. -/
def resolvedType (library : Registry σ) (d : Declaration) : ObjectType σ :=
  ⟨d.name, d.kind, d.fields.map (resolvedField library)⟩

variable {library : Registry σ} {ds : List Declaration} {d : Declaration} {f : FieldDeclaration}
  {e : ResolutionError} {s : Schema σ}

theorem fieldNames_resolvedType (library : Registry σ) (d : Declaration) :
    (resolvedType library d).fieldNames = d.fields.map FieldDeclaration.name := by
  rw [ObjectType.fieldNames, resolvedType, List.map_map]
  rfl

theorem resolveField_ok (d : Declaration) (hf : Resolves library ds f) :
    resolveField library (ds.map Declaration.name) d f = .ok (resolvedField library f) := by
  unfold resolveField resolvedField
  split
  · rename_i item hi
    rw [hi]
  · rename_i hi
    have hdeclared := hf.resolve_left (Registry.not_knows_iff.2 hi)
    rw [if_pos hdeclared, hi]

theorem resolveField_error (d : Declaration) (hf : ¬Resolves library ds f) :
    resolveField library (ds.map Declaration.name) d f =
      .error (.unknownType f.typeRef f.name d.kind d.name) := by
  obtain ⟨hunknown, hdeclared⟩ := not_or.1 hf
  unfold resolveField
  rw [Registry.not_knows_iff.1 hunknown]
  exact if_neg hdeclared

theorem exists_resolveField_iff :
    (∃ g, resolveField library (ds.map Declaration.name) d f = .ok g) ↔
      Resolves library ds f := by
  constructor
  · rintro ⟨g, hg⟩
    by_contra hf
    rw [resolveField_error d hf] at hg
    contradiction
  · intro hf
    exact ⟨_, resolveField_ok d hf⟩

theorem resolveDeclaration_eq (library : Registry σ) (declared : List String) (d : Declaration) :
    resolveDeclaration library declared d =
      (d.fields.mapM (resolveField library declared d)).map fun gs => ⟨d.name, d.kind, gs⟩ := by
  unfold resolveDeclaration
  cases d.fields.mapM (resolveField library declared d) <;> rfl

theorem resolveDeclaration_ok (hd : ∀ f ∈ d.fields, Resolves library ds f) :
    resolveDeclaration library (ds.map Declaration.name) d = .ok (resolvedType library d) := by
  rw [resolveDeclaration_eq, mapM_ok fun f hf => resolveField_ok d (hd f hf)]
  rfl

theorem exists_resolveDeclaration_iff :
    (∃ t, resolveDeclaration library (ds.map Declaration.name) d = .ok t) ↔
      ∀ f ∈ d.fields, Resolves library ds f := by
  rw [resolveDeclaration_eq, exists_map_ok_iff, exists_mapM_ok_iff]
  simp only [exists_resolveField_iff]

/-- A declaration fails for its first field that does not resolve. -/
theorem resolveDeclaration_error_iff :
    resolveDeclaration library (ds.map Declaration.name) d = .error e ↔
      ∃ before f after, d.fields = before ++ f :: after ∧
        (∀ g ∈ before, Resolves library ds g) ∧ ¬Resolves library ds f ∧
        e = .unknownType f.typeRef f.name d.kind d.name := by
  rw [resolveDeclaration_eq, map_error_iff, mapM_error_iff]
  simp only [exists_resolveField_iff]
  constructor
  · rintro ⟨before, f, after, hsplit, hbefore, hf⟩
    have hnot : ¬Resolves library ds f := by
      intro hr
      rw [resolveField_ok d hr] at hf
      contradiction
    rw [resolveField_error d hnot] at hf
    exact ⟨before, f, after, hsplit, hbefore, hnot, (Except.error.inj hf).symm⟩
  · rintro ⟨before, f, after, hsplit, hbefore, hnot, rfl⟩
    exact ⟨before, f, after, hsplit, hbefore, resolveField_error d hnot⟩

/-! ## Schemas -/

/-- No declaration takes a name of the library, and every field has a built-in type or a declared
one. -/
structure Resolvable (library : Registry σ) (ds : List Declaration) : Prop where
  fresh : ∀ d ∈ ds, ¬library.Knows d.name
  resolves : ∀ d ∈ ds, ∀ f ∈ d.fields, Resolves library ds f

/-- What is reported of declarations: the first that takes a name of the library, or if there is
none, the first field that does not resolve, in the order of the declarations and their fields. -/
inductive FirstFault (library : Registry σ) (ds : List Declaration) : ResolutionError → Prop
  | shadowing {before after : List Declaration} {d : Declaration} :
      ds = before ++ d :: after → (∀ d' ∈ before, ¬library.Knows d'.name) →
      library.Knows d.name → FirstFault library ds (.shadowsScalar d.name)
  | unknown {before after : List Declaration} {d : Declaration}
      {earlier later : List FieldDeclaration} {f : FieldDeclaration} :
      (∀ d' ∈ ds, ¬library.Knows d'.name) →
      ds = before ++ d :: after → (∀ d' ∈ before, ∀ g ∈ d'.fields, Resolves library ds g) →
      d.fields = earlier ++ f :: later → (∀ g ∈ earlier, Resolves library ds g) →
      ¬Resolves library ds f →
      FirstFault library ds (.unknownType f.typeRef f.name d.kind d.name)

theorem shadowing?_eq_none_iff :
    (ds.find? fun d => (library.find? (.str d.name)).isSome) = none ↔
      ∀ d ∈ ds, ¬library.Knows d.name := by
  rw [List.find?_eq_none]
  simp only [Registry.knows_iff]

theorem resolve_of_fresh (hds : ∀ d ∈ ds, ¬library.Knows d.name) :
    resolve library ds =
      (ds.mapM (resolveDeclaration library (ds.map Declaration.name))).map ofTypes := by
  unfold resolve
  rw [shadowing?_eq_none_iff.2 hds]
  dsimp only
  cases ds.mapM (resolveDeclaration library (ds.map Declaration.name)) <;> rfl

/-- A name of the library is reported before any field is looked at. -/
theorem resolve_of_shadowing {before after : List Declaration}
    (hbefore : ∀ d' ∈ before, ¬library.Knows d'.name) (hd : library.Knows d.name) :
    resolve library (before ++ d :: after) = .error (.shadowsScalar d.name) := by
  have hfind : ((before ++ d :: after).find? fun d => (library.find? (.str d.name)).isSome) =
      some d := by
    rw [List.find?_append, shadowing?_eq_none_iff.2 hbefore, List.find?_cons_of_pos]
    · rfl
    · exact Registry.knows_iff.1 hd
  unfold resolve
  rw [hfind]

/-- Either no declaration takes a name of the library, or there is a first one that does. -/
theorem fresh_or_shadowing (library : Registry σ) (ds : List Declaration) :
    (∀ d ∈ ds, ¬library.Knows d.name) ∨ ∃ before d after, ds = before ++ d :: after ∧
      (∀ d' ∈ before, ¬library.Knows d'.name) ∧ library.Knows d.name := by
  cases hfind : ds.find? fun d => (library.find? (.str d.name)).isSome with
  | none => exact .inl (shadowing?_eq_none_iff.1 hfind)
  | some d =>
    obtain ⟨hd, before, after, hsplit, hbefore⟩ := List.find?_eq_some_iff_append.1 hfind
    refine .inr ⟨before, d, after, hsplit, fun d' hd' hk => ?_, Registry.knows_iff.2 hd⟩
    have hnone := hbefore d' hd'
    rw [Registry.knows_iff.1 hk] at hnone
    contradiction

theorem resolve_ok (hds : Resolvable library ds) :
    resolve library ds = .ok (ofTypes (ds.map (resolvedType library))) := by
  rw [resolve_of_fresh hds.fresh, mapM_ok fun d hd => resolveDeclaration_ok (hds.resolves d hd)]
  rfl

theorem resolvable_of_resolve_ok (h : resolve library ds = .ok s) : Resolvable library ds := by
  rcases fresh_or_shadowing library ds with hds | ⟨before, d, after, rfl, hbefore, hd⟩
  · refine ⟨hds, ?_⟩
    rw [resolve_of_fresh hds] at h
    have hall := exists_mapM_ok_iff.1 (exists_map_ok_iff.1 ⟨s, h⟩)
    intro d hd
    exact exists_resolveDeclaration_iff.1 (hall d hd)
  · rw [resolve_of_shadowing hbefore hd] at h
    contradiction

/-- Resolution succeeds exactly for resolvable declarations, and each of them becomes its type. -/
theorem resolve_ok_iff : resolve library ds = .ok s ↔
    Resolvable library ds ∧ s = ofTypes (ds.map (resolvedType library)) := by
  constructor
  · intro h
    have hds := resolvable_of_resolve_ok h
    rw [resolve_ok hds] at h
    exact ⟨hds, (Except.ok.inj h).symm⟩
  · rintro ⟨hds, rfl⟩
    exact resolve_ok hds

theorem resolve_error_iff : resolve library ds = .error e ↔ FirstFault library ds e := by
  constructor
  · intro h
    rcases fresh_or_shadowing library ds with hds | ⟨before, d, after, rfl, hbefore, hd⟩
    · rw [resolve_of_fresh hds, map_error_iff, mapM_error_iff] at h
      obtain ⟨before, d, after, hsplit, hbefore, hd⟩ := h
      obtain ⟨earlier, f, later, hfields, hearlier, hf, rfl⟩ := resolveDeclaration_error_iff.1 hd
      refine .unknown hds hsplit (fun d' hd' => ?_) hfields hearlier hf
      exact exists_resolveDeclaration_iff.1 (hbefore d' hd')
    · rw [resolve_of_shadowing hbefore hd] at h
      cases h
      exact .shadowing rfl hbefore hd
  · intro h
    cases h with
    | shadowing hsplit hbefore hd =>
      subst hsplit
      exact resolve_of_shadowing hbefore hd
    | @unknown before after d earlier later f hds hsplit hbefore hfields hearlier hf =>
      rw [resolve_of_fresh hds, map_error_iff, mapM_error_iff]
      refine ⟨before, d, after, hsplit, fun d' hd' => ?_, ?_⟩
      · exact exists_resolveDeclaration_iff.2 (hbefore d' hd')
      · exact resolveDeclaration_error_iff.2 ⟨earlier, f, later, hfields, hearlier, hf, rfl⟩

theorem mem_typeNames_of_resolve (ds : List Declaration) {n : String} :
    n ∈ (ofTypes (ds.map (resolvedType library))).typeNames ↔ n ∈ ds.map Declaration.name := by
  rw [mem_typeNames_ofTypes, List.map_map]
  exact Iff.rfl

/-- The type of a name is the one that the last declaration of that name becomes. -/
theorem type?_of_resolve (ds : List Declaration) (n : String) :
    (ofTypes (ds.map (resolvedType library))).type? n =
      ((ds.filter (·.name = n)).getLast?).map (resolvedType library) := by
  rw [type?_ofTypes, List.filter_map, List.getLast?_map]
  rfl

/-- A field has exactly what the library has for its type, or else its type is declared. -/
theorem scalar_of_resolves (hf : Resolves library ds f) :
    (∃ item, library.getOptional (.str f.typeRef) = .ok (some item) ∧
      (resolvedField library f).scalar = some item) ∨
    (library.getOptional (.str f.typeRef) = .ok none ∧ (resolvedField library f).scalar = none ∧
      f.typeRef ∈ ds.map Declaration.name) := by
  rw [Registry.getOptional_str, resolvedField]
  cases hi : library.find? (.str f.typeRef) with
  | some item => exact .inl ⟨item, rfl, rfl⟩
  | none => exact .inr ⟨rfl, rfl, hf.resolve_left (Registry.not_knows_iff.2 hi)⟩

theorem FirstFault.notice (h : FirstFault library ds e) (heap : Heap) :
    (e.notice heap).family = .resolution ∧
    ((∃ name, e = .shadowsScalar name ∧ (e.notice heap).context =
      [("type_ref", .text name), ("type_name", .text name)]) ∨
    ∃ ref field kind owner, e = .unknownType ref field kind owner ∧ (e.notice heap).context =
      [("type_ref", .text ref), ("field_name", .text field), ("type_name", .text owner)]) := by
  cases h with
  | shadowing => exact ⟨rfl, .inl ⟨_, rfl, rfl⟩⟩
  | unknown => exact ⟨rfl, .inr ⟨_, _, _, _, rfl, rfl⟩⟩

/-- Declarations resolve exactly if none takes a name of the library and every field has a type
that is built in or declared, whatever the order and however often a name is declared. The schema
then has a type for each declared name, the last of that name, with the fields in their order; each
field carries exactly what the library has for its type, or nothing and refers to a type of the
schema. Otherwise the first fault is reported. -/
theorem resolve_accepts_resolvable (library : Registry σ) (ds : List Declaration) :
    ((∃ s, resolve library ds = .ok s) ↔ (∀ d ∈ ds, ¬library.Knows d.name) ∧
      ∀ d ∈ ds, ∀ f ∈ d.fields, library.Knows f.typeRef ∨ ∃ d' ∈ ds, d'.name = f.typeRef) ∧
    (∀ s, resolve library ds = .ok s →
      (∀ n, n ∈ s.typeNames ↔ ∃ d ∈ ds, d.name = n) ∧
      ∀ n t, (n, t) ∈ s.types →
        (∃ d, (ds.filter (·.name = n)).getLast? = some d ∧ t.name = n ∧ t.kind = d.kind ∧
          t.fields.map (fun f => (f.name, f.typeRef)) =
            d.fields.map (fun f => (f.name, f.typeRef))) ∧
        ∀ f ∈ t.fields,
          (∃ item, library.getOptional (.str f.typeRef) = .ok (some item) ∧
            f.scalar = some item) ∨
          (library.getOptional (.str f.typeRef) = .ok none ∧ f.scalar = none ∧
            f.typeRef ∈ s.typeNames)) ∧
    (∀ e, resolve library ds = .error e ↔ FirstFault library ds e) ∧
    (∀ e, resolve library ds = .error e → ∀ h : Heap, (e.notice h).family = .resolution ∧
      ((∃ name, e = .shadowsScalar name ∧ (e.notice h).context =
        [("type_ref", .text name), ("type_name", .text name)]) ∨
      ∃ ref field kind owner, e = .unknownType ref field kind owner ∧ (e.notice h).context =
        [("type_ref", .text ref), ("field_name", .text field), ("type_name", .text owner)])) := by
  refine ⟨⟨?_, ?_⟩, ?_, fun e => resolve_error_iff, fun e he => (resolve_error_iff.1 he).notice⟩
  · rintro ⟨s, h⟩
    have hds := resolvable_of_resolve_ok h
    refine ⟨hds.fresh, fun d hd f hf => ?_⟩
    exact (hds.resolves d hd f hf).imp_right List.mem_map.1
  · rintro ⟨hfresh, hresolves⟩
    refine ⟨_, resolve_ok ⟨hfresh, fun d hd f hf => ?_⟩⟩
    exact (hresolves d hd f hf).imp_right List.mem_map.2
  · intro s h
    obtain ⟨hds, rfl⟩ := resolve_ok_iff.1 h
    refine ⟨fun n => (mem_typeNames_of_resolve ds).trans List.mem_map, fun n t ht => ?_⟩
    rw [mem_types_iff, type?_of_resolve] at ht
    obtain ⟨d, hlast, rfl⟩ := Option.map_eq_some_iff.1 ht
    obtain ⟨hd, hn⟩ := List.mem_filter.1 (List.mem_of_getLast? hlast)
    refine ⟨⟨d, hlast, of_decide_eq_true hn, rfl, ?_⟩, fun f hf => ?_⟩
    · rw [resolvedType, List.map_map]
      rfl
    · obtain ⟨g, hg, rfl⟩ := List.mem_map.1 hf
      rw [mem_typeNames_of_resolve]
      exact scalar_of_resolves (hds.resolves d hd g hg)

end Schema

end ShapeCheck
