import ShapeCheck.Proofs.Schema.Compiled
import ShapeCheck.Proofs.Schema.Recursion

/-
  The order of declarations. Declarations of distinct names can be listed in any order: they resolve
  in every order or in none, and the schemas have the same type under each name. A check looks types
  up by name and never walks through the schema, so over schemas with the same types it finds the
  same (`checkValue_congr`, `Context.validate_onSchema`), and which types are recursive is a matter
  of chains of references (`isRecursive_iff`). `resolve_perm` says what is the same and what is
  listed in another order.
-/

namespace ShapeCheck

/-! ## Checks over schemas with the same types -/

theorem collect_congr {ε α β : Type} {check check' : α → Except ε (Option β)} {l : List α}
    (h : ∀ a ∈ l, check a = check' a) : collect check l = collect check' l := by
  induction l with
  | nil => rfl
  | cons a l ih =>
    obtain ⟨ha, hl⟩ := List.forall_mem_cons.1 h
    rw [collect, collect, ha, ih hl]

namespace Schema

/-- Two schemas have the same type under every name. -/
def SameTypes (s s' : Schema) : Prop := ∀ n, s.type? n = s'.type? n

variable {s s' : Schema}

theorem checkValue_congr (hs : SameTypes s s') (h : Heap) (m : Overrides) (active : List Addr)
    (f : Field) (value : Option Value) (path : String) :
    s.checkValue h m active f value path = s'.checkValue h m active f value path := by
  -- the objects that may still be entered are one fewer inside each object
  induction hn : h.unvisited active using Nat.strongRecOn generalizing active f value path with
  | ind n ih =>
    have hinside : ∀ {v : Value} {a : Addr} {es : Entries} (t : ObjectType),
        h.mapping? v = some (a, es) → a ∉ active →
        collect (fun g => s.checkValue h m (a :: active) g (es.field? g.name)
            (joinPath path g.name)) t.fields =
          collect (fun g => s'.checkValue h m (a :: active) g (es.field? g.name)
            (joinPath path g.name)) t.fields := by
      intro v a es t hm ha
      have hlt := Heap.unvisited_cons_lt (Heap.lt_size_of_mapping? hm) ha
      exact collect_congr fun g _ => ih _ (hn ▸ hlt) _ _ _ _ rfl
    rw [checkValue.eq_def, checkValue.eq_def, hs]
    split
    · rfl
    · rfl
    · split
      · rfl
      · split
        · rfl
        · split
          · rfl
          · rename_i hm
            split
            · rfl
            · rename_i ha
              rw [hinside _ hm ha]

theorem checkFields_congr (hs : SameTypes s s') (h : Heap) (m : Overrides) (active : List Addr)
    (t : ObjectType) (es : Entries) (parent : String) :
    s.checkFields h m active t es parent = s'.checkFields h m active t es parent :=
  collect_congr fun f _ => checkValue_congr hs h m active f _ _

theorem checkField_congr (hs : SameTypes s s') (h : Heap) (m : Overrides) (t : ObjectType)
    (key object : Value) : s.checkField h m t key object = s'.checkField h m t key object := by
  have hfind : s.findFailure h m t key object = s'.findFailure h m t key object := by
    unfold findFailure
    split
    · rfl
    · rfl
    · split
      · rfl
      · rw [checkValue_congr hs]
  rw [checkField, checkField, hfind]

end Schema

namespace Context

/-- The context on another schema. -/
def onSchema (c : Context) (s : Schema) : Context := { c with schema := s }

variable {c : Context} {s : Schema}

theorem check_onSchema (hs : Schema.SameTypes c.schema s) (h : Heap) (object key : Value) :
    (c.onSchema s).check h object key = c.check h object key :=
  (Schema.checkField_congr hs h c.overrides c.root key object).symm

theorem recordFields_onSchema (hs : Schema.SameTypes c.schema s) (h : Heap) (object : Value)
    (names : List String) (o : Outcome) :
    (c.onSchema s).recordFields h object names o = c.recordFields h object names o := by
  induction names generalizing o with
  | nil => rfl
  | cons k names ih =>
    rw [recordFields, recordFields, check_onSchema hs]
    cases c.check h object (.str k) with
    | error e => rfl
    | ok e => exact ih _

theorem validate_onSchema (hs : Schema.SameTypes c.schema s) (h : Heap) (object : Option Value) :
    (c.onSchema s).validate h object = c.validate h object := by
  unfold validate
  cases requireObject h "validate" object with
  | error e => rfl
  | ok v =>
    have hrecord := recordFields_onSchema hs h v c.root.fieldNames c.outcome.reset
    dsimp only
    rw [← hrecord]
    rfl

theorem validateOne_onSchema (hs : Schema.SameTypes c.schema s) (h : Heap)
    (object key : Option Value) :
    (c.onSchema s).validateOne h object key = c.validateOne h object key := by
  unfold validateOne
  cases requireObject h "validate_one" object with
  | error e => rfl
  | ok v =>
    cases key with
    | none => rfl
    | some k =>
      dsimp only
      rw [check_onSchema hs]
      rfl

end Context

/-! ## Declarations in another order -/

namespace Schema

variable {σ : Type} {library : Registry σ} {ds ds' : List Declaration}

theorem Resolvable.perm (hds : Resolvable library ds) (hp : ds.Perm ds') :
    Resolvable library ds' where
  fresh d hd := hds.fresh d (hp.mem_iff.2 hd)
  resolves d hd f hf := by
    refine (hds.resolves d (hp.mem_iff.2 hd) f hf).imp_right fun hdeclared => ?_
    exact (hp.map Declaration.name).mem_iff.1 hdeclared

theorem types_ofTypes {ts : List (ObjectType σ)} (hn : (ts.map ObjectType.name).Nodup) :
    (ofTypes ts).types = ts.map fun t => (t.name, t) := by
  refine Assoc.ofList_of_nodup ?_
  rw [Assoc.keys, List.map_map]
  exact hn

theorem names_resolvedType (library : Registry σ) (ds : List Declaration) :
    (ds.map (resolvedType library)).map ObjectType.name = ds.map Declaration.name := by
  rw [List.map_map]
  rfl

theorem types_perm (library : Registry σ) (hn : (ds.map Declaration.name).Nodup)
    (hp : ds.Perm ds') :
    (ofTypes (ds.map (resolvedType library))).types.Perm
      (ofTypes (ds'.map (resolvedType library))).types := by
  have hn' : (ds'.map Declaration.name).Nodup := (hp.map _).nodup_iff.1 hn
  rw [types_ofTypes ((names_resolvedType library ds).symm ▸ hn),
    types_ofTypes ((names_resolvedType library ds').symm ▸ hn')]
  exact (hp.map _).map _

theorem inputs_perm (library : Registry σ) (hp : ds.Perm ds') :
    (ofTypes (ds.map (resolvedType library))).inputs.Perm
      (ofTypes (ds'.map (resolvedType library))).inputs :=
  ((hp.map (resolvedType library)).filter _).map _

/-- Schemas with the same entries in some order have the same types. -/
theorem sameTypes_ofTypes {ts ts' : List ObjectType}
    (hp : (ofTypes ts).types.Perm (ofTypes ts').types) :
    SameTypes (ofTypes ts) (ofTypes ts') := by
  intro n
  refine Option.ext fun t => ?_
  rw [← mem_types_iff, ← mem_types_iff]
  exact hp.mem_iff

theorem isRecursive_congr {s s' : Schema} (hs : SameTypes s s') (n : String) :
    isRecursive s.types n = isRecursive s'.types n := by
  have hrefers : Refers s.types = Refers s'.types := by
    funext n k
    have ht : s.types.get? n = s'.types.get? n := hs n
    unfold Refers references
    rw [ht]
  rw [Bool.eq_iff_iff, isRecursive_iff, isRecursive_iff, hrefers]

theorem recursiveTypes_perm {s s' : Schema} (hs : SameTypes s s')
    (hp : s.types.Perm s'.types) : (recursiveTypes s).Perm (recursiveTypes s') := by
  have hnames : s.typeNames.Perm s'.typeNames := hp.map _
  have hrec : isRecursive s.types = isRecursive s'.types := funext (isRecursive_congr hs)
  unfold recursiveTypes
  rw [hrec]
  exact hnames.filter _

/-- The order of declarations of distinct names does not matter. In any other order they resolve
exactly if they did in the first one. Both schemas then have the same entries and input types, if in
another order, the same type under each name and the same recursive types, and over both of them all
checks of all values give the same failures, whatever the root type and the overrides. -/
theorem resolve_perm (library : Registry Scalar) (hn : (ds.map Declaration.name).Nodup)
    (hp : ds.Perm ds') :
    ((∃ s, resolve library ds = .ok s) ↔ ∃ s, resolve library ds' = .ok s) ∧
    ∀ s s', resolve library ds = .ok s → resolve library ds' = .ok s' →
      (∀ n, s.type? n = s'.type? n) ∧ s.types.Perm s'.types ∧ s.inputs.Perm s'.inputs ∧
      (recursiveTypes s).Perm (recursiveTypes s') ∧
      (∀ h m active f value path,
        s.checkValue h m active f value path = s'.checkValue h m active f value path) ∧
      (∀ h m active t es parent,
        s.checkFields h m active t es parent = s'.checkFields h m active t es parent) ∧
      ∀ c : Context, c.schema = s → ∀ (h : Heap) object key,
        (c.onSchema s').validate h object = c.validate h object ∧
        (c.onSchema s').validateOne h object key = c.validateOne h object key := by
  constructor
  · constructor
    · rintro ⟨s, hs⟩
      exact ⟨_, resolve_ok ((resolvable_of_resolve_ok hs).perm hp)⟩
    · rintro ⟨s, hs⟩
      exact ⟨_, resolve_ok ((resolvable_of_resolve_ok hs).perm hp.symm)⟩
  · intro s s' h h'
    obtain ⟨-, rfl⟩ := resolve_ok_iff.1 h
    obtain ⟨-, rfl⟩ := resolve_ok_iff.1 h'
    have htypes := types_perm library hn hp
    have hsame := sameTypes_ofTypes htypes
    refine ⟨hsame, htypes, inputs_perm library hp, recursiveTypes_perm hsame htypes,
      checkValue_congr hsame, checkFields_congr hsame, ?_⟩
    intro c hc heap object key
    have hother : SameTypes c.schema (ofTypes (ds'.map (resolvedType library))) := hc ▸ hsame
    exact ⟨Context.validate_onSchema hother heap object,
      Context.validateOne_onSchema hother heap object key⟩

/-- An order refers to its customer, and a customer to an order. -/
def orderDeclaration : Declaration :=
  ⟨.input, "Order", [⟨"customer", "Customer"⟩, ⟨"note", "String"⟩]⟩

def customerDeclaration : Declaration :=
  ⟨.type, "Customer", [⟨"mail", "EmailType"⟩, ⟨"last", "Order"⟩]⟩

def orderDeclarations : List Declaration := [orderDeclaration, customerDeclaration]

/-- Two types that refer to each other may be declared in either order. -/
theorem resolve_perm_order :
    (orderDeclarations.map Declaration.name).Nodup ∧
    orderDeclarations.Perm [customerDeclaration, orderDeclaration] ∧
    ∃ s s', resolve Scalar.library orderDeclarations = .ok s ∧
      resolve Scalar.library [customerDeclaration, orderDeclaration] = .ok s' ∧
      s.types ≠ s'.types ∧ s.types.Perm s'.types ∧ s.inputs.Perm s'.inputs ∧
      (∀ n, s.type? n = s'.type? n) ∧ (recursiveTypes s).Perm (recursiveTypes s') := by
  have hn : (orderDeclarations.map Declaration.name).Nodup := by decide
  have hp : orderDeclarations.Perm [customerDeclaration, orderDeclaration] := List.Perm.swap ..
  have hs : ∃ s, resolve Scalar.library orderDeclarations = .ok s := ⟨_, rfl⟩
  obtain ⟨hiff, hsame⟩ := resolve_perm Scalar.library hn hp
  obtain ⟨s', hs'⟩ := hiff.1 hs
  obtain ⟨s, hs⟩ := hs
  obtain ⟨htypes, hentries, hinputs, hrecursive, -⟩ := hsame s s' hs hs'
  refine ⟨hn, hp, s, s', hs, hs', ?_, hentries, hinputs, htypes, hrecursive⟩
  have hs₁ := (resolve_ok_iff.1 hs).2
  have hs₂ := (resolve_ok_iff.1 hs').2
  intro he
  rw [hs₁, hs₂] at he
  have hfirst := congrArg (fun m => (Assoc.keys m).head?) he
  contradiction

end Schema

end ShapeCheck
