import ShapeCheck.Proofs.Schema.Compiled

/-
  Making a validator from schema text and ready options. The text is read, then its references are
  resolved, then the root type is chosen, and the first of these that fails is what is reported
  (`Refused`). The root is the configured type, of either kind, or else the first input declaration
  (`RootOf`); an empty name counts as none. `make_ok_iff` and `make_error_iff` are the two halves of
  `made_or_refused`.
-/

namespace ShapeCheck

open ShapeCheck.Schema

/-- The configured root type is none, or its name is empty. -/
def Options.Rootless (o : Options) : Prop := o.rootType = none ∨ o.rootType = some ""

/-- The declaration of the root type: the one that is configured, or else the first input. -/
inductive RootOf (o : Options) (ds : List Declaration) : Declaration → Prop
  | named {d : Declaration} : d ∈ ds → d.name ≠ "" → o.rootType = some d.name → RootOf o ds d
  | first {before after : List Declaration} {d : Declaration} : o.Rootless →
      ds = before ++ d :: after → (∀ b ∈ before, b.kind ≠ .input) → d.kind = .input → RootOf o ds d

/-- What is reported of a text and options that make no validator: the first of the three steps
that fails. -/
inductive Refused (source : String) (o : Options) : Fault → Prop
  | text {e : SchemaTextError} : parseSchema source = .error e → Refused source o (.text e)
  | references {ds : List SourceDeclaration} {e : ResolutionError} :
      parseSchema source = .ok ds →
      resolve Scalar.library (ds.map SourceDeclaration.plain) = .error e →
      Refused source o (.resolution e)
  | undeclared {ds : List SourceDeclaration} {s : Schema} {name : String} :
      parseSchema source = .ok ds →
      resolve Scalar.library (ds.map SourceDeclaration.plain) = .ok s →
      o.rootType = some name → name ≠ "" → (∀ d ∈ ds, d.name ≠ name) →
      Refused source o (.resolution (.undeclared (.str name)))
  | noInput {ds : List SourceDeclaration} {s : Schema} :
      parseSchema source = .ok ds →
      resolve Scalar.library (ds.map SourceDeclaration.plain) = .ok s →
      o.Rootless → (∀ d ∈ ds, d.kind ≠ .input) → Refused source o (.resolution .noRoot)

/-! ## Compiling -/

theorem SchemaTextError.family_notice (e : SchemaTextError) : e.notice.family = .schemaText := by
  cases e <;> rfl

theorem ResolutionError.family_notice (e : ResolutionError) (heap : Heap) :
    (e.notice heap).family = .resolution := by
  cases e <;> rfl

theorem compile_ok_iff {source : String} {s : Schema} : compile (.str source) = .ok s ↔
    ∃ ds, parseSchema source = .ok ds ∧
      resolve Scalar.library (ds.map SourceDeclaration.plain) = .ok s := by
  unfold compile readSource
  dsimp only
  cases hp : parseSchema source with
  | error e => simp
  | ok ds =>
    dsimp only
    cases hr : resolve Scalar.library (ds.map SourceDeclaration.plain) with
    | error e => simp [hr]
    | ok s' => simp [hr]

theorem compile_error_iff {source : String} {e : Fault} : compile (.str source) = .error e ↔
    (∃ t, parseSchema source = .error t ∧ e = .text t) ∨
    ∃ ds r, parseSchema source = .ok ds ∧
      resolve Scalar.library (ds.map SourceDeclaration.plain) = .error r ∧ e = .resolution r := by
  unfold compile readSource
  dsimp only
  cases hp : parseSchema source with
  | error t => simp [eq_comm]
  | ok ds =>
    dsimp only
    cases hr : resolve Scalar.library (ds.map SourceDeclaration.plain) with
    | error r => simp [hr, eq_comm]
    | ok s => simp [hr]

/-! ## The root type -/

namespace Options

variable {o : Options} {s : Schema} {n : String}

theorem rootName?_of_rootless (ho : o.Rootless) : Validator.rootName? o s = s.primaryInput? := by
  unfold Validator.rootName?
  rcases ho with ho | ho
  · rw [ho]
  · rw [ho]
    rfl

theorem rootName?_of_named (ho : o.rootType = some n) (hn : n ≠ "") :
    Validator.rootName? o s = some n := by
  unfold Validator.rootName?
  rw [ho]
  split
  · rename_i he
    exact absurd (Option.some.inj he) hn
  · contradiction
  · rename_i he
    exact he.symm

theorem rootless_or_named (o : Options) : o.Rootless ∨ ∃ n, o.rootType = some n ∧ n ≠ "" := by
  cases ho : o.rootType with
  | none => exact .inl (.inl ho)
  | some n =>
    by_cases hn : n = ""
    · exact .inl (.inr (hn ▸ ho))
    · exact .inr ⟨n, rfl, hn⟩

end Options

namespace Schema

variable {ds : List Declaration} {d : Declaration} {n : String}

/-- The schema of resolved declarations takes its first input from theirs. -/
theorem primaryInput?_ofTypes (library : Registry Scalar) (ds : List Declaration) :
    (ofTypes (ds.map (resolvedType library))).primaryInput? =
      (ds.find? (·.kind = .input)).map Declaration.name := by
  unfold primaryInput? ofTypes
  dsimp only
  rw [List.filter_map, List.map_map, List.head?_map, List.head?_filter]
  rfl

/-- Of declarations with distinct names each gives the type of its name. -/
theorem type?_of_nodup (library : Registry Scalar) (hds : (ds.map Declaration.name).Nodup)
    (hd : d ∈ ds) :
    (ofTypes (ds.map (resolvedType library))).type? d.name = some (resolvedType library d) := by
  have hmem : d.name ∈ (ds.map (resolvedType library)).map ObjectType.name := by
    rw [List.map_map]
    exact List.mem_map_of_mem hd
  obtain ⟨t, ht⟩ := exists_type?_ofTypes hmem
  obtain ⟨ht', hname⟩ := mem_of_type?_ofTypes ht
  obtain ⟨d', hd', rfl⟩ := List.mem_map.1 ht'
  rw [ht, List.inj_on_of_nodup_map hds hd' hd hname]

theorem typeNamed_str (s : Schema) (n : String) : s.typeNamed (.str n) =
    match s.type? n with
    | some t => .ok t
    | none => .error (.resolution (.undeclared (.str n))) := by
  have hkey : (Value.str n).isKey = true := rfl
  unfold typeNamed getType
  rw [hkey]
  dsimp only
  cases s.type? n <;> rfl

end Schema

/-- Options and declarations give a root, or name one that is not declared, or name none where no
input is declared. -/
theorem root_cases (o : Options) (ds : List Declaration) : (∃ d, RootOf o ds d) ∨
    (∃ n, o.rootType = some n ∧ n ≠ "" ∧ ∀ d ∈ ds, d.name ≠ n) ∨
    o.Rootless ∧ ∀ d ∈ ds, d.kind ≠ .input := by
  rcases o.rootless_or_named with ho | ⟨n, ho, hn⟩
  · cases hfind : ds.find? (·.kind = .input) with
    | none =>
      have hnone : ∀ d ∈ ds, d.kind ≠ .input := by simpa using hfind
      exact .inr (.inr ⟨ho, hnone⟩)
    | some d =>
      obtain ⟨hd, before, after, hsplit, hbefore⟩ := List.find?_eq_some_iff_append.1 hfind
      refine .inl ⟨d, .first ho hsplit (fun b hb => ?_) (of_decide_eq_true hd)⟩
      simpa using hbefore b hb
  · by_cases hd : ∃ d ∈ ds, d.name = n
    · obtain ⟨d, hd, rfl⟩ := hd
      exact .inl ⟨d, .named hd hn ho⟩
    · exact .inr (.inl ⟨n, ho, hn, fun d hd' he => hd ⟨d, hd', he⟩⟩)

theorem rootName?_of_rootOf {o : Options} {ds : List Declaration} {d : Declaration}
    (hd : RootOf o ds d) :
    Validator.rootName? o (ofTypes (ds.map (resolvedType Scalar.library))) = some d.name ∧
      d ∈ ds := by
  cases hd with
  | named hmem hn ho => exact ⟨Options.rootName?_of_named ho hn, hmem⟩
  | @first before after d ho hsplit hbefore hkind =>
    have hfind : ds.find? (·.kind = .input) = some d := by
      rw [hsplit, List.find?_append, List.find?_cons_of_pos (by simpa using hkind),
        List.find?_eq_none.2 (by simpa using hbefore)]
      rfl
    refine ⟨?_, ?_⟩
    · rw [Options.rootName?_of_rootless ho, primaryInput?_ofTypes, hfind]
      rfl
    · rw [hsplit]
      exact List.mem_append_right _ (List.mem_cons_self ..)

namespace Validator

variable {h : Heap} {source : String} {options : Value} {o : Options} {v : Validator}
  {ds : List SourceDeclaration} {s : Schema}

/-- Ready options are taken as they are. -/
theorem make_eq_ofOptions (ho : h.options? options = some o) :
    make h (.str source) options .null = ofOptions (.str source) o := by
  have hcoerce : Options.coerce h options = .ok o := by
    unfold Options.coerce
    split
    · contradiction
    · rename_i o' hopt
      cases ho.symm.trans hopt
      rfl
    · rename_i hopt
      rw [ho] at hopt
      contradiction
  have hmerge : o.withMessages h .null = .ok o := rfl
  unfold make
  rw [hcoerce]
  dsimp only
  rw [hmerge]

/-- The validator on a declared type, with nothing recorded. -/
def fresh (o : Options) (s : Schema) (d : Declaration) : Validator where
  options := o
  context := { schema := s, root := resolvedType Scalar.library d, messages := o.entries }

theorem ofOptions_of_rootOf {d : Declaration} (hp : parseSchema source = .ok ds)
    (hs : resolve Scalar.library (ds.map SourceDeclaration.plain) = .ok s)
    (hd : RootOf o (ds.map SourceDeclaration.plain) d) :
    ofOptions (.str source) o = .ok (fresh o s d) := by
  have hnames : ((ds.map SourceDeclaration.plain).map Declaration.name).Nodup :=
    (layout_of_parseSchema hp).1.names
  have hcompile := compile_ok_iff.2 ⟨ds, hp, hs⟩
  obtain ⟨-, rfl⟩ := resolve_ok_iff.1 hs
  obtain ⟨hroot, hmem⟩ := rootName?_of_rootOf hd
  unfold ofOptions
  rw [hcompile]
  dsimp only
  rw [hroot]
  dsimp only
  rw [typeNamed_str, type?_of_nodup Scalar.library hnames hmem]
  rfl

theorem ofOptions_of_refused {e : Fault} (he : Refused source o e) :
    ofOptions (.str source) o = .error e := by
  unfold ofOptions
  cases he with
  | text hp => rw [compile_error_iff.2 (.inl ⟨_, hp, rfl⟩)]
  | references hp hs => rw [compile_error_iff.2 (.inr ⟨_, _, hp, hs, rfl⟩)]
  | @undeclared ds s n hp hs ho hn hnone =>
    have htype : s.type? n = none := by
      obtain ⟨-, rfl⟩ := resolve_ok_iff.1 hs
      by_contra hsome
      obtain ⟨t, ht⟩ := Option.ne_none_iff_exists'.1 hsome
      obtain ⟨hmem, hname⟩ := mem_of_type?_ofTypes ht
      rw [List.map_map] at hmem
      obtain ⟨d, hd, rfl⟩ := List.mem_map.1 hmem
      exact hnone d hd hname
    rw [compile_ok_iff.2 ⟨ds, hp, hs⟩]
    dsimp only
    rw [Options.rootName?_of_named ho hn]
    dsimp only
    rw [typeNamed_str, htype]
  | @noInput ds s hp hs ho hnone =>
    have hfind : (ds.map SourceDeclaration.plain).find? (·.kind = .input) = none := by
      refine List.find?_eq_none.2 fun d hd => ?_
      obtain ⟨d', hd', rfl⟩ := List.mem_map.1 hd
      have hkind : d'.plain.kind ≠ .input := hnone d' hd'
      simpa using hkind
    rw [compile_ok_iff.2 ⟨ds, hp, hs⟩]
    obtain ⟨-, rfl⟩ := resolve_ok_iff.1 hs
    dsimp only
    rw [Options.rootName?_of_rootless ho, primaryInput?_ofTypes, hfind]
    rfl

/-- Either the text and the options make a validator, or there is a reason to refuse them. -/
theorem made_or_refused (source : String) (o : Options) :
    (∃ ds s d, parseSchema source = .ok ds ∧
      resolve Scalar.library (ds.map SourceDeclaration.plain) = .ok s ∧
      RootOf o (ds.map SourceDeclaration.plain) d) ∨ ∃ e, Refused source o e := by
  cases hp : parseSchema source with
  | error e => exact .inr ⟨_, .text hp⟩
  | ok ds =>
    cases hs : resolve Scalar.library (ds.map SourceDeclaration.plain) with
    | error e => exact .inr ⟨_, .references hp hs⟩
    | ok s =>
      rcases root_cases o (ds.map SourceDeclaration.plain) with hd | ⟨n, ho, hn, hnone⟩ | ⟨ho, hnone⟩
      · obtain ⟨d, hd⟩ := hd
        exact .inl ⟨ds, s, d, rfl, hs, hd⟩
      · refine .inr ⟨_, .undeclared hp hs ho hn fun d hd => ?_⟩
        exact hnone d.plain (List.mem_map_of_mem hd)
      · refine .inr ⟨_, .noInput hp hs ho fun d hd => ?_⟩
        exact hnone d.plain (List.mem_map_of_mem hd)

theorem ofOptions_ok_iff : ofOptions (.str source) o = .ok v ↔
    ∃ ds s d, parseSchema source = .ok ds ∧
      resolve Scalar.library (ds.map SourceDeclaration.plain) = .ok s ∧
      RootOf o (ds.map SourceDeclaration.plain) d ∧ v = fresh o s d := by
  constructor
  · intro hv
    rcases made_or_refused source o with ⟨ds, s, d, hp, hs, hd⟩ | ⟨e, he⟩
    · rw [ofOptions_of_rootOf hp hs hd] at hv
      exact ⟨ds, s, d, hp, hs, hd, (Except.ok.inj hv).symm⟩
    · rw [ofOptions_of_refused he] at hv
      contradiction
  · rintro ⟨ds, s, d, hp, hs, hd, rfl⟩
    exact ofOptions_of_rootOf hp hs hd

theorem ofOptions_error_iff {e : Fault} :
    ofOptions (.str source) o = .error e ↔ Refused source o e := by
  refine ⟨fun hv => ?_, ofOptions_of_refused⟩
  rcases made_or_refused source o with ⟨ds, s, d, hp, hs, hd⟩ | ⟨e', he⟩
  · rw [ofOptions_of_rootOf hp hs hd] at hv
    contradiction
  · rw [ofOptions_of_refused he] at hv
    exact Except.error.inj hv ▸ he

/-- A text that cannot be read is refused as schema text, whatever else is wrong with it, and all
else is refused as a matter of resolution. -/
theorem family_of_refused {e : Fault} (he : Refused source o e) (heap : Heap) :
    (∃ t, parseSchema source = .error t) ∧
        (e.notice? heap).map Notice.family = some .schemaText ∨
      (∃ ds, parseSchema source = .ok ds) ∧
        (e.notice? heap).map Notice.family = some .resolution := by
  cases he with
  | @text t hp => exact .inl ⟨⟨t, hp⟩, congrArg some t.family_notice⟩
  | @references ds r hp _ => exact .inr ⟨⟨ds, hp⟩, congrArg some (r.family_notice heap)⟩
  | @undeclared ds _ n hp _ _ _ _ => exact .inr ⟨⟨ds, hp⟩, rfl⟩
  | @noInput ds _ hp _ _ _ => exact .inr ⟨⟨ds, hp⟩, rfl⟩

theorem exists_rootOf_iff : (∃ d, RootOf o (ds.map SourceDeclaration.plain) d) ↔
    (∃ n, o.rootType = some n ∧ n ≠ "" ∧ ∃ d ∈ ds, d.name = n) ∨
    o.Rootless ∧ ∃ d ∈ ds, d.kind = .input := by
  constructor
  · rintro ⟨d, hd⟩
    cases hd with
    | named hmem hn ho =>
      obtain ⟨d', hd', rfl⟩ := List.mem_map.1 hmem
      exact .inl ⟨_, ho, hn, d', hd', rfl⟩
    | @first before after d ho hsplit _ hkind =>
      have hmem : d ∈ ds.map SourceDeclaration.plain := by
        rw [hsplit]
        exact List.mem_append_right _ (List.mem_cons_self ..)
      obtain ⟨d', hd', rfl⟩ := List.mem_map.1 hmem
      exact .inr ⟨ho, d', hd', hkind⟩
  · rintro (⟨n, ho, hn, d, hd, rfl⟩ | ⟨ho, d, hd, hkind⟩)
    · exact ⟨d.plain, .named (List.mem_map_of_mem hd) hn ho⟩
    · have hmem : d.plain ∈ ds.map SourceDeclaration.plain := List.mem_map_of_mem hd
      rcases root_cases o (ds.map SourceDeclaration.plain) with hroot | ⟨n, hn, hne, -⟩ | ⟨-, hnone⟩
      · exact hroot
      · rcases ho with ho | ho <;> rw [ho] at hn
        · contradiction
        · exact absurd (Option.some.inj hn).symm hne
      · exact absurd hkind (hnone d.plain hmem)

/-- Source text and ready options make a validator exactly if the text can be read, its references
resolve, and the options name a declared type, of either kind, or name none where an input is
declared. The validator then stands on that type, or on the first input, and has nothing recorded.
Otherwise the first of the three steps that fails is what is reported. -/
theorem make_accepts_usable (ho : h.options? options = some o) (source : String) :
    ((∃ v, make h (.str source) options .null = .ok v) ↔ ∃ ds s, parseSchema source = .ok ds ∧
      resolve Scalar.library (ds.map SourceDeclaration.plain) = .ok s ∧
      ((∃ n, o.rootType = some n ∧ n ≠ "" ∧ ∃ d ∈ ds, d.name = n) ∨
        o.Rootless ∧ ∃ d ∈ ds, d.kind = .input)) ∧
    (∀ v, make h (.str source) options .null = .ok v ↔ ∃ ds s d, parseSchema source = .ok ds ∧
      resolve Scalar.library (ds.map SourceDeclaration.plain) = .ok s ∧
      RootOf o (ds.map SourceDeclaration.plain) d ∧ v = fresh o s d) ∧
    (∀ v, make h (.str source) options .null = .ok v →
      v.context.invalidKeys = [] ∧ v.context.isValid = true) ∧
    (∀ e, make h (.str source) options .null = .error e ↔ Refused source o e) ∧
    ∀ e, make h (.str source) options .null = .error e →
      (∃ t, parseSchema source = .error t) ∧
          (e.notice? h).map Notice.family = some .schemaText ∨
        (∃ ds, parseSchema source = .ok ds) ∧
          (e.notice? h).map Notice.family = some .resolution := by
  rw [make_eq_ofOptions ho]
  refine ⟨?_, fun v => ofOptions_ok_iff, fun v hv => ?_, fun e => ofOptions_error_iff,
    fun e he => family_of_refused (ofOptions_error_iff.1 he) h⟩
  · constructor
    · rintro ⟨v, hv⟩
      obtain ⟨ds, s, d, hp, hs, hd, -⟩ := ofOptions_ok_iff.1 hv
      exact ⟨ds, s, hp, hs, exists_rootOf_iff.1 ⟨d, hd⟩⟩
    · rintro ⟨ds, s, hp, hs, hroot⟩
      obtain ⟨d, hd⟩ := exists_rootOf_iff.2 hroot
      exact ⟨fresh o s d, ofOptions_of_rootOf hp hs hd⟩
  · obtain ⟨_, s, d, -, -, -, rfl⟩ := ofOptions_ok_iff.1 hv
    have hnone : ∀ name, (fresh o s d).context.outcome.get? name = none := fun _ => rfl
    refine ⟨List.filterMap_eq_nil_iff.2 fun name _ => hnone name, rfl⟩

/-- Options that name a declared type which is no input, and options whose root type is empty. -/
def boxHeap : Heap where
  cells := #[.options ⟨[], some "Box"⟩, .options ⟨[], some ""⟩]

def boxDeclaration : Declaration := ⟨.type, "Box", [⟨"size", "Int"⟩]⟩

theorem make_accepts_usable_box :
    (∃ s, make boxHeap (.str "type Box { size: Int }") (.object 0) .null =
      .ok (fresh ⟨[], some "Box"⟩ s boxDeclaration)) ∧
    make boxHeap (.str "type Box { size: Int }") (.object 1) .null =
      .error (.resolution .noRoot) ∧
    make boxHeap (.str "type Box") (.object 0) .null =
      .error (.text (.unexpected .openBrace ⟨1, 9⟩ "type Box")) := by
  have hp : parseSchema "type Box { size: Int }" =
      .ok [⟨.type, "Box", [⟨⟨"size", "Int"⟩, ⟨1, 12⟩⟩], ⟨1, 1⟩⟩] := by
    decide +kernel
  have hs : resolve Scalar.library [boxDeclaration] =
      .ok ⟨[("Box", resolvedType Scalar.library boxDeclaration)], []⟩ := by
    rfl
  obtain ⟨-, hok, -⟩ := make_accepts_usable (by rfl : boxHeap.options? (.object 0) = _)
    "type Box { size: Int }"
  obtain ⟨-, -, -, herror, -⟩ := make_accepts_usable (by rfl : boxHeap.options? (.object 1) = _)
    "type Box { size: Int }"
  obtain ⟨-, -, -, htext, -⟩ := make_accepts_usable (by rfl : boxHeap.options? (.object 0) = _)
    "type Box"
  refine ⟨⟨_, (hok _).2 ⟨_, _, _, hp, hs, ?_, rfl⟩⟩, (herror _).2 (.noInput hp hs (.inr rfl) ?_),
    (htext _).2 (.text ?_)⟩
  · exact .named (List.mem_singleton.2 rfl) (by decide) rfl
  · decide
  · decide +kernel

end Validator

end ShapeCheck
