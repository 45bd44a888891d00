import Mathlib.Data.List.Basic
import ShapeCheck.Fault
import ShapeCheck.Proofs.SchemaText.Grammar

/-
  Names that are used twice. `readBlocks` is the grammar alone, and what it reads is then looked
  through for names that repeat (`parseSchema_of_readBlocks`). `occurrences` lists the names in the
  order of the text. The check passes exactly if none of them repeats an earlier one, and else it
  stops at the first that does (`checkNames_stops`).
-/

namespace ShapeCheck

open ShapeCheck.Text ShapeCheck.SchemaText

/-- What the grammar alone makes of a text. -/
def readBlocks (source : String) : Except SchemaTextError (List SourceDeclaration) :=
  let text := expandTabs 0 source.toList
  match blocks (Token.scan 0 text) with
  | .error e => .error (e.locate text)
  | .ok raws => .ok (raws.map (·.locate text))

/-- A name where it is introduced. A field knows the number of its declaration. -/
inductive Occurrence where
  | type (name : String) (position : Position)
  | field (number : Nat) (kind : DeclarationKind) (owner name : String) (position : Position)
deriving DecidableEq, Repr

namespace Occurrence

/-- Names of types repeat each other, and so do names of fields of one declaration. -/
def Repeats : Occurrence → Occurrence → Prop
  | type name _, type first _ => name = first
  | field number _ _ name _, field number' _ _ first _ => number = number' ∧ name = first
  | _, _ => False

instance : (o p : Occurrence) → Decidable (o.Repeats p)
  | type name _, type first _ => inferInstanceAs (Decidable (name = first))
  | field number _ _ name _, field number' _ _ first _ =>
    inferInstanceAs (Decidable (number = number' ∧ name = first))
  | type .., field .. => isFalse id
  | field .., type .. => isFalse id

/-- The names of a declaration. -/
def ofDeclaration (number : Nat) (d : SourceDeclaration) : List Occurrence :=
  .type d.name d.position ::
    d.fields.map fun f => .field number d.kind d.name f.name f.position

/-- What is said of a repeated name: where it stands, whose it is, and for a type where the first
declaration of that name stands. -/
inductive Reported (ds : List SourceDeclaration) : Occurrence → Notice → Prop
  | type {name : String} {p : Position} {first : SourceDeclaration}
      (h : ds.find? (·.name = name) = some first) :
      Reported ds (.type name p) ⟨.schemaText, "Duplicate type name '" ++ name ++
          "' (first declared on line " ++ toString first.position.line ++ ")",
        [("type_name", .text name), ("line", .value (.int p.line)),
          ("column", .value (.int p.column))]⟩
  | field {number : Nat} {kind : DeclarationKind} {owner name : String} {p : Position} :
      Reported ds (.field number kind owner name p) ⟨.schemaText, "Duplicate field '" ++ name ++
          "' in " ++ kind.word ++ " '" ++ owner ++ "'",
        [("type_name", .text owner), ("field_name", .text name), ("line", .value (.int p.line)),
          ("column", .value (.int p.column))]⟩

end Occurrence

open Occurrence

/-- The names of declarations in the order of the text, each followed by those of its fields. -/
def occurrences (number : Nat) : List SourceDeclaration → List Occurrence
  | [] => []
  | d :: ds => ofDeclaration number d ++ occurrences (number + 1) ds

/-- The first name in a list that repeats an earlier one. -/
def FirstRepeat (os : List Occurrence) (o : Occurrence) : Prop :=
  ∃ before after, os = before ++ o :: after ∧ (before.Pairwise fun p q => ¬ q.Repeats p) ∧
    ∃ p ∈ before, o.Repeats p

/-- The rest of a list after a first repeat cannot begin before another one. -/
theorem FirstRepeat.unique {os : List Occurrence} {o o' : Occurrence} (h : FirstRepeat os o)
    (h' : FirstRepeat os o') : o = o' := by
  obtain ⟨before, after, rfl, hapart, p, hp, hr⟩ := h
  obtain ⟨before', after', hsplit, hapart', p', hp', hr'⟩ := h'
  obtain ⟨rest, rfl, hrest⟩ | ⟨rest, rfl, hrest⟩ := List.append_eq_append_iff.1 hsplit
  · cases rest with
    | nil => exact (List.cons.inj hrest).1
    | cons q rest =>
      cases (List.cons.inj hrest).1
      exact absurd hr ((List.pairwise_append.1 hapart').2.2 p hp o (List.mem_cons_self ..))
  · cases rest with
    | nil => exact (List.cons.inj hrest).1.symm
    | cons q rest =>
      cases (List.cons.inj hrest).1
      exact absurd hr' ((List.pairwise_append.1 hapart).2.2 p' hp' o' (List.mem_cons_self ..))

/-! ## Names that are all apart -/

theorem occurrences_append (number : Nat) (ds ds' : List SourceDeclaration) :
    occurrences number (ds ++ ds') =
      occurrences number ds ++ occurrences (number + ds.length) ds' := by
  induction ds generalizing number with
  | nil => simp [occurrences]
  | cons d ds ih =>
    have hnumber : number + 1 + ds.length = number + (ds.length + 1) := by omega
    simp only [List.cons_append, occurrences, ih, List.append_assoc, List.length_cons, hnumber]

theorem type_mem_occurrences {number : Nat} {ds : List SourceDeclaration} {name : String}
    {p : Position} : Occurrence.type name p ∈ occurrences number ds ↔
      ∃ d ∈ ds, d.name = name ∧ d.position = p := by
  induction ds generalizing number with
  | nil => simp [occurrences]
  | cons d ds ih => simp [occurrences, ofDeclaration, ih, eq_comm]

theorem number_le_of_mem {number n : Nat} {ds : List SourceDeclaration} {kind : DeclarationKind}
    {owner name : String} {p : Position}
    (h : Occurrence.field n kind owner name p ∈ occurrences number ds) : number ≤ n := by
  induction ds generalizing number with
  | nil => simp [occurrences] at h
  | cons d ds ih =>
    simp only [occurrences, ofDeclaration, List.cons_append, List.mem_cons, reduceCtorEq,
      List.mem_append, List.mem_map, field.injEq, false_or] at h
    rcases h with ⟨f, -, rfl, -⟩ | h
    · exact Nat.le_refl _
    · have := ih h
      omega

/-- The names of one declaration are apart if its fields are. -/
theorem apart_ofDeclaration {number : Nat} {d : SourceDeclaration}
    (h : (d.fields.map fun f => f.name).Nodup) :
    (ofDeclaration number d).Pairwise fun p o => ¬ o.Repeats p := by
  unfold ofDeclaration
  rw [List.pairwise_cons, List.pairwise_map]
  refine ⟨fun o ho => ?_, ?_⟩
  · obtain ⟨f, -, rfl⟩ := List.mem_map.1 ho
    exact id
  · unfold List.Nodup at h
    rw [List.pairwise_map] at h
    exact h.imp fun hne ⟨_, he⟩ => hne he.symm

/-- No name repeats an earlier one if types are told apart, and fields within each declaration. -/
theorem apart_occurrences {number : Nat} {ds : List SourceDeclaration}
    (hnames : (ds.map SourceDeclaration.name).Nodup)
    (hfields : ∀ d ∈ ds, (d.fields.map fun f => f.name).Nodup) :
    (occurrences number ds).Pairwise fun p o => ¬ o.Repeats p := by
  induction ds generalizing number with
  | nil => exact .nil
  | cons d ds ih =>
    rw [List.map_cons, List.nodup_cons] at hnames
    obtain ⟨hd, hds⟩ := List.forall_mem_cons.1 hfields
    unfold occurrences
    rw [List.pairwise_append]
    refine ⟨apart_ofDeclaration hd, ih hnames.2 hds, fun p hp o ho hr => ?_⟩
    cases o with
    | type name q =>
      -- only the name of `d` itself could be the earlier one
      obtain ⟨d', hd', hname, -⟩ := type_mem_occurrences.1 ho
      rcases List.mem_cons.1 hp with rfl | hp
      · have hmem := List.mem_map_of_mem (f := SourceDeclaration.name) hd'
        rw [hname, show name = d.name from hr] at hmem
        exact hnames.1 hmem
      · obtain ⟨f, -, rfl⟩ := List.mem_map.1 hp
        exact hr
    | field n kind owner name q =>
      have hn := number_le_of_mem ho
      rcases List.mem_cons.1 hp with rfl | hp
      · exact hr
      · obtain ⟨f, -, rfl⟩ := List.mem_map.1 hp
        have he : n = number := hr.1
        omega

/-! ## Where the check stops -/

/-- The first field that repeats a name, when the check stops. -/
theorem checkFields_stops {d : SourceDeclaration} {seen : List String} {fs : List SourceField}
    {e : SchemaTextError} (h : checkFields d seen fs = .error e) :
    ∃ before f after, fs = before ++ f :: after ∧ checkFields d seen before = .ok () ∧
      (f.name ∈ seen ∨ ∃ g ∈ before, g.name = f.name) ∧
      e = .duplicateField f.name d.kind d.name f.position := by
  induction fs generalizing seen with
  | nil => contradiction
  | cons f fs ih =>
    rw [checkFields] at h
    by_cases hf : f.name ∈ seen
    · rw [if_pos hf] at h
      cases h
      exact ⟨[], f, fs, rfl, rfl, .inl hf, rfl⟩
    · rw [if_neg hf] at h
      obtain ⟨before, g, after, rfl, hbefore, hg, he⟩ := ih h
      refine ⟨f :: before, g, after, rfl, ?_, ?_, he⟩
      · rw [checkFields, if_neg hf]
        exact hbefore
      · rcases hg with hg | ⟨g', hg', hname⟩
        · rcases List.mem_cons.1 hg with hname | hg
          · exact .inr ⟨f, List.mem_cons_self .., hname.symm⟩
          · exact .inl hg
        · exact .inr ⟨g', List.mem_cons_of_mem _ hg', hname⟩

/-- The first declaration that has a name used twice, when the check stops. -/
theorem checkNames_error {seen ds : List SourceDeclaration} {e : SchemaTextError}
    (h : checkNames seen ds = .error e) :
    ∃ earlier d later, ds = earlier ++ d :: later ∧ checkNames seen earlier = .ok () ∧
      ((∃ first, (seen ++ earlier).find? (·.name = d.name) = some first ∧
          e = .duplicateType d.name d.position first.position.line) ∨
        (seen ++ earlier).find? (·.name = d.name) = none ∧
          checkFields d [] d.fields = .error e) := by
  induction ds generalizing seen with
  | nil => contradiction
  | cons d ds ih =>
    rw [checkNames] at h
    cases hs : seen.find? (·.name = d.name) with
    | some first =>
      rw [hs] at h
      cases h
      exact ⟨[], d, ds, rfl, rfl, .inl ⟨first, by rwa [List.append_nil], rfl⟩⟩
    | none =>
      rw [hs] at h
      cases hf : checkFields d [] d.fields with
      | error e' =>
        rw [hf] at h
        cases h
        exact ⟨[], d, ds, rfl, rfl, .inr ⟨by rwa [List.append_nil], hf⟩⟩
      | ok _ =>
        rw [hf] at h
        obtain ⟨earlier, d', later, rfl, hearlier, he⟩ := ih h
        refine ⟨d :: earlier, d', later, rfl, ?_, ?_⟩
        · rw [checkNames, hs]
          dsimp only
          rw [hf]
          exact hearlier
        · rwa [List.append_assoc] at he

/-- A type whose name is taken, where the declarations before it are apart. -/
theorem firstRepeat_type {earlier later : List SourceDeclaration} {d first : SourceDeclaration}
    (hearlier : checkNames [] earlier = .ok ()) (hfirst : first ∈ earlier)
    (hname : first.name = d.name) :
    FirstRepeat (occurrences 0 (earlier ++ d :: later)) (.type d.name d.position) := by
  obtain ⟨hnames, -, hfields⟩ := (checkNames_ok_iff [] earlier).1 hearlier
  have hmem : Occurrence.type first.name first.position ∈ occurrences 0 earlier :=
    type_mem_occurrences.2 ⟨first, hfirst, rfl, rfl⟩
  exact ⟨_, _, occurrences_append 0 earlier (d :: later), apart_occurrences hnames hfields, _, hmem,
    hname.symm⟩

/-- A field whose name is taken, where the declarations and the fields before it are apart. -/
theorem firstRepeat_field {earlier later : List SourceDeclaration} {d : SourceDeclaration}
    {before after : List SourceField} {f : SourceField}
    (hearlier : checkNames [] earlier = .ok ()) (hd : ∀ first ∈ earlier, first.name ≠ d.name)
    (hfs : d.fields = before ++ f :: after) (hbefore : checkFields d [] before = .ok ())
    (hrepeat : ∃ g ∈ before, g.name = f.name) :
    FirstRepeat (occurrences 0 (earlier ++ d :: later))
      (.field earlier.length d.kind d.name f.name f.position) := by
  obtain ⟨hnames, -, hfields⟩ := (checkNames_ok_iff [] earlier).1 hearlier
  have hnodup := ((checkFields_ok_iff d [] before).1 hbefore).1
  -- its own declaration comes before it, with the fields up to there
  refine ⟨occurrences 0 (earlier ++ [{ d with fields := before }]),
    after.map (fun g => .field earlier.length d.kind d.name g.name g.position) ++
      occurrences (earlier.length + 1) later, ?_, apart_occurrences ?_ ?_, ?_⟩
  · simp [occurrences_append, occurrences, ofDeclaration, hfs]
  · rw [List.map_append]
    refine List.nodup_append.2 ⟨hnames, List.pairwise_singleton .., fun name hname _ he heq => ?_⟩
    obtain ⟨first, hfirst, rfl⟩ := List.mem_map.1 hname
    exact hd first hfirst (heq.trans (List.mem_singleton.1 he))
  · intro d' hd'
    rcases List.mem_append.1 hd' with hd' | hd'
    · exact hfields d' hd'
    · rwa [List.mem_singleton.1 hd']
  · obtain ⟨g, hg, hname⟩ := hrepeat
    refine ⟨.field earlier.length d.kind d.name g.name g.position, ?_, rfl, hname.symm⟩
    simp only [occurrences_append, occurrences, ofDeclaration, List.mem_append, List.mem_cons,
      List.mem_map, Nat.zero_add]
    exact .inr (.inl (.inr ⟨g, hg, rfl⟩))

/-- The check stops at the first name that repeats an earlier one, and reports that. -/
theorem checkNames_stops {ds : List SourceDeclaration} {e : SchemaTextError}
    (h : checkNames [] ds = .error e) :
    ∃ o, FirstRepeat (occurrences 0 ds) o ∧ Reported ds o e.notice := by
  obtain ⟨earlier, d, later, rfl, hearlier, hstop⟩ := checkNames_error h
  rw [List.nil_append] at hstop
  rcases hstop with ⟨first, hfirst, rfl⟩ | ⟨hnew, hf⟩
  · have hname : first.name = d.name := by simpa using List.find?_some hfirst
    refine ⟨_, firstRepeat_type hearlier (List.mem_of_find?_eq_some hfirst) hname, .type ?_⟩
    rw [List.find?_append, hfirst]
    rfl
  · obtain ⟨before, f, after, hfs, hbefore, hrepeat, rfl⟩ := checkFields_stops hf
    have hd : ∀ first ∈ earlier, first.name ≠ d.name := by simpa using hnew
    have hg := hrepeat.resolve_left List.not_mem_nil
    exact ⟨_, firstRepeat_field hearlier hd hfs hbefore hg, .field⟩

/-! ## Texts -/

/-- What the grammar reads is then looked through for names used twice. -/
theorem parseSchema_of_readBlocks {source : String} {ds : List SourceDeclaration}
    (h : readBlocks source = .ok ds) (hne : ds ≠ []) :
    parseSchema source = (checkNames [] ds).map fun _ => ds := by
  unfold readBlocks at h
  unfold parseSchema
  dsimp only at h ⊢
  cases hb : blocks (Token.scan 0 (expandTabs 0 source.toList)) with
  | error e =>
    rw [hb] at h
    contradiction
  | ok raws =>
    rw [hb] at h
    cases h
    cases raws with
    | nil => exact absurd rfl hne
    | cons raw raws =>
      dsimp only
      cases checkNames [] ((raw :: raws).map (·.locate (expandTabs 0 source.toList))) <;> rfl

theorem layout_of_readBlocks {source : String} {ds : List SourceDeclaration}
    (h : readBlocks source = .ok ds) : IsLayout (ds.map SourceDeclaration.plain) source := by
  unfold readBlocks at h
  dsimp only at h
  split at h
  · contradiction
  · rename_i raws hb
    cases h
    rw [map_plain_locate]
    exact (layout_of_blocks hb).1

/-- A text that lays declarations out is read exactly if all types have names of their own, and all
fields within their declarations. Else the error is about the first name in the order of the text
that repeats an earlier one. -/
theorem parseSchema_reports_first_repeat {source : String} {ds : List SourceDeclaration}
    (h : readBlocks source = .ok ds) (hne : ds ≠ []) :
    IsLayout (ds.map SourceDeclaration.plain) source ∧
    (parseSchema source = .ok ds ↔ (ds.map SourceDeclaration.name).Nodup ∧
      ∀ d ∈ ds, (d.fields.map fun f => f.name).Nodup) ∧
    (parseSchema source ≠ .ok ds → ∃ o, (∀ o', FirstRepeat (occurrences 0 ds) o' ↔ o' = o) ∧
      ∃ e, parseSchema source = .error e ∧ Reported ds o e.notice) := by
  have hparse := parseSchema_of_readBlocks h hne
  have hok := checkNames_ok_iff [] ds
  refine ⟨layout_of_readBlocks h, ?_, fun hnot => ?_⟩
  · rw [hparse]
    simp only [List.not_mem_nil, false_implies, implies_true, true_and] at hok
    rw [← hok]
    cases checkNames [] ds <;> simp [Except.map]
  · cases hc : checkNames [] ds with
    | ok _ =>
      rw [hparse, hc] at hnot
      exact absurd rfl hnot
    | error e =>
      obtain ⟨o, hfirst, hreported⟩ := checkNames_stops hc
      rw [hc] at hparse
      refine ⟨o, fun o' => ⟨fun h' => h'.unique hfirst, ?_⟩, e, hparse, hreported⟩
      rintro rfl
      exact hfirst

/-- A text with two faults: a field is repeated, and after it the name of its declaration. -/
def repeatedText : String := "type A \x7b\n  x: Int x: A \x7d\ninput A \x7b y: Int \x7d"

def repeatedBlocks : List SourceDeclaration :=
  [⟨.type, "A", [⟨⟨"x", "Int"⟩, ⟨2, 3⟩⟩, ⟨⟨"x", "A"⟩, ⟨2, 10⟩⟩], ⟨1, 1⟩⟩,
    ⟨.input, "A", [⟨⟨"y", "Int"⟩, ⟨3, 11⟩⟩], ⟨3, 1⟩⟩]

theorem parseSchema_reports_repeated_field :
    readBlocks repeatedText = .ok repeatedBlocks ∧
    parseSchema repeatedText = .error (.duplicateField "x" .type "A" ⟨2, 10⟩) ∧
    (∀ o, FirstRepeat (occurrences 0 repeatedBlocks) o ↔ o = .field 0 .type "A" "x" ⟨2, 10⟩) ∧
    Reported repeatedBlocks (.field 0 .type "A" "x" ⟨2, 10⟩)
      (SchemaTextError.duplicateField "x" .type "A" ⟨2, 10⟩).notice := by
  have hread : readBlocks repeatedText = .ok repeatedBlocks := by decide +kernel
  have herror : parseSchema repeatedText = .error (.duplicateField "x" .type "A" ⟨2, 10⟩) := by
    decide +kernel
  have hne : repeatedBlocks ≠ [] := by decide
  obtain ⟨-, -, hfirst⟩ := parseSchema_reports_first_repeat hread hne
  obtain ⟨o, ho, e, he, hreported⟩ := hfirst (by rw [herror]; simp)
  cases herror.symm.trans he
  have hfield : FirstRepeat (occurrences 0 repeatedBlocks) (.field 0 .type "A" "x" ⟨2, 10⟩) :=
    ⟨[.type "A" ⟨1, 1⟩, .field 0 .type "A" "x" ⟨2, 3⟩], _, rfl, by decide, by decide⟩
  cases (ho _).1 hfield
  exact ⟨hread, herror, ho, hreported⟩

-- the name of a declaration comes before its fields
example : parseSchema "type A \x7b \x7d type A \x7b x: Int x: Int \x7d" =
    .error (.duplicateType "A" ⟨1, 12⟩ 1) := by
  decide +kernel

end ShapeCheck
