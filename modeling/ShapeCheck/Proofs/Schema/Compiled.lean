import Mathlib.Data.List.Nodup
import ShapeCheck.Proofs.Schema.Resolution
import ShapeCheck.Proofs.SchemaText.Grammar
import ShapeCheck.Session

/-
  What holds of every schema that was compiled from text: types stand under their own names, the
  fields of a type are identifiers and differ in name, and a field that has no built-in type refers
  to a type of the schema. `compiled_of_compile` gets the first and the last from the resolution and
  the rest from the parser. Contexts that are made over such a schema have one of its types as root.
-/

namespace ShapeCheck

/-- A schema whose types can be looked up by name, in which every reference leads somewhere. -/
structure Schema.Closed (s : Schema) : Prop where
  name_eq : ∀ {n t}, s.type? n = some t → t.name = n
  resolved : ∀ {n t}, s.type? n = some t → ∀ f ∈ t.fields, f.scalar = none →
    ∃ u, s.type? f.typeRef = some u

/-- A closed schema with distinct identifiers as the names of the fields of each type. -/
structure Schema.Compiled (s : Schema) : Prop extends s.Closed where
  nodup_fieldNames : ∀ {n t}, s.type? n = some t → t.fieldNames.Nodup
  isIdentifier_name : ∀ {n t}, s.type? n = some t → ∀ f ∈ t.fields, isIdentifier f.name = true

/-! ## Resolution -/

namespace Schema

variable {library : Registry Scalar} {ds : List Declaration} {s : Schema}

theorem closed_of_resolve (h : resolve library ds = .ok s) : s.Closed := by
  obtain ⟨hds, rfl⟩ := resolve_ok_iff.1 h
  refine ⟨fun ht => (mem_of_type?_ofTypes ht).2, fun ht f hf hs => ?_⟩
  obtain ⟨d, hd, rfl⟩ := List.mem_map.1 (mem_of_type?_ofTypes ht).1
  obtain ⟨g, hg, rfl⟩ := List.mem_map.1 hf
  have hunknown : ¬library.Knows g.typeRef := Registry.not_knows_iff.2 hs
  have hdeclared := (hds.resolves d hd g hg).resolve_left hunknown
  refine exists_type?_ofTypes ?_
  rw [List.map_map]
  exact hdeclared

theorem compiled_of_resolve (hds : WellFormed ds) (h : resolve library ds = .ok s) :
    s.Compiled := by
  have hclosed := closed_of_resolve h
  obtain ⟨-, rfl⟩ := resolve_ok_iff.1 h
  refine ⟨hclosed, fun ht => ?_, fun ht f hf => ?_⟩
  · obtain ⟨d, hd, rfl⟩ := List.mem_map.1 (mem_of_type?_ofTypes ht).1
    rw [fieldNames_resolvedType]
    exact hds.fieldNames d hd
  · obtain ⟨d, hd, rfl⟩ := List.mem_map.1 (mem_of_type?_ofTypes ht).1
    obtain ⟨g, hg, rfl⟩ := List.mem_map.1 hf
    exact ((hds.identifiers d hd).2 g hg).1

end Schema

theorem compiled_of_compile {source : Value} {s : Schema} (h : compile source = .ok s) :
    s.Compiled := by
  unfold compile at h
  split at h
  · contradiction
  · rename_i ds hds
    split at h
    · contradiction
    · rename_i hr
      cases h
      refine Schema.compiled_of_resolve ?_ hr
      unfold readSource at hds
      split at hds
      · split at hds
        · contradiction
        · rename_i hp
          cases hds
          exact (layout_of_parseSchema hp).1
      · contradiction

theorem Schema.Compiled.field?_of_mem {s : Schema} (hs : s.Compiled) {n : String} {t : ObjectType}
    (ht : s.type? n = some t) {f : Field} (hf : f ∈ t.fields) : t.field? f.name = some f := by
  have hmem : t.hasField f.name = true := ObjectType.hasField_iff.2 (ObjectType.mem_fieldNames hf)
  obtain ⟨g, hg⟩ := Option.isSome_iff_exists.1 hmem
  obtain ⟨hg', hn⟩ := ObjectType.mem_of_field? hg
  rw [hg, List.inj_on_of_nodup_map (hs.nodup_fieldNames ht) hg' hf hn]

/-! ## Contexts -/

namespace Context

/-- A context over a schema that was compiled, on a type of that schema. -/
structure Compiled (c : Context) : Prop where
  source : ∃ source, compile source = .ok c.schema
  root : c.schema.type? c.root.name = some c.root

variable {h : Heap} {s : Schema} {c d : Context}

theorem Compiled.schema (hc : c.Compiled) : c.schema.Compiled := by
  obtain ⟨source, hs⟩ := hc.source
  exact compiled_of_compile hs

/-- What a context has recorded does not matter to that. -/
theorem Compiled.outcome (hc : c.Compiled) (o : Outcome) : Compiled { c with outcome := o } :=
  ⟨hc.source, hc.root⟩

theorem type?_of_typeNamed {root : Value} {t : ObjectType} (ht : s.typeNamed root = .ok t) :
    ∃ n, root = .str n ∧ s.type? n = some t := by
  unfold Schema.typeNamed at ht
  split at ht
  · contradiction
  · cases root with
    | str n =>
      refine ⟨n, rfl, ?_⟩
      rw [Schema.getType] at ht
      cases hn : s.type? n with
      | none => rw [hn] at ht; contradiction
      | some u => rw [hn] at ht; cases ht; rfl
    | _ => contradiction

theorem make_ok {root messages : Value} (hc : make h s root messages = .ok c) :
    c.schema = s ∧ c.outcome = {} ∧ ∃ n, s.type? n = some c.root := by
  unfold make at hc
  split at hc
  · contradiction
  · rename_i t ht
    split at hc
    · contradiction
    · cases hc
      obtain ⟨n, -, hn⟩ := type?_of_typeNamed ht
      exact ⟨rfl, rfl, n, hn⟩

theorem compiled_of_type? {source : Value} {n : String} (hs : compile source = .ok c.schema)
    (ht : c.schema.type? n = some c.root) : c.Compiled := by
  refine ⟨⟨source, hs⟩, ?_⟩
  rw [(compiled_of_compile hs).name_eq ht]
  exact ht

theorem compiled_of_make {source root messages : Value} (hs : compile source = .ok s)
    (hc : make h s root messages = .ok c) : c.Compiled := by
  obtain ⟨rfl, -, n, hn⟩ := make_ok hc
  exact compiled_of_type? hs hn

/-- Contexts made from a context are over its schema. -/
theorem Compiled.make (hc : c.Compiled) {root messages : Value}
    (hd : Context.make h c.schema root messages = .ok d) : d.Compiled := by
  obtain ⟨source, hs⟩ := hc.source
  exact compiled_of_make hs hd

end Context

theorem Validator.compiled_of_make {h : Heap} {source options messages : Value} {v : Validator}
    (hv : make h source options messages = .ok v) : v.context.Compiled ∧ v.context.outcome = {} := by
  unfold make at hv
  split at hv
  · contradiction
  · split at hv
    · contradiction
    · unfold ofOptions at hv
      split at hv
      · contradiction
      · rename_i s hs
        split at hv
        · contradiction
        · split at hv
          · contradiction
          · rename_i t ht
            cases hv
            obtain ⟨n, -, hn⟩ := Context.type?_of_typeNamed ht
            exact ⟨Context.compiled_of_type? hs hn, rfl⟩

theorem compile_of_parseSchema {source : String} {ds : List SourceDeclaration} {s : Schema}
    (hp : parseSchema source = .ok ds)
    (hs : Schema.resolve Scalar.library (ds.map SourceDeclaration.plain) = .ok s) :
    compile (.str source) = .ok s := by
  unfold compile readSource
  dsimp only
  rw [hp]
  dsimp only
  rw [hs]

/-! ## A type that refers to itself -/

/-- The type of the members of a chain. -/
def linkType : ObjectType where
  name := "Link"
  kind := .input
  fields := [⟨"next", "Link", none⟩, ⟨"label", "String", some .string⟩]

def linkSchema : Schema where
  types := [("Link", linkType)]
  inputs := ["Link"]

theorem link_of_type? {n : String} {t : ObjectType} (ht : linkSchema.type? n = some t) :
    t = linkType := by
  have hmem := Assoc.mem_of_get? ht
  simp only [linkSchema, List.mem_singleton, Prod.mk.injEq] at hmem
  exact hmem.2

theorem compile_link :
    compile (.str "input Link { next: Link, label: String }") = .ok linkSchema := by
  have hparse : parseSchema "input Link { next: Link, label: String }" =
      .ok [⟨.input, "Link", [⟨⟨"next", "Link"⟩, ⟨1, 14⟩⟩, ⟨⟨"label", "String"⟩, ⟨1, 26⟩⟩],
        ⟨1, 1⟩⟩] := by
    decide +kernel
  exact compile_of_parseSchema hparse (by cbv)

/-- A context on that type. -/
def linkContext : Context where
  schema := linkSchema
  root := linkType
  messages := []

theorem linkContext_compiled : linkContext.Compiled :=
  Context.compiled_of_type? compile_link (by cbv : linkSchema.type? "Link" = some linkType)

end ShapeCheck
