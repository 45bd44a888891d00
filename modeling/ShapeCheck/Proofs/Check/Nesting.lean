import ShapeCheck.Proofs.Check.Entrance

/-
  An object as the value of a field, and the same object by itself. The check of the field finds in
  the object what the checks of its own fields find; only the paths are longer. By
  `movedAll_spellAll` the failures of findings move along with their path, and by
  `findings_of_not_leadsTo` the objects around the field play no part as long as the object does
  not lead to them. `checkValue_eq_moved` puts the two together.
-/

namespace ShapeCheck

/-! ## Failures further down -/

/-- The overrides as they are seen from inside the object at a path. -/
def Overrides.under (m : Overrides) (p : String) : Overrides := fun q => m (p ++ "." ++ q)

theorem Overrides.Legible.under {m : Overrides} (hm : m.Legible) (p : String) :
    (m.under p).Legible :=
  fun path => hm (p ++ "." ++ path)

/-- A text that starts with a path, as names of failures and default messages do, with the path of
the object around it put before it. -/
def Value.under (p : String) : Value → Value
  | .str q => .str (p ++ "." ++ q)
  | v => v

namespace FieldError

mutual

/-- The failure with the path of the object that it is found in put before its name, and before its
message if that is not to be overridden. -/
def moved (m : Overrides) (p : String) : FieldError → FieldError
  | ⟨.str q, message, typeName, details⟩ =>
    ⟨.str (p ++ "." ++ q), (m (p ++ "." ++ q)).getD (message.under p), typeName,
      movedAll m p details⟩
  | e => e

def movedAll (m : Overrides) (p : String) : List FieldError → List FieldError
  | [] => []
  | e :: es => e.moved m p :: movedAll m p es

end

end FieldError

/-- Default messages start with the path, so that the one for a longer path is the one for its end
with the rest put before it. -/
theorem Complaint.message_append (c : Complaint) (p q : String) :
    c.message (p ++ q) = p ++ c.message q := by
  cases c with
  | mismatch k => simp only [message, Scalar.message, String.append_assoc]
  | _ => simp only [message, String.append_assoc]

theorem joinPath_append {parent : String} (hp : parent ≠ "") (p name : String) :
    joinPath (p ++ "." ++ parent) name = p ++ "." ++ joinPath parent name := by
  have hne : p ++ "." ++ parent ≠ "" := by
    intro he
    have hl := congrArg String.toList he
    simp at hl
  rw [joinPath, joinPath, if_neg hp, if_neg hne]
  simp only [String.append_assoc]

theorem joinPath_ne_empty {parent : String} (hp : parent ≠ "") (name : String) :
    joinPath parent name ≠ "" := by
  intro he
  rw [joinPath, if_neg hp] at he
  have hl := congrArg String.toList he
  simp at hl

theorem Field.moved_failure (f : Field) (m : Overrides) (p q : String) (c : Complaint)
    (details : List FieldError) :
    (f.failure (m.under p) q c details).moved m p =
      f.failure m (p ++ "." ++ q) c (FieldError.movedAll m p details) := by
  rw [failure, failure, FieldError.moved, Overrides.under, Complaint.message_append]
  cases m (p ++ "." ++ q) with
  | none => rfl
  | some v => rfl

namespace Finding

variable {m : Overrides} {p : String}

mutual

/-- The failure for a finding moves along with its path. -/
theorem moved_spell : (g : Finding) → (path : String) → path ≠ "" →
    (g.spell (m.under p) path).moved m p = g.spell m (p ++ "." ++ path)
  | ⟨f, c, inside⟩, path, hpath => by
    rw [spell, spell, Field.moved_failure, movedAll_spellAll inside path hpath]

theorem movedAll_spellAll : (gs : List Finding) → (parent : String) → parent ≠ "" →
    FieldError.movedAll m p (spellAll (m.under p) parent gs) =
      spellAll m (p ++ "." ++ parent) gs
  | [], parent, _ => by rw [spellAll, spellAll, FieldError.movedAll]
  | g :: gs, parent, hparent => by
    have hpath : joinPath parent g.field.name ≠ "" := joinPath_ne_empty hparent _
    rw [spellAll, spellAll, FieldError.movedAll, moved_spell g _ hpath, joinPath_append hparent,
      movedAll_spellAll gs parent hparent]

end

/-- The failures in the outermost object have no path before them yet. -/
theorem movedAll_spellAll_root (hp : p ≠ "") {gs : List Finding}
    (hgs : ∀ g ∈ gs, g.field.name ≠ "") :
    FieldError.movedAll m p (spellAll (m.under p) "" gs) = spellAll m p gs := by
  induction gs with
  | nil => rw [spellAll, spellAll, FieldError.movedAll]
  | cons g gs ih =>
    obtain ⟨hg, hgs⟩ := List.forall_mem_cons.1 hgs
    have hroot : joinPath "" g.field.name = g.field.name := if_pos rfl
    have hnested : joinPath p g.field.name = p ++ "." ++ g.field.name := if_neg hp
    rw [spellAll, spellAll, FieldError.movedAll, hroot, hnested, moved_spell g _ hg, ih hgs]

end Finding

/-! ## Objects that an object leads to -/

/-- The object at an address is the one that stands for a value of a type, or can be come to from
there through fields of declared types. -/
inductive Schema.LeadsTo (s : Schema) (h : Heap) : String → Value → Addr → Prop
  | self {n : String} {v : Value} {a : Addr} {es : Entries} :
      h.mapping? v = some (a, es) → LeadsTo s h n v a
  | inside {n : String} {v w : Value} {a b : Addr} {es : Entries} {t : ObjectType} {f : Field} :
      s.type? n = some t → h.mapping? v = some (a, es) → f ∈ t.fields → f.scalar = none →
      es.field? f.name = some w → LeadsTo s h f.typeRef w b → LeadsTo s h n v b

namespace Place

variable {s : Schema} {h : Heap} {x z : Place} {q : List String} {b : Addr}

/-- A walk comes to objects only that the object it starts from leads to. -/
theorem leadsTo_of_walk (hw : Walk s h (x.inner s h) q z) (hz : z.Holds h b) :
    x.field.scalar = none ∧ ∃ v, x.value = some v ∧ s.LeadsTo h x.field.typeRef v b := by
  generalize hrow : x.inner s h = row at hw
  induction hw generalizing x with
  | here hy =>
    obtain ⟨t, v, a, es, hx, ht, hv, hm, -, hi⟩ := entered_of_mem_inner (hrow ▸ hy)
    obtain ⟨f, hf, rfl⟩ := mem_row.1 (hi ▸ hrow ▸ hy)
    obtain ⟨hscalar, w, fs, hw, hb⟩ := hz
    exact ⟨hx, v, hv, .inside ht hm hf hscalar hw (.self hb)⟩
  | inside hy hw ih =>
    obtain ⟨t, v, a, es, hx, ht, hv, hm, -, hi⟩ := entered_of_mem_inner (hrow ▸ hy)
    obtain ⟨f, hf, rfl⟩ := mem_row.1 (hi ▸ hrow ▸ hy)
    obtain ⟨hscalar, w, hw, hb⟩ := ih hz rfl
    exact ⟨hx, v, hv, .inside ht hm hf hscalar hw hb⟩

end Place

namespace Schema

open Place

variable {s : Schema} {h : Heap} {n : String} {t : ObjectType} {f : Field} {v : Value} {a : Addr}
  {es : Entries} {A : List Addr}

theorem Compiled.checkEach_eq_spell (hs : s.Compiled) (ht : s.type? n = some t) {m : Overrides}
    (hw : m.Legible) (hm : h.mapping? v = some (a, es)) :
    s.checkEach h m t v = .ok (Finding.spellAll m "" (findings s h (row t es [a]))) := by
  have hrow := proper_row hs ht es [a]
  rw [hs.checkEach_eq ht hw hm, failures_eq hs.toClosed hrow.resolved isPath_nil]
  rfl

/-- The check of a field that holds an object of its type, if the object is not met again. -/
theorem Compiled.checkValue_eq_spell (hs : s.Compiled) (ht : s.type? n = some t)
    (hf : f.scalar = none) (hn : f.typeRef = n) (m : Overrides)
    (hm : h.mapping? v = some (a, es)) (ha : a ∉ A) (p : String) :
    s.checkValue h m A f (some v) p =
      .ok (if (findings s h (row t es (a :: A))).isEmpty then none
        else some (f.failure m p (.invalid n)
          (Finding.spellAll m p (findings s h (row t es (a :: A)))))) := by
  have hx : Place.Resolved s ⟨f, some v, A⟩ := fun _ => ⟨t, hn ▸ ht⟩
  have hcheck : s.checkValue h m A f (some v) p = .ok (failure? s h m ⟨f, some v, A⟩ p) :=
    check_eq_ok hs.toClosed hx p
  have hinner : inner s h ⟨f, some v, A⟩ = row t es (a :: A) :=
    inner_of_entered hf (hn ▸ ht) rfl hm ha
  have hsound : violation? h ⟨f, some v, A⟩ = none := by
    have hv : v ≠ .null := by
      rintro rfl
      contradiction
    rw [violation?_of_object rfl hv hf, hm]
    exact if_neg ha
  rw [hcheck, failure?_eq_spell hs.toClosed hx, ← hinner]
  by_cases hi : findings s h (inner s h ⟨f, some v, A⟩) = []
  · rw [finding?_of_none hsound hi, hi]
    rfl
  · rw [finding?_of_inside hsound hi, if_neg (by simpa using hi), Option.map_some, Finding.spell,
      hn]

/-- Objects that an object does not lead to make no difference to what is found in it. -/
theorem findings_of_not_leadsTo (ht : s.type? n = some t) (hf : f.scalar = none)
    (hn : f.typeRef = n) (hm : h.mapping? v = some (a, es))
    (hA : ∀ b ∈ A, ¬s.LeadsTo h n v b) :
    findings s h (row t es (a :: A)) = findings s h (row t es [a]) := by
  have ha : a ∉ A := fun ha => hA a ha (.self hm)
  have hinner : inner s h ⟨f, some v, A⟩ = row t es (a :: A) :=
    inner_of_entered hf (hn ▸ ht) rfl hm ha
  refine (findings_row t es fun q z hw b hz => ?_).symm
  obtain ⟨-, w, hw, hb⟩ := leadsTo_of_walk (hinner ▸ hw) hz
  have hbA : b ∉ A := by
    intro hbA
    cases hw
    exact hA b hbA (hn ▸ hb)
  simp [hbA]

theorem Compiled.field_name_ne_empty (hs : s.Compiled) (ht : s.type? n = some t) {g : Finding}
    (hg : g ∈ findings s h (row t es A)) : g.field.name ≠ "" := by
  obtain ⟨x, hx, hfound⟩ := List.mem_filterMap.1 hg
  rw [field_of_finding? hfound]
  exact ne_empty_of_isIdentifier ((proper_row hs ht es A).isIdentifier_name x hx)

/-- An object means the same as a value inside others and by itself. Under a field of its type, at
any path and inside any objects that it does not lead to, the check reports it for exactly the
failures of its own fields, moved to that path, and takes it if it has none. The overrides may be
any that can be written out. -/
theorem checkValue_eq_moved {source : Value} (hs : compile source = .ok s)
    (ht : s.type? n = some t) (hf : f.scalar = none) (hn : f.typeRef = n)
    (hm : h.mapping? v = some (a, es)) {p : String} (hp : p ≠ "")
    (hA : ∀ b ∈ A, ¬s.LeadsTo h n v b) {m : Overrides} (hw : m.Legible) :
    ∃ roots, s.checkEach h (m.under p) t v = .ok roots ∧
      s.checkValue h m A f (some v) p =
        .ok (if roots.isEmpty then none
          else some (f.failure m p (.invalid n) (FieldError.movedAll m p roots))) := by
  have hc := compiled_of_compile hs
  have ha : a ∉ A := fun ha => hA a ha (.self hm)
  have hmoved : FieldError.movedAll m p
      (Finding.spellAll (m.under p) "" (findings s h (row t es [a]))) =
      Finding.spellAll m p (findings s h (row t es [a])) :=
    Finding.movedAll_spellAll_root hp fun g hg => hc.field_name_ne_empty ht hg
  have hempty : (Finding.spellAll (m.under p) "" (findings s h (row t es [a]))).isEmpty =
      (findings s h (row t es [a])).isEmpty := by
    rw [Bool.eq_iff_iff, List.isEmpty_iff, List.isEmpty_iff, Finding.spellAll_eq_nil_iff]
  refine ⟨_, hc.checkEach_eq_spell ht (hw.under p) hm, ?_⟩
  rw [hc.checkValue_eq_spell ht hf hn m hm ha p, findings_of_not_leadsTo ht hf hn hm hA, hmoved,
    hempty]

/-- A crate with a lid whose size is no number. -/
def brokenLid : Heap where
  cells := #[.mapping [(.str "lid", .object 1)], .mapping [(.str "size", .str "wide")]]

/-- The lid in its crate and by itself. -/
theorem checkValue_eq_moved_lid :
    Overrides.Legible (fun _ => none) ∧
    compile (.str "input Crate { lid: Lid } type Lid { size: Int }") = .ok crateSchema ∧
    crateSchema.type? "Lid" = some lidType ∧
    brokenLid.mapping? (.object 1) = some (1, [(.str "size", .str "wide")]) ∧
    (∀ b ∈ [0], ¬crateSchema.LeadsTo brokenLid "Lid" (.object 1) b) ∧
    crateSchema.checkEach brokenLid (Overrides.under (fun _ => none) "lid") lidType (.object 1) =
      .ok [⟨.str "size", .str "size must be an integer", "Int", []⟩] ∧
    crateSchema.checkValue brokenLid (fun _ => none) [0] ⟨"lid", "Lid", none⟩
        (some (.object 1)) "lid" =
      .ok (some ⟨.str "lid", .str "lid is not a valid Lid", "Lid",
        [⟨.str "lid.size", .str "lid.size must be an integer", "Int", []⟩]⟩) := by
  have ht : crateSchema.type? "Lid" = some lidType := by cbv
  have hm : brokenLid.mapping? (.object 1) = some (1, [(.str "size", .str "wide")]) := rfl
  have hA : ∀ b ∈ [0], ¬crateSchema.LeadsTo brokenLid "Lid" (.object 1) b := by
    intro b hb hlead
    obtain rfl := List.mem_singleton.1 hb
    cases hlead with
    | self hm' => cases hm.symm.trans hm'
    | inside ht' _ hf hscalar =>
      cases ht.symm.trans ht'
      obtain rfl := List.mem_singleton.1 hf
      contradiction
  have hroots : crateSchema.checkEach brokenLid (Overrides.under (fun _ => none) "lid") lidType
      (.object 1) = .ok [⟨.str "size", .str "size must be an integer", "Int", []⟩] := by
    cbv
  obtain ⟨roots, hroots', hcheck⟩ := checkValue_eq_moved (f := ⟨"lid", "Lid", none⟩) compile_crate
    ht rfl rfl hm (by decide : "lid" ≠ "") hA Overrides.legible_none
  obtain rfl := Except.ok.inj (hroots.symm.trans hroots')
  refine ⟨Overrides.legible_none, compile_crate, ht, hm, hA, hroots, ?_⟩
  rw [hcheck]
  cbv

end Schema

end ShapeCheck
