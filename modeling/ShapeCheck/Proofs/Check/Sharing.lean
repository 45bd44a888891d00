import Mathlib.Logic.Relation
import ShapeCheck.Proofs.Check.Entrance
import ShapeCheck.Proofs.Check.Message

/-
  Objects that are met at several places. A check keeps the objects around the value that it looks
  at, and no others, so an object is reported only where it is met inside itself. Two facts make
  sharing invisible. An object that does not lead back to itself is never met inside itself, and
  neither is a copy of it in which every occurrence has an address of its own (`Straight`). And
  where nothing is met inside itself, what is found does not depend on addresses at all
  (`CopyOf.finding?_eq`).
-/

namespace ShapeCheck

/-- Whether a value is made of others. No built-in type takes such a value. -/
def Value.isCompound : Value → Bool
  | .object _ => true
  | .tuple .. => true
  | .report .. => true
  | _ => false

namespace Schema

/-- From an object of a type to what stands in a field of it that asks for an object. -/
def Enters (s : Schema) (h : Heap) (x y : String × Value) : Prop :=
  ∃ t a es, s.type? x.1 = some t ∧ h.mapping? x.2 = some (a, es) ∧
    ∃ f ∈ t.fields, f.scalar = none ∧ f.typeRef = y.1 ∧ es.field? f.name = some y.2

/-- Nothing that an object of a type leads to leads back to itself, under whatever type. -/
def Acyclic (s : Schema) (h : Heap) (n : String) (o : Value) : Prop :=
  ∀ m k v, Relation.ReflTransGen (s.Enters h) (n, o) (m, v) →
    ¬Relation.TransGen (s.Enters h) (m, v) (k, v)

/-- What stands in a copy for the value of a field of a built-in type or of a declared one. The
copy of an object is an object, which may be a view, with copies in the declared fields; what else
it has does not matter. The addresses of the copies are listed, one for each occurrence. -/
inductive CopyOf (s : Schema) (h h' : Heap) :
    Option Scalar → String → Option Value → Option Value → List Addr → Prop
  | absent {k : Option Scalar} {n : String} : CopyOf s h h' k n none none []
  | plain {k : Option Scalar} {n : String} {v : Value} :
      v.isCompound = false → CopyOf s h h' k n (some v) (some v) []
  /-- made of other values, where none is to be looked into -/
  | compound {k : Option Scalar} {n : String} {v w : Value} :
      v.isCompound = true → w.isCompound = true →
      (k = none → h.mapping? v = none ∧ h'.mapping? w = none) →
      CopyOf s h h' k n (some v) (some w) []
  | object {n : String} {v w : Value} {a b : Addr} {es fs : Entries} {t : ObjectType}
      (inside : Field → List Addr) :
      s.type? n = some t → h.mapping? v = some (a, es) → h'.mapping? w = some (b, fs) →
      (∀ g ∈ t.fields, CopyOf s h h' g.scalar g.typeRef (es.field? g.name) (fs.field? g.name)
        (inside g)) →
      CopyOf s h h' none n (some v) (some w) (b :: t.fields.flatMap inside)

end Schema

open Schema

theorem Heap.mapping?_of_plain {v : Value} (hv : v.isCompound = false) (h : Heap) :
    h.mapping? v = none := by
  cases v with
  | object => contradiction
  | _ => rfl

theorem Value.ne_null_of_compound {v : Value} (hv : v.isCompound = true) : v ≠ .null := by
  rintro rfl
  contradiction

theorem Scalar.test_of_compound {v : Value} (hv : v.isCompound = true) (k : Scalar) :
    k.test v = false := by
  cases v with
  | object => cases k <;> rfl
  | tuple => cases k <;> rfl
  | report => cases k <;> rfl
  | _ => contradiction

namespace Place

variable {s : Schema} {h h' : Heap} {x y z : Place} {row : List Place} {p q : List String}

/-! ## Rows where nothing is met inside itself -/

/-- No place that can be walked to holds an object that is around it. -/
def Straight (s : Schema) (h : Heap) (row : List Place) : Prop :=
  ∀ q z, Walk s h row q z → z.violation? h ≠ some .circular

/-- The same of a place and of what is inside it. -/
structure Clear (s : Schema) (h : Heap) (x : Place) : Prop where
  here : x.violation? h ≠ some .circular
  inside : Straight s h (x.inner s h)

theorem straight_iff : Straight s h row ↔ ∀ x ∈ row, Clear s h x := by
  constructor
  · intro hrow x hx
    exact ⟨hrow _ x (.here hx), fun _ z hw => hrow _ z (.inside hx hw)⟩
  · intro hall q z hw
    cases hw with
    | here hx => exact (hall _ hx).here
    | inside hx hw => exact (hall _ hx).inside _ z hw

theorem exists_holds_of_circular (hc : x.violation? h = some .circular) :
    ∃ a, x.Holds h a ∧ a ∈ x.seen := by
  unfold violation? at hc
  split at hc
  · cases hc
  · cases hc
  · rename_i v hn hv
    split at hc
    · split at hc <;> cases hc
    · rename_i hf
      split at hc
      · cases hc
      · rename_i a es hm
        split at hc
        · rename_i ha
          exact ⟨a, ⟨hf, v, es, hv, hm⟩, ha⟩
        · cases hc

theorem inner_of_not_holds (hx : ∀ a, ¬x.Holds h a) : x.inner s h = [] := by
  refine List.eq_nil_iff_forall_not_mem.2 fun y hy => ?_
  obtain ⟨t, v, a, es, hf, -, hv, hm, -⟩ := entered_of_mem_inner hy
  exact hx a ⟨hf, v, es, hv, hm⟩

theorem not_holds_of_none {f : Field} {A : List Addr} (a : Addr) :
    ¬Place.Holds h ⟨f, none, A⟩ a := by
  rintro ⟨-, v, es, hv, -⟩
  contradiction

theorem not_holds_of_mapping? {f : Field} {v : Value} {A : List Addr}
    (hm : f.scalar = none → h.mapping? v = none) (a : Addr) : ¬Place.Holds h ⟨f, some v, A⟩ a := by
  rintro ⟨hscalar, u, es, hu, hm'⟩
  cases hu
  rw [hm hscalar] at hm'
  contradiction

/-- A place without an object is no place to meet one. -/
theorem clear_of_not_holds (hx : ∀ a, ¬x.Holds h a) : Clear s h x := by
  refine ⟨fun hc => ?_, fun q z hw => ?_⟩
  · obtain ⟨a, ha, -⟩ := exists_holds_of_circular hc
    exact hx a ha
  · rw [inner_of_not_holds hx] at hw
    exact absurd rfl hw.row_ne_nil

theorem Clear.not_mem {a : Addr} (hx : Clear s h x) (ha : x.Holds h a) : a ∉ x.seen := by
  intro hseen
  have hc := hx.here
  rw [violation?_of_holds ha, if_pos hseen] at hc
  exact hc rfl

theorem not_complains_of_straight (hrow : Straight s h row) (hw : Walk s h row q z) :
    ¬z.Complains s h .circular := by
  intro hc
  cases hc with
  | circular hv hf hm ha =>
    have hviolation := hrow _ z hw
    rw [violation?_of_holds ⟨hf, _, _, hv, hm⟩, if_pos ha] at hviolation
    exact hviolation rfl

/-- What an acyclic object leads to is not met inside itself: the objects around a place are on the
way to it. -/
theorem straight_of_acyclic {n₀ n : String} {o v : Value} {t : ObjectType} {a : Addr}
    {es : Entries} {A : List Addr} (hacyclic : s.Acyclic h n₀ o) (ht : s.type? n = some t)
    (hm : h.mapping? v = some (a, es))
    (hreach : Relation.ReflTransGen (s.Enters h) (n₀, o) (n, v))
    (haround : ∀ b ∈ A, ∃ m, Relation.ReflTransGen (s.Enters h) (n₀, o) (m, .object b) ∧
      Relation.ReflTransGen (s.Enters h) (m, .object b) (n, v)) :
    Straight s h (Place.row t es A) := by
  intro q z hw
  generalize hrow : Place.row t es A = row at hw
  induction hw generalizing n v t a es A with
  | here hx =>
    subst hrow
    obtain ⟨f, hf, rfl⟩ := mem_row.1 hx
    intro hc
    obtain ⟨b, ⟨hscalar, w, fs, hvalue, hb⟩, hseen⟩ := exists_holds_of_circular hc
    obtain rfl := Heap.eq_object_of_mapping? hb
    obtain ⟨m, hfrom, hto⟩ := haround b hseen
    have hstep : s.Enters h (n, v) (f.typeRef, .object b) :=
      ⟨t, a, es, ht, hm, f, hf, hscalar, rfl, hvalue⟩
    exact hacyclic m f.typeRef _ hfrom (Relation.TransGen.tail' hto hstep)
  | @inside row x z p hx hw ih =>
    subst hrow
    obtain ⟨u, w, b, fs, hscalar, hu, hvalue, hb, -, hinner⟩ := hw.entered
    obtain ⟨f, hf, rfl⟩ := mem_row.1 hx
    have hstep : s.Enters h (n, v) (f.typeRef, w) :=
      ⟨t, a, es, ht, hm, f, hf, hscalar, rfl, hvalue⟩
    refine ih hu hb (hreach.tail hstep) (fun c hc => ?_) hinner.symm
    rcases List.mem_cons.1 hc with rfl | hc
    · obtain rfl := Heap.eq_object_of_mapping? hb
      exact ⟨f.typeRef, hreach.tail hstep, .refl⟩
    · obtain ⟨m, hfrom, hto⟩ := haround c hc
      exact ⟨m, hfrom, hto.tail hstep⟩

end Place

open Place

namespace Schema.CopyOf

variable {s : Schema} {h h' : Heap} {k : Option Scalar} {n : String} {v w : Option Value}
  {own A B : List Addr} {f : Field}

/-! ## Copies -/

/-- A copy whose occurrences have addresses of their own is nowhere met inside itself. -/
theorem clear (hcopy : s.CopyOf h h' k n v w own) (hown : own.Nodup) (hk : f.scalar = k)
    (hn : f.typeRef = n) (hB : ∀ b ∈ own, b ∉ B) : Clear s h' ⟨f, w, B⟩ := by
  induction hcopy generalizing f B with
  | absent => exact clear_of_not_holds not_holds_of_none
  | plain hv =>
    exact clear_of_not_holds (not_holds_of_mapping? fun _ => Heap.mapping?_of_plain hv h')
  | compound _ _ hnone =>
    exact clear_of_not_holds (not_holds_of_mapping? fun hscalar => (hnone (hk ▸ hscalar)).2)
  | @object n v w a b es fs t inside ht hm hm' _ ih =>
    have hb : b ∉ B := hB b (List.mem_cons_self ..)
    have hholds : Place.Holds h' ⟨f, some w, B⟩ b := ⟨hk, w, fs, rfl, hm'⟩
    have htype : s.type? f.typeRef = some t := hn ▸ ht
    obtain ⟨hfresh, hnodup⟩ := List.nodup_cons.1 hown
    refine ⟨?_, ?_⟩
    · rw [violation?_of_holds hholds]
      simp [hb]
    · rw [inner_of_entered hk htype rfl hm' hb, straight_iff]
      intro x hx
      obtain ⟨g, hg, rfl⟩ := mem_row.1 hx
      refine ih g hg ((List.nodup_flatMap.1 hnodup).1 g hg) rfl rfl fun c hc hcB => ?_
      have hmem : c ∈ t.fields.flatMap inside := List.mem_flatMap.2 ⟨g, hg, hc⟩
      rcases List.mem_cons.1 hcB with rfl | hcB
      · exact hfresh hmem
      · exact hB c (List.mem_cons_of_mem _ hmem) hcB

/-- Values without objects are told apart by the tests of built-in types only. -/
theorem finding?_eq_of_not_mapping {v w : Value} (hnull : v = .null ↔ w = .null)
    (htest : ∀ k : Scalar, k.test v = k.test w)
    (hm : f.scalar = none → h.mapping? v = none ∧ h'.mapping? w = none) :
    Place.finding? s h ⟨f, some v, A⟩ = Place.finding? s h' ⟨f, some w, B⟩ := by
  have hinner : Place.inner s h ⟨f, some v, A⟩ = [] :=
    inner_of_not_holds (not_holds_of_mapping? fun hscalar => (hm hscalar).1)
  have hinner' : Place.inner s h' ⟨f, some w, B⟩ = [] :=
    inner_of_not_holds (not_holds_of_mapping? fun hscalar => (hm hscalar).2)
  refine finding?_congr rfl ?_ (by rw [hinner, hinner']; rfl)
  by_cases hv : v = .null
  · rw [hv, hnull.1 hv]
    rfl
  · have hw : w ≠ .null := fun hw => hv (hnull.2 hw)
    cases hf : f.scalar with
    | some k =>
      have hx := violation?_of_scalar (h := h) (x := ⟨f, some v, A⟩) rfl hv hf
      have hy := violation?_of_scalar (h := h') (x := ⟨f, some w, B⟩) rfl hw hf
      rw [hx, hy, htest k]
    | none =>
      have hx := violation?_of_object (h := h) (x := ⟨f, some v, A⟩) rfl hv hf
      have hy := violation?_of_object (h := h') (x := ⟨f, some w, B⟩) rfl hw hf
      rw [hx, hy, (hm hf).1, (hm hf).2]

/-- Where nothing is met inside itself, the same is found in the copy. -/
theorem finding?_eq (hcopy : s.CopyOf h h' k n v w own) (hk : f.scalar = k) (hn : f.typeRef = n)
    (hv : Clear s h ⟨f, v, A⟩) (hw : Clear s h' ⟨f, w, B⟩) :
    Place.finding? s h ⟨f, v, A⟩ = Place.finding? s h' ⟨f, w, B⟩ := by
  induction hcopy generalizing f A B with
  | absent =>
    have hfound : ∀ (h : Heap) A, Place.finding? s h ⟨f, none, A⟩ = some ⟨f, .required, []⟩ :=
      fun _ _ => finding?_of_violation rfl
    rw [hfound h A, hfound h' B]
  | plain hplain =>
    refine finding?_eq_of_not_mapping Iff.rfl (fun _ => rfl) fun _ => ?_
    exact ⟨Heap.mapping?_of_plain hplain h, Heap.mapping?_of_plain hplain h'⟩
  | compound hcv hcw hnone =>
    refine finding?_eq_of_not_mapping ?_ (fun k => ?_) fun hscalar => hnone (hk ▸ hscalar)
    · exact iff_of_false (Value.ne_null_of_compound hcv) (Value.ne_null_of_compound hcw)
    · rw [Scalar.test_of_compound hcv, Scalar.test_of_compound hcw]
  | @object n v w a b es fs t inside ht hm hm' _ ih =>
    have htype : s.type? f.typeRef = some t := hn ▸ ht
    have hholds : Place.Holds h ⟨f, some v, A⟩ a := ⟨hk, v, es, rfl, hm⟩
    have hholds' : Place.Holds h' ⟨f, some w, B⟩ b := ⟨hk, w, fs, rfl, hm'⟩
    have ha : a ∉ A := hv.not_mem hholds
    have hb : b ∉ B := hw.not_mem hholds'
    have hinner : Place.inner s h ⟨f, some v, A⟩ = row t es (a :: A) :=
      inner_of_entered hk htype rfl hm ha
    have hinner' : Place.inner s h' ⟨f, some w, B⟩ = row t fs (b :: B) :=
      inner_of_entered hk htype rfl hm' hb
    have hfields := hv.inside
    have hfields' := hw.inside
    rw [hinner, straight_iff] at hfields
    rw [hinner', straight_iff] at hfields'
    refine finding?_congr rfl ?_ ?_
    · rw [violation?_of_holds hholds, violation?_of_holds hholds']
      simp [ha, hb]
    · unfold findings
      rw [hinner, hinner', filterMap_row, filterMap_row]
      refine List.filterMap_congr fun g hg => ?_
      exact ih g hg rfl rfl (hfields _ (mem_row.2 ⟨g, hg, rfl⟩))
        (hfields' _ (mem_row.2 ⟨g, hg, rfl⟩))

/-- A copy of an object is an object, with copies in the fields of its type. -/
theorem object_inv {o o' : Value} {a : Addr} {es : Entries}
    (hcopy : s.CopyOf h h' none n (some o) (some o') own) (hm : h.mapping? o = some (a, es)) :
    ∃ b fs t, ∃ inside : Field → List Addr, s.type? n = some t ∧
      h'.mapping? o' = some (b, fs) ∧ own = b :: t.fields.flatMap inside ∧
      ∀ g ∈ t.fields, s.CopyOf h h' g.scalar g.typeRef (es.field? g.name) (fs.field? g.name)
        (inside g) := by
  cases hcopy with
  | plain hplain =>
    rw [Heap.mapping?_of_plain hplain] at hm
    contradiction
  | compound _ _ hnone =>
    rw [(hnone rfl).1] at hm
    contradiction
  | object _ ht hm₀ hm' hfields =>
    cases hm.symm.trans hm₀
    exact ⟨_, _, _, _, ht, hm', rfl, hfields⟩

end Schema.CopyOf

/-! ## Reports -/

/-- Only what is said of an object met inside itself reads so. -/
theorem Complaint.eq_circular_of_message {k : Complaint} {path : String}
    (hk : k.message path = Complaint.circular.message path) : k = .circular := by
  have htext := congrArg String.toList hk
  cases k with
  | circular => rfl
  | mismatch k => cases k <;> simp [message, Scalar.message, Scalar.requirement] at htext
  | required => simp [message] at htext
  | notObject t => simp [message] at htext
  | invalid t => simp [message] at htext

namespace Context

variable {c : Context} {h h' : Heap} {o o' : Value} {a b : Addr} {es fs : Entries}

/-- Validations record the same if the same is found in all fields. -/
theorem validate_eq_of_findings (hc : c.Compiled) (hw : c.overrides.Legible)
    (hm : h.mapping? o = some (a, es))
    (hm' : h'.mapping? o' = some (b, fs))
    (hfound : ∀ f ∈ c.root.fields, finding? c.schema h ⟨f, es.field? f.name, [a]⟩ =
      finding? c.schema h' ⟨f, fs.field? f.name, [b]⟩) :
    c.validate h (some o) = c.validate h' (some o') := by
  have houtcomes : c.outcomes h o c.root.fieldNames = c.outcomes h' o' c.root.fieldNames := by
    refine List.map_congr_left fun name hname => ?_
    obtain ⟨f, hf, rfl⟩ := List.mem_map.1 hname
    have hx : Place.Resolved c.schema ⟨f, es.field? f.name, [a]⟩ := hc.schema.resolved hc.root f hf
    have hy : Place.Resolved c.schema ⟨f, fs.field? f.name, [b]⟩ := hc.schema.resolved hc.root f hf
    rw [found?_field hc hm hf, found?_field hc hm' hf, failure?_eq_spell hc.schema.toClosed hx,
      failure?_eq_spell hc.schema.toClosed hy, hfound f hf]
  rw [validate_ok hc hw (Option.isSome_iff_exists.2 ⟨_, hm⟩),
    validate_ok hc hw (Option.isSome_iff_exists.2 ⟨_, hm'⟩), houtcomes]

/-- The places of an object of the root type that does not lead back to itself. -/
theorem straight_of_acyclic (hc : c.Compiled) (hm : h.mapping? o = some (a, es))
    (hacyclic : c.schema.Acyclic h c.root.name o) :
    Straight c.schema h (row c.root es [a]) := by
  refine Place.straight_of_acyclic hacyclic hc.root hm .refl fun b hb => ?_
  obtain rfl := List.mem_singleton.1 hb
  obtain rfl := Heap.eq_object_of_mapping? hm
  exact ⟨c.root.name, .refl, .refl⟩

/-- Sharing cannot be seen. Where no object that is come to leads back to itself, a validation with
legible overrides gives the same verdict and the same failures as one of a copy that has an object
of its own, mapping or view, for each occurrence of an object; neither comes to an object inside
itself, and no failure says so of its own accord. -/
theorem validate_eq_of_copy {own : List Addr} (hc : c.Compiled) (hw : c.overrides.Legible)
    (hm : (h.mapping? o).isSome) (hacyclic : c.schema.Acyclic h c.root.name o)
    (hcopy : c.schema.CopyOf h h' none c.root.name (some o) (some o') own) (hown : own.Nodup) :
    ∃ out valid, c.validate h (some o) = (out, .ok valid) ∧
      c.validate h' (some o') = (out, .ok valid) ∧
      (∀ p x, c.Reaches h o p x → ¬x.Complains c.schema h .circular) ∧
      (∀ p x, c.Reaches h' o' p x → ¬x.Complains c.schema h' .circular) ∧
      ∀ e ∈ FieldError.forest out.errors.values, ∀ path, e.name = .str path →
        c.overrides path = none → e.message ≠ .str (path ++ " contains a circular reference") := by
  obtain ⟨⟨a, es⟩, hm⟩ := Option.isSome_iff_exists.1 hm
  obtain ⟨b, fs, t, inside, ht, hm', rfl, hfields⟩ := hcopy.object_inv hm
  cases hc.root.symm.trans ht
  -- nothing is met inside itself, in the object and in the copy
  have hstraight := straight_of_acyclic hc hm hacyclic
  have hclear : Clear c.schema h' ⟨⟨"", c.root.name, none⟩, some o', []⟩ :=
    hcopy.clear hown rfl rfl fun _ _ => List.not_mem_nil
  have hstraight' : Straight c.schema h' (row c.root fs [b]) := by
    have hinside := hclear.inside
    rwa [inner_of_entered rfl ht rfl hm' List.not_mem_nil] at hinside
  have hsame := validate_eq_of_findings hc hw hm hm' fun f hf =>
    (hfields f hf).finding?_eq rfl rfl (straight_iff.1 hstraight _ (mem_row.2 ⟨f, hf, rfl⟩))
      (straight_iff.1 hstraight' _ (mem_row.2 ⟨f, hf, rfl⟩))
  have hplain : ∀ p x, c.Reaches h o p x → ¬x.Complains c.schema h .circular := fun p x hr =>
    not_complains_of_straight hstraight ((reaches_iff hm).1 hr)
  have hplain' : ∀ p x, c.Reaches h' o' p x → ¬x.Complains c.schema h' .circular := fun p x hr =>
    not_complains_of_straight hstraight' ((reaches_iff hm').1 hr)
  have hsome : (h.mapping? o).isSome := Option.isSome_iff_exists.2 ⟨_, hm⟩
  have hforest := @mem_forest_validate h c o hc hw hsome
  have hvalidate := validate_ok hc hw hsome
  rw [hvalidate] at hsame hforest
  refine ⟨_, _, hvalidate, hsame.symm, hplain, hplain', fun e he path hname hover hmessage => ?_⟩
  obtain ⟨p, x, hr, hfail⟩ := hforest.1 he
  obtain ⟨k, hk, -, htext⟩ := complains_of_failure? hc.schema.toClosed (hr.resolved hc) hfail
  rw [(hr.failure_eq hc hfail).1] at hname
  cases hname
  rw [hover] at htext
  have hcircular := Complaint.eq_circular_of_message (Value.str.inj (htext.symm.trans hmessage))
  exact hplain p x hr (hcircular ▸ hk)

end Context

/-! ## A lid on two things -/

/-- Where each step goes up, none goes back. -/
theorem Schema.acyclic_of_rank {s : Schema} {h : Heap} (rank : Value → Nat)
    (hrank : ∀ x y, s.Enters h x y → rank x.2 < rank y.2) (n : String) (o : Value) :
    s.Acyclic h n o := by
  intro m k v _ hcycle
  have hlt : ∀ x y, Relation.TransGen (s.Enters h) x y → rank x.2 < rank y.2 := by
    intro x y hxy
    induction hxy with
    | single hstep => exact hrank _ _ hstep
    | tail _ hstep ih => exact Nat.lt_trans ih (hrank _ _ hstep)
  exact Nat.lt_irrefl _ (hlt (m, v) (k, v) hcycle)

/-- A shelf with a lid and a crate, which has a lid itself. -/
def shelfType : ObjectType where
  name := "Shelf"
  kind := .input
  fields := [⟨"lid", "Lid", none⟩, ⟨"crate", "Crate", none⟩]

def shelfSchema : Schema where
  types := [("Shelf", shelfType), ("Crate", { crateType with kind := .type }), ("Lid", lidType)]
  inputs := ["Shelf"]

def shelfText : String :=
  "input Shelf { lid: Lid crate: Crate } type Crate { lid: Lid } type Lid { size: Int }"

theorem compile_shelf : compile (.str shelfText) = .ok shelfSchema := by
  have hparse : parseSchema shelfText =
      .ok [⟨.input, "Shelf", [⟨⟨"lid", "Lid"⟩, ⟨1, 15⟩⟩, ⟨⟨"crate", "Crate"⟩, ⟨1, 24⟩⟩], ⟨1, 1⟩⟩,
        ⟨.type, "Crate", [⟨⟨"lid", "Lid"⟩, ⟨1, 52⟩⟩], ⟨1, 39⟩⟩,
        ⟨.type, "Lid", [⟨⟨"size", "Int"⟩, ⟨1, 74⟩⟩], ⟨1, 63⟩⟩] := by
    decide +kernel
  exact compile_of_parseSchema hparse (by cbv)

def shelfContext : Context where
  schema := shelfSchema
  root := shelfType
  messages := []

/-- A shelf that has one lid for itself and for its crate, and a copy with two lids, of which one is
a view of the first lid. The shelf also has itself, but not in a declared field. -/
def shelves : Heap where
  cells := #[
    .mapping [(.str "lid", .object 2), (.str "crate", .object 1), (.str "self", .object 0)],
    .mapping [(.str "lid", .object 2)],
    .mapping [(.str "size", .str "wide")],
    .mapping [(.str "lid", .object 5), (.str "crate", .object 4)],
    .mapping [(.str "lid", .object 6)],
    .mapping [(.str "size", .str "wide")],
    .view 2]

/-- The address of an object, and zero for what is none. -/
def Value.rank : Value → Nat
  | .object a => a
  | _ => 0

/-- Whether an entry of an object, if it is there, is an object at a greater address. -/
def Heap.pointsUp (h : Heap) (a : Addr) (name : String) : Bool :=
  match (h.mapping? (.object a)).bind fun m => m.2.field? name with
  | none => true
  | some (.object b) => a < b
  | some _ => false

theorem name_of_shelf_reference {n : String} {t : ObjectType} {f : Field}
    (ht : shelfSchema.type? n = some t) (hf : f ∈ t.fields) (hscalar : f.scalar = none) :
    f.name = "lid" ∨ f.name = "crate" := by
  have hmem : (n, t) ∈ shelfSchema.types := Assoc.mem_of_get? ht
  simp only [shelfSchema, List.mem_cons, List.not_mem_nil, or_false, Prod.mk.injEq] at hmem
  rcases hmem with ⟨-, rfl⟩ | ⟨-, rfl⟩ | ⟨-, rfl⟩
  · simp only [shelfType, List.mem_cons, List.not_mem_nil, or_false] at hf
    exact hf.imp (congrArg Field.name) (congrArg Field.name)
  · cases List.mem_singleton.1 hf
    exact .inl rfl
  · cases List.mem_singleton.1 hf
    contradiction

theorem acyclic_shelves : shelfSchema.Acyclic shelves "Shelf" (.object 0) := by
  refine acyclic_of_rank Value.rank ?_ _ _
  rintro ⟨n, v⟩ ⟨k, w⟩ ⟨t, a, es, ht, hm, f, hf, hscalar, -, hw⟩
  obtain rfl := Heap.eq_object_of_mapping? hm
  have hall : ∀ a < 7, shelves.pointsUp a "lid" = true ∧ shelves.pointsUp a "crate" = true := by
    decide
  have hboth := hall a (Heap.lt_size_of_mapping? hm)
  have hup : shelves.pointsUp a f.name = true := by
    rcases name_of_shelf_reference ht hf hscalar with he | he
    · rw [he]
      exact hboth.1
    · rw [he]
      exact hboth.2
  unfold Heap.pointsUp at hup
  rw [hm, Option.bind_some, hw] at hup
  cases w with
  | object b => exact of_decide_eq_true hup
  | _ => contradiction

theorem copyOf_shelves : shelfSchema.CopyOf shelves shelves none "Shelf" (some (.object 0))
    (some (.object 3)) [3, 5, 4, 6] := by
  have hlid : ∀ b, shelves.mapping? (.object b) = some (b, [(.str "size", .str "wide")]) →
      shelfSchema.CopyOf shelves shelves none "Lid" (some (.object 2)) (some (.object b)) [b] := by
    intro b hb
    have ht : shelfSchema.type? "Lid" = some lidType := by cbv
    refine .object (fun _ => []) ht rfl hb fun g hg => ?_
    obtain rfl := List.mem_singleton.1 hg
    exact .plain rfl
  have hcrate : shelfSchema.CopyOf shelves shelves none "Crate" (some (.object 1))
      (some (.object 4)) [4, 6] := by
    have ht : shelfSchema.type? "Crate" = some { crateType with kind := .type } := by cbv
    refine .object (fun _ => [6]) ht rfl rfl fun g hg => ?_
    obtain rfl := List.mem_singleton.1 hg
    exact hlid 6 rfl
  have ht : shelfSchema.type? "Shelf" = some shelfType := by cbv
  refine .object (fun g => if g.name = "lid" then [5] else [4, 6]) ht rfl rfl fun g hg => ?_
  simp only [shelfType, List.mem_cons, List.not_mem_nil, or_false] at hg
  rcases hg with rfl | rfl
  · exact hlid 5 rfl
  · exact hcrate

/-- What is wrong with the lid is reported for the shelf and for the crate. -/
def shelfOutcome : Outcome where
  errors := [
    ("lid", ⟨.str "lid", .str "lid is not a valid Lid", "Lid",
      [⟨.str "lid.size", .str "lid.size must be an integer", "Int", []⟩]⟩),
    ("crate", ⟨.str "crate", .str "crate is not a valid Crate", "Crate",
      [⟨.str "crate.lid", .str "crate.lid is not a valid Lid", "Lid",
        [⟨.str "crate.lid.size", .str "crate.lid.size must be an integer", "Int", []⟩]⟩]⟩)]
  validated := true

theorem Context.validate_eq_of_copy_shelves :
    shelfContext.Compiled ∧ shelfContext.overrides.Legible ∧
    (shelves.mapping? (.object 0)).isSome ∧
    shelfSchema.Acyclic shelves "Shelf" (.object 0) ∧
    shelfSchema.CopyOf shelves shelves none "Shelf" (some (.object 0)) (some (.object 3))
      [3, 5, 4, 6] ∧
    shelfContext.validate shelves (some (.object 0)) = (shelfOutcome, .ok false) ∧
    shelfContext.validate shelves (some (.object 3)) = (shelfOutcome, .ok false) ∧
    (∀ p x, shelfContext.Reaches shelves (.object 0) p x →
      ¬x.Complains shelfSchema shelves .circular) ∧
    ∀ p x, shelfContext.Reaches shelves (.object 3) p x →
      ¬x.Complains shelfSchema shelves .circular := by
  have hc : shelfContext.Compiled :=
    compiled_of_type? compile_shelf (by cbv : shelfSchema.type? "Shelf" = some shelfType)
  have hm : (shelves.mapping? (.object 0)).isSome := by rfl
  obtain ⟨out, valid, hfirst, hsecond, hplain, hplain', -⟩ :=
    validate_eq_of_copy hc Overrides.legible_nil hm acyclic_shelves copyOf_shelves (by decide)
  have hvalidate :
      shelfContext.validate shelves (some (.object 0)) = (shelfOutcome, .ok false) := by
    cbv
  rw [← hfirst, hvalidate] at hsecond
  exact ⟨hc, Overrides.legible_nil, hm, acyclic_shelves, copyOf_shelves, hvalidate, hsecond, hplain,
    hplain'⟩

end ShapeCheck
