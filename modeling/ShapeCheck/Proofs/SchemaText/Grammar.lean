import ShapeCheck.Proofs.SchemaText.Spacing
import ShapeCheck.Schema.Parser

/-
  The grammar of schema text, and what the parser makes of it. `Rows` are the rows of lexemes that
  write declarations; `IsLayout` spaces such a row in a text. The parser accepts exactly the layouts
  of well-formed declarations and gives these declarations back (`parseSchema_of_layout`,
  `layout_of_parseSchema`).
-/

namespace ShapeCheck

open ShapeCheck.Text

/-- The rows that write a field. -/
inductive FieldRow (f : FieldDeclaration) : List Lexeme → Prop
  | bare : FieldRow f [.word f.name false, .colon, .word f.typeRef false]
  | comma : FieldRow f [.word f.name false, .colon, .word f.typeRef false, .comma]

/-- The rows that write fields one after the other. -/
inductive FieldRows : List FieldDeclaration → List Lexeme → Prop
  | nil : FieldRows [] []
  | cons {f : FieldDeclaration} {fs : List FieldDeclaration} {l ls : List Lexeme} :
      FieldRow f l → FieldRows fs ls → FieldRows (f :: fs) (l ++ ls)

/-- The rows that write declarations one after the other. -/
inductive Rows : List Declaration → List Lexeme → Prop
  | nil : Rows [] []
  | cons {d : Declaration} {ds : List Declaration} {body ls : List Lexeme} :
      FieldRows d.fields body → Rows ds ls →
      Rows (d :: ds) (.word d.kind.word false :: .word d.name false :: .openBrace ::
        (body ++ .closeBrace :: ls))

/-- The texts that lay declarations out. -/
def IsLayout (ds : List Declaration) (text : String) : Prop :=
  ∃ ls, Rows ds ls ∧ Spaced false ls text.toList

/-- Declarations that a schema text can hold. -/
structure WellFormed (ds : List Declaration) : Prop where
  nonempty : ds ≠ []
  names : (ds.map Declaration.name).Nodup
  fieldNames : ∀ d ∈ ds, (d.fields.map FieldDeclaration.name).Nodup
  identifiers : ∀ d ∈ ds, isIdentifier d.name = true ∧
    ∀ f ∈ d.fields, isIdentifier f.name = true ∧ isIdentifier f.typeRef = true

/-! ## Rows of plain lexemes -/

/-- A lexeme without the mark of a dollar sign after it. -/
def Lexeme.untied : Lexeme → Lexeme
  | word name _ => word name false
  | l => l

theorem Lexeme.untied_of_isPlain {l : Lexeme} (h : l.isPlain = true) : l.untied = l := by
  cases l with
  | word name tied =>
    rw [isPlain, Bool.and_eq_true, Bool.not_eq_true'] at h
    rw [untied, h.1]
  | _ => rfl

theorem FieldRow.mem {f : FieldDeclaration} {ls : List Lexeme} (h : FieldRow f ls) {l : Lexeme}
    (hl : l ∈ ls) : l = .word f.name false ∨ l = .word f.typeRef false ∨
      l = .colon ∨ l = .comma := by
  cases h <;> simp only [List.mem_cons, List.not_mem_nil, or_false] at hl <;> grind

theorem FieldRows.mem {fs : List FieldDeclaration} {ls : List Lexeme} (h : FieldRows fs ls)
    {l : Lexeme} (hl : l ∈ ls) :
    (∃ f ∈ fs, l = .word f.name false ∨ l = .word f.typeRef false) ∨ l = .colon ∨ l = .comma := by
  induction h with
  | nil => contradiction
  | @cons f fs row ls hf _ ih =>
    rcases List.mem_append.1 hl with hl | hl
    · rcases hf.mem hl with h | h | h
      · exact .inl ⟨f, List.mem_cons_self .., .inl h⟩
      · exact .inl ⟨f, List.mem_cons_self .., .inr h⟩
      · exact .inr h
    · rcases ih hl with ⟨g, hg, h⟩ | h
      · exact .inl ⟨g, List.mem_cons_of_mem _ hg, h⟩
      · exact .inr h

theorem isIdentifier_word (k : DeclarationKind) : isIdentifier k.word = true := by
  cases k <;> decide

/-- Declarations of identifiers are written by plain lexemes. -/
theorem Rows.isPlain {ds : List Declaration} {ls : List Lexeme} (h : Rows ds ls)
    (hds : ∀ d ∈ ds, isIdentifier d.name = true ∧
      ∀ f ∈ d.fields, isIdentifier f.name = true ∧ isIdentifier f.typeRef = true) :
    ∀ l ∈ ls, l.isPlain = true := by
  induction h with
  | nil => exact List.forall_mem_nil _
  | @cons d ds body ls hb _ ih =>
    obtain ⟨hd, hds⟩ := List.forall_mem_cons.1 hds
    intro l hl
    simp only [List.mem_cons, List.mem_append] at hl
    rcases hl with rfl | rfl | rfl | hl | rfl | hl
    · simp [Lexeme.isPlain, isIdentifier_word]
    · simp [Lexeme.isPlain, hd.1]
    · rfl
    · rcases hb.mem hl with ⟨f, hf, rfl | rfl⟩ | rfl | rfl
      · simp [Lexeme.isPlain, (hd.2 f hf).1]
      · simp [Lexeme.isPlain, (hd.2 f hf).2]
      · rfl
      · rfl
    · rfl
    · exact ih hds l hl

/-- Whatever words they hold, rows are free of lexemes that no schema uses. -/
theorem Rows.other_not_mem {ds : List Declaration} {ls : List Lexeme} (h : Rows ds ls) (c : Char) :
    Lexeme.other c ∉ ls := by
  induction h with
  | nil => exact List.not_mem_nil
  | @cons d ds body ls hb _ ih =>
    intro hl
    simp only [List.mem_cons, List.mem_append, reduceCtorEq, false_or] at hl
    rcases hl with hl | hl
    · rcases hb.mem hl with ⟨f, -, h | h⟩ | h | h <;> contradiction
    · exact ih hl

/-- The words of a row are the names of its declarations. -/
theorem Rows.identifiers {ds : List Declaration} {ls : List Lexeme} (h : Rows ds ls)
    (hls : ∀ l ∈ ls, l.isPlain = true) :
    ∀ d ∈ ds, isIdentifier d.name = true ∧
      ∀ f ∈ d.fields, isIdentifier f.name = true ∧ isIdentifier f.typeRef = true := by
  have hword (name : String) (h : (Lexeme.word name false).isPlain = true) :
      isIdentifier name = true := by simpa [Lexeme.isPlain] using h
  induction h with
  | nil => exact List.forall_mem_nil _
  | @cons d ds body ls hb _ ih =>
    simp only [List.forall_mem_cons, List.forall_mem_append] at hls ⊢
    obtain ⟨-, hname, -, hbody, -, hrest⟩ := hls
    refine ⟨⟨hword _ hname, ?_⟩, ih hrest⟩
    clear ih
    generalize d.fields = fs at hb
    induction hb with
    | nil => exact List.forall_mem_nil _
    | @cons f fs row ls hf _ ih =>
      rw [List.forall_mem_append] at hbody
      rw [List.forall_mem_cons]
      refine ⟨?_, ih hbody.2⟩
      have hrow := hbody.1
      cases hf <;> simp only [List.forall_mem_cons] at hrow <;>
        exact ⟨hword _ hrow.1, hword _ hrow.2.2.1⟩

/-! ## What the parser accepts -/

namespace SchemaText

def RawField.plain (f : RawField) : FieldDeclaration := ⟨f.name, f.typeRef⟩

def RawDeclaration.plain (d : RawDeclaration) : Declaration :=
  ⟨d.kind, d.name, d.fields.map RawField.plain⟩

theorem RawDeclaration.plain_locate (text : List Char) (d : RawDeclaration) :
    (d.locate text).plain = d.plain := by
  rw [locate, SourceDeclaration.plain, plain, List.map_map]
  rfl

/-- The lexemes of tokens, none of them tied. -/
def row (ts : List Token) : List Lexeme := ts.map fun t => t.lexeme.untied

theorem row_cons (t : Token) (ts : List Token) : row (t :: ts) = t.lexeme.untied :: row ts := rfl

theorem skipComma_cases (ts : List Token) :
    (∃ start rest, ts = ⟨.comma, start⟩ :: rest ∧ skipComma ts = rest) ∨ skipComma ts = ts := by
  unfold skipComma
  split
  · exact .inl ⟨_, _, rfl, rfl⟩
  · exact .inr rfl

theorem fieldRows_of_fields {ts rest : List Token} {fs : List RawField}
    (h : fields ts = .ok (fs, rest)) :
    ∃ body, FieldRows (fs.map RawField.plain) body ∧
      row ts = body ++ .closeBrace :: row rest := by
  fun_induction fields ts generalizing fs rest with
  | case1 start ts =>
    cases h
    exact ⟨[], .nil, rfl⟩
  | case2 name _ start _ typeRef _ _ ts _ fs' ts' hf ih =>
    cases h
    obtain ⟨body, hbody, hrow⟩ := ih hf
    rcases skipComma_cases ts with ⟨_, ts'', rfl, hs⟩ | hs
    · rw [hs] at hrow
      exact ⟨_, .cons .comma hbody, congrArg (_ :: _ :: _ :: _ :: ·) hrow⟩
    · rw [hs] at hrow
      exact ⟨_, .cons .bare hbody, congrArg (_ :: _ :: _ :: ·) hrow⟩
  | case3 => contradiction
  | case4 => contradiction
  | case5 => contradiction

theorem kind_of_blockKind? {l : Lexeme} {k : DeclarationKind} (h : blockKind? l = some k) :
    l = .word k.word false := by
  cases l with
  | word name tied =>
    simp only [blockKind?] at h
    split at h
    · contradiction
    · rename_i ht
      rw [Bool.not_eq_true] at ht
      split at h
      · rename_i hn; cases h; rw [ht, hn]
      · split at h
        · rename_i hn; cases h; rw [ht, hn]
        · contradiction
  | _ => contradiction

theorem identifier_ok {ts rest : List Token} {name : String}
    (h : identifier ts = .ok (name, rest)) :
    ∃ tied start, ts = ⟨.word name tied, start⟩ :: rest := by
  unfold identifier at h
  split at h
  · cases h
    exact ⟨_, _, rfl⟩
  · contradiction

/-- The tokens that the parser takes for the rest of a declaration. -/
theorem block_ok {kind : DeclarationKind} {start : Nat} {ts rest : List Token}
    {d : RawDeclaration} (h : block kind start ts = .ok (d, rest)) :
    d.kind = kind ∧ d.start = start ∧ ∃ tied i j body,
      ts = ⟨.word d.name tied, i⟩ :: ⟨.openBrace, j⟩ :: body ∧
      fields body = .ok (d.fields, rest) := by
  unfold block at h
  split at h
  · contradiction
  · rename_i name j body hi
    obtain ⟨tied, i, rfl⟩ := identifier_ok hi
    split at h
    · contradiction
    · rename_i fs rest' hf
      cases h
      exact ⟨rfl, rfl, tied, i, j, body, rfl, hf⟩
  · contradiction

theorem row_of_block {kind : DeclarationKind} {start : Nat} {ts rest : List Token}
    {d : RawDeclaration} (h : block kind start ts = .ok (d, rest)) :
    d.kind = kind ∧ ∃ body, FieldRows d.plain.fields body ∧
      row ts = .word d.name false :: .openBrace :: (body ++ .closeBrace :: row rest) := by
  obtain ⟨hkind, -, tied, i, j, tokens, rfl, hf⟩ := block_ok h
  obtain ⟨body, hbody, hrow⟩ := fieldRows_of_fields hf
  exact ⟨hkind, body, hbody, congrArg (_ :: _ :: ·) hrow⟩

/-- What the parser takes for declarations is a row that writes them. -/
theorem rows_of_blocks {ts : List Token} {ds : List RawDeclaration} (h : blocks ts = .ok ds) :
    Rows (ds.map RawDeclaration.plain) (row ts) := by
  fun_induction blocks ts generalizing ds with
  | case1 => cases h; exact .nil
  | case2 => contradiction
  | case3 => contradiction
  | case4 t ts kind hk d rest hb _ ih =>
    cases hr : blocks rest with
    | error e => rw [hr] at h; contradiction
    | ok ds' =>
      rw [hr] at h
      cases h
      obtain ⟨hkind, body, hbody, hrow⟩ := row_of_block hb
      have hhead : t.lexeme.untied = .word d.plain.kind.word false := by
        rw [kind_of_blockKind? hk]
        exact congrArg (fun k : DeclarationKind => Lexeme.word k.word false) hkind.symm
      rw [List.map_cons, row_cons, hhead, hrow]
      exact .cons hbody (ih hr)

/-! ## What the grammar writes -/

theorem skipComma_of_head? {ts : List Token} (h : (ts.map Token.lexeme).head? ≠ some .comma) :
    skipComma ts = ts := by
  rcases skipComma_cases ts with ⟨_, _, rfl, -⟩ | hs
  · exact absurd rfl h
  · exact hs

theorem head?_fieldRows {fs : List FieldDeclaration} {body : List Lexeme} (h : FieldRows fs body)
    (ls : List Lexeme) : (body ++ .closeBrace :: ls).head? ≠ some .comma := by
  cases h with
  | nil => simp
  | cons hf _ => cases hf <;> simp

theorem tokens_of_map_eq_cons {ts : List Token} {l : Lexeme} {ls : List Lexeme}
    (h : ts.map Token.lexeme = l :: ls) :
    ∃ start rest, ts = ⟨l, start⟩ :: rest ∧ rest.map Token.lexeme = ls := by
  obtain ⟨⟨_, start⟩, rest, rfl, rfl, hrest⟩ := List.map_eq_cons_iff.1 h
  exact ⟨start, rest, rfl, hrest⟩

theorem fields_of_fieldRows {fs : List FieldDeclaration} {body : List Lexeme}
    (h : FieldRows fs body) {ts : List Token} {ls : List Lexeme}
    (hts : ts.map Token.lexeme = body ++ .closeBrace :: ls) :
    ∃ raws rest, fields ts = .ok (raws, rest) ∧ raws.map RawField.plain = fs ∧
      rest.map Token.lexeme = ls := by
  induction h generalizing ts with
  | nil =>
    obtain ⟨_, rest, rfl, hrest⟩ := tokens_of_map_eq_cons hts
    refine ⟨[], rest, ?_, rfl, hrest⟩
    rw [fields]
  | @cons f fs row body hf hfs ih =>
    cases hf with
    | bare =>
      obtain ⟨start, _, rfl, h₁⟩ := tokens_of_map_eq_cons hts
      obtain ⟨_, _, rfl, h₂⟩ := tokens_of_map_eq_cons h₁
      obtain ⟨_, ts, rfl, h₃⟩ := tokens_of_map_eq_cons h₂
      have hbody : ts.map Token.lexeme = body ++ .closeBrace :: ls := h₃
      obtain ⟨raws, rest, hr, hraws, hrest⟩ := ih hbody
      have hskip : skipComma ts = ts :=
        skipComma_of_head? (by rw [hbody]; exact head?_fieldRows hfs ls)
      refine ⟨⟨f.name, f.typeRef, start⟩ :: raws, rest, ?_, congrArg (f :: ·) hraws, hrest⟩
      rw [fields, hskip, hr]
    | comma =>
      obtain ⟨start, _, rfl, h₁⟩ := tokens_of_map_eq_cons hts
      obtain ⟨_, _, rfl, h₂⟩ := tokens_of_map_eq_cons h₁
      obtain ⟨_, _, rfl, h₃⟩ := tokens_of_map_eq_cons h₂
      obtain ⟨_, ts, rfl, h₄⟩ := tokens_of_map_eq_cons h₃
      obtain ⟨raws, rest, hr, hraws, hrest⟩ := ih h₄
      refine ⟨⟨f.name, f.typeRef, start⟩ :: raws, rest, ?_, congrArg (f :: ·) hraws, hrest⟩
      rw [fields, skipComma, hr]

theorem block_of_fieldRows {d : Declaration} {body : List Lexeme} (h : FieldRows d.fields body)
    (start : Nat) {ts : List Token} {ls : List Lexeme}
    (hts : ts.map Token.lexeme =
      .word d.name false :: .openBrace :: (body ++ .closeBrace :: ls)) :
    ∃ raw rest, block d.kind start ts = .ok (raw, rest) ∧ raw.plain = d ∧
      rest.map Token.lexeme = ls := by
  obtain ⟨_, _, rfl, h₁⟩ := tokens_of_map_eq_cons hts
  obtain ⟨_, _, rfl, h₂⟩ := tokens_of_map_eq_cons h₁
  obtain ⟨fs, rest, hf, hfs, hrest⟩ := fields_of_fieldRows h h₂
  refine ⟨⟨d.kind, d.name, fs, start⟩, rest, ?_, ?_, hrest⟩
  · rw [block, identifier]
    dsimp only
    rw [hf]
  · rw [RawDeclaration.plain, hfs]

theorem blockKind?_word (k : DeclarationKind) : blockKind? (.word k.word false) = some k := by
  cases k <;> rfl

theorem blocks_cons {t : Token} {kind : DeclarationKind} (hk : blockKind? t.lexeme = some kind)
    {ts rest : List Token} {d : RawDeclaration} (hb : block kind t.start ts = .ok (d, rest)) :
    blocks (t :: ts) = (blocks rest).map (d :: ·) := by
  rw [blocks]
  split
  · rename_i h; rw [hk] at h; contradiction
  · rename_i k h
    cases Option.some.inj (hk.symm.trans h)
    split
    · rename_i h; rw [hb] at h; contradiction
    · rename_i h; rw [hb] at h; cases h; rfl

/-- The parser takes a row for the declarations that it writes. -/
theorem blocks_of_rows {ds : List Declaration} {ls : List Lexeme} (h : Rows ds ls)
    {ts : List Token} (hts : ts.map Token.lexeme = ls) :
    ∃ raws, blocks ts = .ok raws ∧ raws.map RawDeclaration.plain = ds := by
  induction h generalizing ts with
  | nil =>
    rw [List.map_eq_nil_iff.1 hts, blocks]
    exact ⟨[], rfl, rfl⟩
  | @cons d ds body ls hb _ ih =>
    obtain ⟨start, ts, rfl, h₁⟩ := tokens_of_map_eq_cons hts
    obtain ⟨raw, rest, hraw, hplain, hrest⟩ := block_of_fieldRows hb start h₁
    obtain ⟨raws, hr, hraws⟩ := ih hrest
    refine ⟨raw :: raws, ?_, ?_⟩
    · rw [blocks_cons (blockKind?_word d.kind) hraw, hr]
      rfl
    · rw [List.map_cons, hplain, hraws]

/-! ## Names used twice -/

theorem checkFields_ok_iff (d : SourceDeclaration) (seen : List String) (fs : List SourceField) :
    checkFields d seen fs = .ok () ↔
      (fs.map fun f => f.name).Nodup ∧ ∀ f ∈ fs, f.name ∉ seen := by
  induction fs generalizing seen with
  | nil => simp [checkFields]
  | cons f fs ih =>
    rw [checkFields, List.map_cons, List.nodup_cons, List.forall_mem_cons]
    by_cases hf : f.name ∈ seen
    · rw [if_pos hf]
      exact iff_of_false (by simp) fun h => h.2.1 hf
    · rw [if_neg hf, ih]
      simp only [List.mem_cons, List.mem_map, not_or]
      constructor
      · rintro ⟨hnd, hseen⟩
        refine ⟨⟨?_, hnd⟩, hf, fun g hg => (hseen g hg).2⟩
        rintro ⟨g, hg, he⟩
        exact (hseen g hg).1 he
      · rintro ⟨⟨hnot, hnd⟩, -, hseen⟩
        exact ⟨hnd, fun g hg => ⟨fun he => hnot ⟨g, hg, he⟩, hseen g hg⟩⟩

/-- The checks after parsing let declarations with distinct names pass. -/
theorem checkNames_ok_iff (seen ds : List SourceDeclaration) :
    checkNames seen ds = .ok () ↔
      (ds.map SourceDeclaration.name).Nodup ∧
      (∀ d ∈ ds, ∀ first ∈ seen, first.name ≠ d.name) ∧
      ∀ d ∈ ds, (d.fields.map fun f => f.name).Nodup := by
  induction ds generalizing seen with
  | nil => simp [checkNames]
  | cons d ds ih =>
    rw [checkNames]
    cases hs : seen.find? (·.name = d.name) with
    | some first =>
      have hname : first.name = d.name := by simpa using List.find?_some hs
      refine iff_of_false (by simp) fun h => ?_
      exact h.2.1 d (List.mem_cons_self ..) first (List.mem_of_find?_eq_some hs) hname
    | none =>
      have hseen : ∀ first ∈ seen, first.name ≠ d.name := by simpa using hs
      have hd := checkFields_ok_iff d [] d.fields
      rw [List.map_cons, List.nodup_cons, List.forall_mem_cons, List.forall_mem_cons]
      cases hf : checkFields d [] d.fields with
      | error e =>
        rw [hf] at hd
        constructor
        · intro hn
          cases hn
        · intro h
          have hok := hd.2 ⟨h.2.2.1, fun _ _ => List.not_mem_nil⟩
          contradiction
      | ok _ =>
        rw [hf] at hd
        refine (ih (seen ++ [d])).trans ?_
        simp only [List.mem_append, List.mem_singleton, List.mem_map]
        constructor
        · rintro ⟨hnd, hnew, hfields⟩
          refine ⟨⟨?_, hnd⟩, ⟨hseen, fun e he first hfirst => hnew e he first (.inl hfirst)⟩,
            (hd.1 rfl).1, hfields⟩
          rintro ⟨e, he, hn⟩
          exact hnew e he d (.inr rfl) hn.symm
        · rintro ⟨⟨hnot, hnd⟩, ⟨-, hnew⟩, -, hfields⟩
          refine ⟨hnd, ?_, hfields⟩
          rintro e he first (hfirst | rfl)
          · exact hnew e he first hfirst
          · exact fun hn => hnot ⟨e, he, hn.symm⟩

/-! ## Schema texts -/

theorem parseSchema_ok {source : String} {found : List SourceDeclaration}
    (h : parseSchema source = .ok found) :
    ∃ raws, blocks (Token.scan 0 (expandTabs 0 source.toList)) = .ok raws ∧ raws ≠ [] ∧
      found = raws.map (·.locate (expandTabs 0 source.toList)) ∧ checkNames [] found = .ok () := by
  unfold parseSchema at h
  dsimp only at h
  split at h
  · contradiction
  · contradiction
  · rename_i raws hne hr
    cases hc : checkNames [] (raws.map (·.locate (expandTabs 0 source.toList))) with
    | error e => rw [hc] at h; contradiction
    | ok _ =>
      rw [hc] at h
      cases h
      exact ⟨raws, hr, fun he => hne he, rfl, hc⟩

theorem parseSchema_of_blocks {source : String} {raws : List RawDeclaration}
    (hr : blocks (Token.scan 0 (expandTabs 0 source.toList)) = .ok raws) (hne : raws ≠ [])
    (hc : checkNames [] (raws.map (·.locate (expandTabs 0 source.toList))) = .ok ()) :
    parseSchema source = .ok (raws.map (·.locate (expandTabs 0 source.toList))) := by
  rw [parseSchema]
  dsimp only
  rw [hr]
  cases raws with
  | nil => exact absurd rfl hne
  | cons raw raws =>
    dsimp only
    rw [hc]
    rfl

theorem map_plain_locate (text : List Char) (raws : List RawDeclaration) :
    (raws.map (·.locate text)).map SourceDeclaration.plain = raws.map RawDeclaration.plain := by
  rw [List.map_map]
  exact List.map_congr_left fun d _ => d.plain_locate text

/-- Looking for names used twice is looking at the declarations without their places. -/
theorem checkNames_nil_ok_iff (ds : List SourceDeclaration) :
    checkNames [] ds = .ok () ↔ ((ds.map SourceDeclaration.plain).map Declaration.name).Nodup ∧
      ∀ d ∈ ds.map SourceDeclaration.plain,
        (d.fields.map FieldDeclaration.name).Nodup := by
  rw [checkNames_ok_iff, List.map_map, List.forall_mem_map]
  simp only [List.not_mem_nil, false_implies, implies_true, true_and, SourceDeclaration.plain,
    List.map_map]
  exact Iff.rfl

end SchemaText

open SchemaText

/-- The lexemes of the tokens that the parser reads are those of the text. -/
theorem map_lexeme_source (source : String) :
    (Token.scan 0 (expandTabs 0 source.toList)).map Token.lexeme =
      Token.lexemes source.toList :=
  Token.lexemes_expandTabs 0 source.toList

/-- A text whose blocks are read is a layout of them, and their names are identifiers. -/
theorem layout_of_blocks {source : String} {raws : List RawDeclaration}
    (h : blocks (Token.scan 0 (expandTabs 0 source.toList)) = .ok raws) :
    IsLayout (raws.map RawDeclaration.plain) source ∧
      ∀ d ∈ raws.map RawDeclaration.plain, isIdentifier d.name = true ∧
        ∀ f ∈ d.fields, isIdentifier f.name = true ∧ isIdentifier f.typeRef = true := by
  have hrows := rows_of_blocks h
  have hrow : row (Token.scan 0 (expandTabs 0 source.toList)) =
      (Token.lexemes source.toList).map Lexeme.untied := by
    rw [← map_lexeme_source, List.map_map]
    rfl
  rw [hrow] at hrows
  have hother : ∀ c, Lexeme.other c ∉ Token.lexemes source.toList := fun c hm =>
    hrows.other_not_mem c (List.mem_map.2 ⟨_, hm, rfl⟩)
  have hplain := Token.isPlain_of_mem_lexemes hother
  have hid : (Token.lexemes source.toList).map Lexeme.untied = Token.lexemes source.toList :=
    (List.map_congr_left fun l hl => Lexeme.untied_of_isPlain (hplain l hl)).trans (List.map_id _)
  rw [hid] at hrows
  have hspaced := Token.spaced_lexemes hother false fun ht => absurd ht Bool.false_ne_true
  exact ⟨⟨_, hrows, hspaced⟩, hrows.identifiers hplain⟩

/-- A text that is read is a layout of what is read from it. -/
theorem layout_of_parseSchema {source : String} {found : List SourceDeclaration}
    (h : parseSchema source = .ok found) :
    WellFormed (found.map SourceDeclaration.plain) ∧
      IsLayout (found.map SourceDeclaration.plain) source := by
  obtain ⟨raws, hr, hne, rfl, hc⟩ := parseSchema_ok h
  obtain ⟨hlayout, hidentifiers⟩ := layout_of_blocks hr
  rw [← map_plain_locate (expandTabs 0 source.toList) raws] at hlayout hidentifiers
  obtain ⟨hnames, hfields⟩ := (checkNames_nil_ok_iff _).1 hc
  refine ⟨⟨?_, hnames, hfields, hidentifiers⟩, hlayout⟩
  simpa using hne

/-- A layout of well-formed declarations is read, and these declarations are found. -/
theorem parseSchema_of_layout {source : String} {ds : List Declaration} (hds : WellFormed ds)
    (h : IsLayout ds source) :
    ∃ found, parseSchema source = .ok found ∧ found.map SourceDeclaration.plain = ds := by
  obtain ⟨ls, hrows, hspaced⟩ := h
  have hls := Token.lexemes_of_spaced hspaced (hrows.isPlain hds.identifiers)
  rw [← map_lexeme_source] at hls
  obtain ⟨raws, hr, rfl⟩ := blocks_of_rows hrows hls
  have hplain := map_plain_locate (expandTabs 0 source.toList) raws
  refine ⟨_, parseSchema_of_blocks hr (fun he => hds.nonempty (by rw [he]; rfl)) ?_, hplain⟩
  rw [checkNames_nil_ok_iff, hplain]
  exact ⟨hds.names, hds.fieldNames⟩

/-- Schema text is read exactly if it lays out well-formed declarations, which are then found, so
that two layouts of the same declarations differ at most in the places found. -/
theorem parseSchema_accepts_layouts (ds : List Declaration) (source : String) :
    ((∃ found, parseSchema source = .ok found ∧ found.map SourceDeclaration.plain = ds) ↔
      WellFormed ds ∧ IsLayout ds source) ∧
    ∀ source', WellFormed ds → IsLayout ds source → IsLayout ds source' →
      ∃ found found', parseSchema source = .ok found ∧ parseSchema source' = .ok found' ∧
        found.map SourceDeclaration.plain = found'.map SourceDeclaration.plain := by
  refine ⟨⟨?_, fun h => parseSchema_of_layout h.1 h.2⟩, ?_⟩
  · rintro ⟨found, hf, rfl⟩
    exact layout_of_parseSchema hf
  · intro source' hds h h'
    obtain ⟨found, hf, hp⟩ := parseSchema_of_layout hds h
    obtain ⟨found', hf', hp'⟩ := parseSchema_of_layout hds h'
    exact ⟨found, found', hf, hf', hp.trans hp'.symm⟩

end ShapeCheck
