import ShapeCheck.Proofs.SchemaText.Grammar
import ShapeCheck.Proofs.SchemaText.Split

/-
  The places that the parser records. What it records are offsets of tokens, in the order of the
  text (`marks_sublist`), and a token stands at its offset as a word of its own and in no comment
  (`wordAt_of_heads`). Since places grow with offsets, the places of declarations and fields are in
  the order of the text too (`parseSchema_positions`).
-/

namespace ShapeCheck

open ShapeCheck.Text ShapeCheck.SchemaText

/-- A token in a row that has these lexemes right after it. -/
def Token.Heads (t : Token) (next : List Lexeme) (ts : List Token) : Prop :=
  ∃ before after, ts = before ++ t :: after ∧ next <+: after.map Token.lexeme

/-- A place where a word of a text stands: the text from there on begins with the word, the word
ends there, and its offset is that of a token, with these lexemes after it, and in no comment. -/
structure WordAt (text : List Char) (word : String) (next : List Lexeme) (p : Position) : Prop where
  line : p.line = 1 + (text.take (offsetOf text p)).count '\n'
  place : positionAt text (offsetOf text p) = p
  spelled : ∃ c rest, isWordChar c = false ∧ textFrom text p = word.toList ++ c :: rest
  token : ∃ ts, Splits 0 ts text ∧ Token.Heads ⟨.word word false, offsetOf text p⟩ next ts
  uncommented : '#' ∉ lineBefore text (offsetOf text p)

/-- The places of declarations and of their fields, in the order of the text. -/
def places (ds : List SourceDeclaration) : List Position :=
  ds.flatMap fun d => d.position :: d.fields.map fun f => f.position

/-! ## Offsets in the order of the text -/

namespace SchemaText

/-- The token that names a field. -/
def RawField.mark (f : RawField) : Token := ⟨.word f.name false, f.start⟩

/-- The tokens that begin a declaration and name its fields. -/
def RawDeclaration.marks (d : RawDeclaration) : List Token :=
  ⟨.word d.kind.word false, d.start⟩ :: d.fields.map RawField.mark

end SchemaText

/-- The token without the mark of a dollar sign after it. -/
def Token.untied (t : Token) : Token := ⟨t.lexeme.untied, t.start⟩

theorem skipComma_suffix (ts : List Token) : skipComma ts <:+ ts := by
  rcases skipComma_cases ts with ⟨_, rest, rfl, hs⟩ | hs
  · rw [hs]
    exact List.suffix_cons _ rest
  · simp only [hs, List.suffix_rfl]

theorem fields_sublist {ts rest : List Token} {fs : List RawField}
    (h : fields ts = .ok (fs, rest)) :
    (fs.map RawField.mark ++ rest.map Token.untied).Sublist (ts.map Token.untied) := by
  fun_induction fields ts generalizing fs rest with
  | case1 start ts =>
    cases h
    exact List.sublist_cons_self _ _
  | case2 name tied start sc typeRef tied' st ts _ fs' ts' hf ih =>
    cases h
    have hskip := (skipComma_suffix ts).sublist.map Token.untied
    have hfields := (ih hf).trans hskip
    exact .cons_cons _ (.cons _ (.cons _ hfields))
  | case3 => contradiction
  | case4 => contradiction
  | case5 => contradiction

theorem block_sublist {kind : DeclarationKind} {start : Nat} {ts rest : List Token}
    {d : RawDeclaration} (h : block kind start ts = .ok (d, rest)) :
    (d.fields.map RawField.mark ++ rest.map Token.untied).Sublist (ts.map Token.untied) := by
  obtain ⟨-, -, tied, i, j, body, rfl, hf⟩ := block_ok h
  exact .cons _ (.cons _ (fields_sublist hf))

/-- The token that begins a declaration. -/
theorem untied_of_block {t : Token} {kind : DeclarationKind} (hk : blockKind? t.lexeme = some kind)
    {ts rest : List Token} {d : RawDeclaration} (hb : block kind t.start ts = .ok (d, rest)) :
    t.untied = ⟨.word d.kind.word false, d.start⟩ := by
  obtain ⟨hkind, hstart, -⟩ := block_ok hb
  rw [Token.untied, kind_of_blockKind? hk, hkind, hstart]
  rfl

/-- The parser takes the tokens of declarations and fields in their order. -/
theorem marks_sublist {ts : List Token} {raws : List RawDeclaration} (h : blocks ts = .ok raws) :
    (raws.flatMap RawDeclaration.marks).Sublist (ts.map Token.untied) := by
  fun_induction blocks ts generalizing raws with
  | case1 =>
    cases h
    exact .slnil
  | case2 => contradiction
  | case3 => contradiction
  | case4 t ts kind hk d rest hb _ ih =>
    cases hr : blocks rest with
    | error e =>
      rw [hr] at h
      contradiction
    | ok raws' =>
      rw [hr] at h
      cases h
      have hrest := (List.Sublist.refl (d.fields.map RawField.mark)).append (ih hr)
      rw [List.flatMap_cons, RawDeclaration.marks, List.cons_append, List.map_cons,
        untied_of_block hk hb]
      exact .cons_cons _ (hrest.trans (block_sublist hb))

/-! ## The tokens that are recorded -/

theorem Token.Heads.mem {t : Token} {next : List Lexeme} {ts : List Token} (h : t.Heads next ts) :
    t ∈ ts := by
  obtain ⟨before, after, rfl, -⟩ := h
  exact List.mem_append_right before (List.mem_cons_self ..)

theorem Token.Heads.of_suffix {t : Token} {next : List Lexeme} {ts ts' : List Token}
    (h : t.Heads next (ts.map Token.untied)) (hs : ts <:+ ts') :
    t.Heads next (ts'.map Token.untied) := by
  obtain ⟨before, after, heq, hnext⟩ := h
  obtain ⟨first, rfl⟩ := hs
  refine ⟨first.map Token.untied ++ before, after, ?_, hnext⟩
  rw [List.map_append, heq, List.append_assoc]

theorem suffix_of_fields {ts rest : List Token} {fs : List RawField}
    (h : fields ts = .ok (fs, rest)) : rest <:+ ts := by
  fun_induction fields ts generalizing fs rest with
  | case1 start ts =>
    cases h
    exact List.suffix_cons _ ts
  | case2 name tied start sc typeRef tied' st ts _ fs' ts' hf ih =>
    cases h
    have hskip := (ih hf).trans (skipComma_suffix ts)
    exact hskip.trans (List.suffix_append [_, _, _] ts)
  | case3 => contradiction
  | case4 => contradiction
  | case5 => contradiction

/-- The name of a field is recorded where its colon and its type follow. -/
theorem heads_of_fields {ts rest : List Token} {fs : List RawField}
    (h : fields ts = .ok (fs, rest)) :
    ∀ f ∈ fs, f.mark.Heads [.colon, .word f.typeRef false] (ts.map Token.untied) := by
  fun_induction fields ts generalizing fs rest with
  | case1 =>
    cases h
    exact List.forall_mem_nil _
  | case2 name tied start sc typeRef tied' st ts _ fs' ts' hf ih =>
    cases h
    have hskip := (skipComma_suffix ts).trans (List.suffix_append
      [⟨.word name tied, start⟩, ⟨.colon, sc⟩, ⟨.word typeRef tied', st⟩] ts)
    refine List.forall_mem_cons.2 ⟨?_, fun f hmem => (ih hf f hmem).of_suffix hskip⟩
    exact ⟨[], _, rfl, List.prefix_append _ _⟩
  | case3 => contradiction
  | case4 => contradiction
  | case5 => contradiction

theorem heads_of_block {kind : DeclarationKind} {start : Nat} {ts rest : List Token}
    {d : RawDeclaration} (h : block kind start ts = .ok (d, rest)) :
    rest <:+ ts ∧ [.word d.name false, .openBrace] <+: (ts.map Token.untied).map Token.lexeme ∧
      ∀ f ∈ d.fields, f.mark.Heads [.colon, .word f.typeRef false] (ts.map Token.untied) := by
  obtain ⟨-, -, tied, i, j, body, rfl, hf⟩ := block_ok h
  have hbody := List.suffix_append [⟨.word d.name tied, i⟩, ⟨.openBrace, j⟩] body
  exact ⟨(suffix_of_fields hf).trans hbody, List.prefix_append _ _,
    fun f hmem => (heads_of_fields hf f hmem).of_suffix hbody⟩

/-- A declaration is recorded where its name and an opening brace follow its block word. -/
theorem heads_of_blocks {ts : List Token} {raws : List RawDeclaration} (h : blocks ts = .ok raws) :
    ∀ d ∈ raws, Token.Heads ⟨.word d.kind.word false, d.start⟩ [.word d.name false, .openBrace]
        (ts.map Token.untied) ∧
      ∀ f ∈ d.fields, f.mark.Heads [.colon, .word f.typeRef false] (ts.map Token.untied) := by
  fun_induction blocks ts generalizing raws with
  | case1 =>
    cases h
    exact List.forall_mem_nil _
  | case2 => contradiction
  | case3 => contradiction
  | case4 t ts kind hk d rest hb _ ih =>
    cases hr : blocks rest with
    | error e =>
      rw [hr] at h
      contradiction
    | ok raws' =>
      rw [hr] at h
      cases h
      obtain ⟨hsuffix, hname, hfields⟩ := heads_of_block hb
      have hrest := hsuffix.trans (List.suffix_cons t ts)
      refine List.forall_mem_cons.2 ⟨⟨?_, fun f hmem => ?_⟩, fun d' hmem => ?_⟩
      · rw [List.map_cons, untied_of_block hk hb]
        exact ⟨[], _, rfl, hname⟩
      · exact (hfields f hmem).of_suffix (List.suffix_cons t ts)
      · obtain ⟨hword, hfs⟩ := ih hr d' hmem
        exact ⟨hword.of_suffix hrest, fun f hf => (hfs f hf).of_suffix hrest⟩

theorem places_locate (text : List Char) (raws : List RawDeclaration) :
    places (raws.map (·.locate text)) =
      (raws.flatMap RawDeclaration.marks).map fun t => positionAt text t.start := by
  induction raws with
  | nil => rfl
  | cons d raws ih =>
    have hfields : (d.fields.map (·.locate text)).map (fun f => f.position) =
        (d.fields.map RawField.mark).map fun t => positionAt text t.start := by
      rw [List.map_map, List.map_map]
      rfl
    rw [List.map_cons, List.flatMap_cons, List.map_append, ← ih, places, List.flatMap_cons]
    rw [RawDeclaration.locate, hfields]
    rfl

/-! ## The tokens of a text that is accepted -/

theorem getLast?_append_closeBrace {ds : List Declaration} {ls : List Lexeme} (h : Rows ds ls)
    (before : List Lexeme) : (before ++ .closeBrace :: ls).getLast? = some .closeBrace := by
  induction h generalizing before with
  | nil => exact List.getLast?_concat ..
  | @cons d ds body ls _ _ ih =>
    have hrest := ih (before ++ .closeBrace :: .word d.kind.word false :: .word d.name false ::
      .openBrace :: body)
    rwa [List.append_assoc] at hrest

/-- A text of declarations ends with a closing brace. -/
theorem Rows.getLast?_eq {ds : List Declaration} {ls : List Lexeme} (h : Rows ds ls)
    (hds : ds ≠ []) : ls.getLast? = some .closeBrace := by
  cases h with
  | nil => exact absurd rfl hds
  | @cons d ds body ls _ h =>
    exact getLast?_append_closeBrace h (.word d.kind.word false :: .word d.name false ::
      .openBrace :: body)

theorem tokens_of_parseSchema {source : String} {ds : List SourceDeclaration}
    (h : parseSchema source = .ok ds) :
    (∀ t ∈ Token.scan 0 (expandTabs 0 source.toList), t.untied = t) ∧
      ((Token.scan 0 (expandTabs 0 source.toList)).map Token.lexeme).getLast? =
        some .closeBrace := by
  obtain ⟨hds, ls, hrows, hspaced⟩ := layout_of_parseSchema h
  have hplain := hrows.isPlain hds.identifiers
  have hls := Token.lexemes_of_spaced hspaced hplain
  rw [← map_lexeme_source] at hls
  rw [hls]
  refine ⟨fun t ht => ?_, hrows.getLast?_eq hds.nonempty⟩
  have hmem := List.mem_map_of_mem (f := Token.lexeme) ht
  rw [hls] at hmem
  rw [Token.untied, Lexeme.untied_of_isPlain (hplain _ hmem)]

/-- A word among the tokens of a text stands at its place, if another token comes last. -/
theorem wordAt_of_heads {text : List Char} {ts : List Token} (h : Splits 0 ts text)
    (hlast : (ts.map Token.lexeme).getLast? = some .closeBrace) {name : String} {start : Nat}
    {next : List Lexeme} (hheads : Token.Heads ⟨.word name false, start⟩ next ts) :
    WordAt text name next (positionAt text start) := by
  have hmem := hheads.mem
  have hbound := (h.increasing.2 _ hmem).2
  have hoffset : offsetOf text (positionAt text start) = start := by
    refine offsetOf_positionAt ?_
    dsimp only at hbound
    omega
  have hline : '#' ∉ lastLine [] := List.not_mem_nil
  obtain ⟨rest, hstands, hrest⟩ := h.stands rfl hline _ hmem
  have hne : rest ≠ [] := by
    intro he
    rw [List.getLast?_map, hrest he] at hlast
    cases hlast
  obtain ⟨c, rest, rfl⟩ := List.exists_cons_of_ne_nil hne
  refine ⟨?_, ?_, ⟨c, rest, ?_, ?_⟩, ⟨ts, h, ?_⟩, ?_⟩
  · rw [hoffset, Nat.add_comm]
    rfl
  · rw [hoffset]
  · exact hstands.ends rfl c rfl
  · rw [textFrom_positionAt]
    exact hstands.spelled
  · rwa [hoffset]
  · rw [hoffset]
    exact hstands.uncommented

/-- Tokens in the order of the text have places in the order of the text. -/
theorem pairwise_before {text : List Char} {ts ts' : List Token} (h : Splits 0 ts text)
    (hts : ts'.Sublist ts) :
    (ts'.map fun t => positionAt text t.start).Pairwise Position.Before := by
  obtain ⟨hincreasing, hbounds⟩ := h.increasing
  rw [List.pairwise_map] at hincreasing ⊢
  refine (hincreasing.sublist hts).imp_of_mem fun {t u} _ hu htu => ?_
  have hbound := (hbounds u (hts.subset hu)).2
  exact before_positionAt htu (by omega)

/-- The places in a text that is read are those of the words that begin its declarations and name
their fields, and they are in the order of the text. -/
theorem parseSchema_positions {source : String} {ds : List SourceDeclaration}
    (h : parseSchema source = .ok ds) :
    ∃ text, (∀ text', Expands 0 source.toList text' ↔ text' = text) ∧
      (∀ d ∈ ds, WordAt text d.kind.word [.word d.name false, .openBrace] d.position ∧
        ∀ f ∈ d.fields, WordAt text f.name [.colon, .word f.typeRef false] f.position) ∧
      (places ds).Pairwise Position.Before := by
  obtain ⟨huntied, hlast⟩ := tokens_of_parseSchema h
  obtain ⟨raws, hr, -, rfl, -⟩ := parseSchema_ok h
  have hsplits := Token.splits_scan 0 (expandTabs 0 source.toList)
  have hmarks := marks_sublist hr
  have hheads := heads_of_blocks hr
  rw [List.map_congr_left huntied, List.map_id'] at hmarks hheads
  refine ⟨_, fun _ => expands_iff, fun d hd => ?_, ?_⟩
  · obtain ⟨raw, hraw, rfl⟩ := List.mem_map.1 hd
    obtain ⟨hword, hfields⟩ := hheads raw hraw
    refine ⟨wordAt_of_heads hsplits hlast hword, fun f hf => ?_⟩
    obtain ⟨rawField, hfield, rfl⟩ := List.mem_map.1 hf
    exact wordAt_of_heads hsplits hlast (hfields rawField hfield)
  · rw [places_locate]
    exact pairwise_before hsplits hmarks

theorem parseSchema_positions_tabs :
    parseSchema "# type A\n\ttype A \x7b\r\n\tx: Int, # x\n\n  y:A \x7d" =
      .ok [⟨.type, "A", [⟨⟨"x", "Int"⟩, ⟨3, 9⟩⟩, ⟨⟨"y", "A"⟩, ⟨5, 3⟩⟩], ⟨2, 9⟩⟩] ∧
    (∃ text, (∀ text', Expands 0 "# type A\n\ttype A \x7b\r\n\tx: Int, # x\n\n  y:A \x7d".toList
        text' ↔ text' = text) ∧ WordAt text "x" [.colon, .word "Int" false] ⟨3, 9⟩) ∧
    [⟨2, 9⟩, ⟨3, 9⟩, ⟨5, 3⟩].Pairwise Position.Before := by
  have h : parseSchema "# type A\n\ttype A \x7b\r\n\tx: Int, # x\n\n  y:A \x7d" =
      .ok [⟨.type, "A", [⟨⟨"x", "Int"⟩, ⟨3, 9⟩⟩, ⟨⟨"y", "A"⟩, ⟨5, 3⟩⟩], ⟨2, 9⟩⟩] := by
    decide +kernel
  obtain ⟨text, htext, hwords, hplaces⟩ := parseSchema_positions h
  have hfields := (hwords _ (List.mem_cons_self ..)).2
  exact ⟨h, ⟨text, htext, hfields _ (List.mem_cons_self ..)⟩, hplaces⟩

end ShapeCheck
