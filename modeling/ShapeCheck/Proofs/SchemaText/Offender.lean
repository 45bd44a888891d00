import ShapeCheck.Proofs.SchemaText.Split
import ShapeCheck.Proofs.SchemaText.Stage

/-
  Where a syntax error points. The parser follows the reader of stages up to the first token that
  the grammar does not have in its place (`follows_blocks`), and reports what is wanted there; only
  a field name without its colon is pointed at itself, since the field is given back as a whole.
-/

namespace ShapeCheck

open ShapeCheck.Text ShapeCheck.SchemaText

namespace Stage

/-- Nothing in a row of tokens goes on from the stage, and the row may not end there. -/
def Stuck (q : Stage) : List Token → Prop
  | [] => q ≠ top
  | t :: _ => q.next t.lexeme = none

/-- A reader of tokens that starts at a stage gets to a mismatch. -/
inductive Breaks : Stage → List Token → Mismatch → Prop
  | here {q : Stage} {ts : List Token} : q.Stuck ts → q ≠ fieldName → Breaks q ts ⟨q.wanted, ts⟩
  | name {q : Stage} {t : Token} {ts : List Token} : q.next t.lexeme = some fieldName →
      fieldName.Stuck ts → Breaks q (t :: ts) ⟨.closeBrace, t :: ts⟩
  | step {q q' : Stage} {t : Token} {ts : List Token} {e : Mismatch} :
      q.next t.lexeme = some q' → Breaks q' ts e → Breaks q (t :: ts) e

/-- What a result of the parser says about the reader: it gets to the top with the tokens that the
parser took, or to the mismatch. -/
def Follows {α : Type} (q : Stage) (ts : List Token) : Result α → Prop
  | .ok (_, rest) => ∃ taken, ts = taken ++ rest ∧ q.read (taken.map Token.lexeme) = some top
  | .error e => Breaks q ts e

variable {α : Type} {q q' : Stage}

theorem stuck_of_forall {ts : List Token} (hq : q ≠ top)
    (h : ∀ l start rest, ts = ⟨l, start⟩ :: rest → q.next l = none) : q.Stuck ts := by
  cases ts with
  | nil => exact hq
  | cons t ts => exact h t.lexeme t.start ts rfl

theorem Follows.step {t : Token} {ts : List Token} {r : Result α} (hnext : q.next t.lexeme = some q')
    (h : q'.Follows ts r) : q.Follows (t :: ts) r := by
  cases r with
  | error e => exact Breaks.step hnext h
  | ok r =>
    obtain ⟨taken, rfl, hread⟩ := h
    refine ⟨t :: taken, rfl, ?_⟩
    rw [List.map_cons, read_cons_of_next hnext, hread]

theorem Follows.append {taken : List Token}
    (hread : q.read (taken.map Token.lexeme) = some q') {ts : List Token} {r : Result α}
    (h : q'.Follows ts r) : q.Follows (taken ++ ts) r := by
  induction taken generalizing q with
  | nil =>
    cases hread
    exact h
  | cons t taken ih =>
    rw [List.map_cons, read_cons, Option.bind_eq_some_iff] at hread
    obtain ⟨q₁, hnext, hread⟩ := hread
    exact Follows.step hnext (ih hread)

/-- A stage between fields that is no place for a comma that comes next. -/
def Ready (q : Stage) (ts : List Token) : Prop :=
  q = body ∨ q = fieldType ∧ (ts.map Token.lexeme).head? ≠ some .comma

theorem Ready.between {ts : List Token} (h : q.Ready ts) : q.Between := by
  rcases h with rfl | ⟨rfl, -⟩
  · exact .inl rfl
  · exact .inr rfl

/-- What is no word and no closing brace cannot come between fields. -/
theorem Ready.stuck {t : Token} {ts : List Token} (h : q.Ready (t :: ts))
    (hw : ∀ name tied, t.lexeme ≠ .word name tied) (hb : t.lexeme ≠ .closeBrace) :
    q.Stuck (t :: ts) := by
  obtain ⟨l, start⟩ := t
  rcases h with rfl | ⟨rfl, hc⟩
  · cases l with
    | word name tied => exact absurd rfl (hw name tied)
    | closeBrace => exact absurd rfl hb
    | _ => rfl
  · cases l with
    | word name tied => exact absurd rfl (hw name tied)
    | closeBrace => exact absurd rfl hb
    | comma => exact absurd rfl hc
    | _ => rfl

/-- After the type of a field the reader and the parser both pass over one comma. -/
theorem Follows.skipComma {ts : List Token} {r : Result α}
    (h : ∀ q : Stage, q.Ready (skipComma ts) → q.Follows (skipComma ts) r) :
    fieldType.Follows ts r := by
  by_cases hc : (ts.map Token.lexeme).head? = some .comma
  · obtain ⟨ls, hls⟩ := List.head?_eq_some_iff.1 hc
    obtain ⟨start, rest, rfl, -⟩ := tokens_of_map_eq_cons hls
    exact Follows.step rfl (h body (.inl rfl))
  · rw [skipComma_of_head? hc] at h
    exact h fieldType (.inr ⟨rfl, hc⟩)

theorem Follows.field {name typeRef : String} {tied tied' : Bool} {i j k : Nat} {ts : List Token}
    {r : Result α} (hq : q.Between) (h : fieldType.Follows ts r) :
    q.Follows (⟨.word name tied, i⟩ :: ⟨.colon, j⟩ :: ⟨.word typeRef tied', k⟩ :: ts) r :=
  Follows.step (hq.next_word name tied) (Follows.step rfl (Follows.step rfl h))

end Stage

theorem follows_fields {ts : List Token} {q : Stage} (hq : q.Ready ts) :
    q.Follows ts (fields ts) := by
  -- along the parser, which takes a field at a time, so that the reader is between fields each time
  fun_induction fields ts generalizing q with
  | case1 start ts =>
    refine ⟨[⟨.closeBrace, start⟩], rfl, ?_⟩
    exact Stage.read_cons_of_next hq.between.next_closeBrace []
  | case2 name tied start sc typeRef tied' st ts _ fs ts' hf ih =>
    have htype := Stage.Follows.skipComma fun _ => ih
    rw [hf] at htype
    exact Stage.Follows.field hq.between htype
  | case3 name tied start sc typeRef tied' st ts _ e hf ih =>
    have htype := Stage.Follows.skipComma fun _ => ih
    rw [hf] at htype
    exact Stage.Follows.field hq.between htype
  | case4 name tied start sc ts hword =>
    have hstuck : Stage.fieldColon.Stuck ts := by
      refine Stage.stuck_of_forall (by decide) fun l st rest hts => ?_
      cases l with
      | word typeRef tied' => exact (hword typeRef tied' st rest hts).elim
      | _ => rfl
    have hcolon : Stage.fieldColon.Breaks ts ⟨.identifier, ts⟩ := .here hstuck (by decide)
    exact .step (hq.between.next_word name tied) (.step rfl hcolon)
  | case5 ts hclose _ hcolon =>
    have hplace (hstuck : q.Stuck ts) : q.Breaks ts ⟨.closeBrace, ts⟩ :=
      hq.between.wanted ▸ .here hstuck hq.between.ne_fieldName
    cases ts with
    | nil => exact hplace hq.between.ne_top
    | cons t ts =>
      obtain ⟨l, start⟩ := t
      by_cases hw : ∃ name tied, l = .word name tied
      · -- a field name without its colon, which the parser gives back
        obtain ⟨name, tied, rfl⟩ := hw
        refine .name (hq.between.next_word name tied)
          (Stage.stuck_of_forall (by decide) fun l st rest hts => ?_)
        cases l with
        | colon => exact (hcolon name tied start st rest (by rw [hts])).elim
        | _ => rfl
      · refine hplace (hq.stuck ?_ ?_)
        · exact fun name tied he => hw ⟨name, tied, he⟩
        · rintro rfl
          exact hclose start ts rfl

theorem identifier_error {ts : List Token} {e : Mismatch} (h : identifier ts = .error e) :
    Stage.blockWord.Breaks ts e := by
  unfold identifier at h
  split at h
  · contradiction
  · rename_i hword
    cases h
    refine .here (Stage.stuck_of_forall (by decide) fun l start rest hts => ?_) (by decide)
    cases l with
    | word name tied => exact (hword name tied start rest hts).elim
    | _ => rfl

theorem follows_block (kind : DeclarationKind) (start : Nat) (ts : List Token) :
    Stage.blockWord.Follows ts (block kind start ts) := by
  fun_cases block kind start ts with
  | case1 e hi => exact identifier_error hi
  | case2 name i ts hi e hf =>
    obtain ⟨tied, j, rfl⟩ := identifier_ok hi
    have hfields : Stage.body.Follows ts (fields ts) := follows_fields (.inl rfl)
    rw [hf] at hfields
    exact Stage.Follows.step (r := Except.error e) rfl (Stage.Follows.step rfl hfields)
  | case3 name i ts hi fs rest hf =>
    obtain ⟨tied, j, rfl⟩ := identifier_ok hi
    have hfields : Stage.body.Follows ts (fields ts) := follows_fields (.inl rfl)
    rw [hf] at hfields
    exact Stage.Follows.step rfl (Stage.Follows.step rfl hfields)
  | case4 name rest hopen hi =>
    obtain ⟨tied, j, rfl⟩ := identifier_ok hi
    have hstuck : Stage.blockName.Stuck rest := by
      refine Stage.stuck_of_forall (by decide) fun l st ts hts => ?_
      cases l with
      | openBrace => exact (hopen st ts hts).elim
      | _ => rfl
    exact .step rfl (.here hstuck (by decide))

theorem Stage.next_top_of_kind {t : Token} {kind : DeclarationKind}
    (h : blockKind? t.lexeme = some kind) : Stage.top.next t.lexeme = some .blockWord := by
  rw [Stage.next, h, Option.map_some]

/-- The parser of declarations takes what the reader lets through, and gives up where it does. -/
theorem follows_blocks (ts : List Token) :
    Stage.top.Follows ts ((blocks ts).map fun ds => (ds, [])) := by
  fun_induction blocks ts with
  | case1 => exact ⟨[], rfl, rfl⟩
  | case2 t ts hk =>
    refine Stage.Breaks.here ?_ (by decide)
    rw [Stage.Stuck, Stage.next, hk, Option.map_none]
  | case3 t ts kind hk e hb =>
    have hblock := follows_block kind t.start ts
    rw [hb] at hblock
    exact Stage.Breaks.step (Stage.next_top_of_kind hk) hblock
  | case4 t ts kind hk d rest hb _ ih =>
    have hblock := follows_block kind t.start ts
    rw [hb] at hblock
    obtain ⟨taken, rfl, hread⟩ := hblock
    refine Stage.Follows.step (Stage.next_top_of_kind hk) (Stage.Follows.append hread ?_)
    cases hr : blocks rest with
    | ok ds =>
      rw [hr] at ih
      exact ih
    | error e =>
      rw [hr] at ih
      exact ih

/-! ## The place of an error -/

/-- The start of the token with the number `k`, counted from one, or else the end of the text. -/
def startOf (text : List Char) (ts : List Token) (k : Nat) : Nat :=
  match ts[k - 1]? with
  | some t => t.start
  | none => text.length

theorem startOf_le {text : List Char} {ts : List Token} (h : Splits 0 ts text) (k : Nat) :
    startOf text ts k ≤ text.length := by
  unfold startOf
  split
  · rename_i t ht
    have hbound := (h.increasing.2 t (List.mem_of_getElem? ht)).2
    omega
  · exact Nat.le_refl _

/-- Where a mismatch is found, nothing can go on; it is placed there, or at the field name before. -/
theorem Stage.Breaks.split {q : Stage} {ts : List Token} {e : Mismatch} (h : q.Breaks ts e) :
    ∃ before after q', ts = before ++ after ∧ q.read (before.map Token.lexeme) = some q' ∧
      q'.Stuck after ∧ ∃ i, e = ⟨q'.wanted, ts.drop i⟩ ∧
        (q' = .fieldName → i + 1 = before.length) ∧ (q' ≠ .fieldName → i = before.length) := by
  induction h with
  | @here q ts hstuck hq =>
    exact ⟨[], ts, q, rfl, rfl, hstuck, 0, rfl, fun he => absurd he hq, fun _ => rfl⟩
  | @name q t ts hnext hstuck =>
    have hread := Stage.read_cons_of_next hnext []
    exact ⟨[t], ts, .fieldName, rfl, hread, hstuck, 0, rfl, fun _ => rfl, fun he => absurd rfl he⟩
  | @step q q₁ t ts e hnext _ ih =>
    obtain ⟨before, after, q', rfl, hread, hstuck, i, rfl, hname, hother⟩ := ih
    refine ⟨t :: before, after, q', rfl, ?_, hstuck, i + 1, rfl, fun he => ?_, fun he => ?_⟩
    · rw [List.map_cons, Stage.read_cons_of_next hnext, hread]
    · rw [List.length_cons, hname he]
    · rw [List.length_cons, hother he]

theorem offends_of_split {before after : List Token} {q : Stage}
    (hread : Stage.top.read (before.map Token.lexeme) = some q) (hstuck : q.Stuck after) {k : Nat} :
    Offends ((before ++ after).map Token.lexeme) k ↔ k = before.length + 1 := by
  rw [← before.length_map Token.lexeme]
  cases after with
  | nil =>
    rw [List.append_nil]
    exact offends_of_incomplete hread hstuck
  | cons t after =>
    rw [List.map_append, List.map_cons]
    exact offends_of_stuck hread hstuck

theorem locate_drop (text : List Char) (ts : List Token) (w : Wanted) (i : Nat) :
    Mismatch.locate text ⟨w, ts.drop i⟩ =
      .unexpected w (positionAt text (startOf text ts (i + 1)))
        (String.ofList (lineAt text (startOf text ts (i + 1)))) := by
  have hhead := List.head?_drop (l := ts) (i := i)
  unfold Mismatch.locate startOf
  rw [Nat.add_sub_cancel, ← hhead]
  cases ts.drop i <;> rfl

/-! ## Which texts have syntax errors -/

theorem parseSchema_of_mismatch {source : String} {e : Mismatch}
    (h : blocks (Token.scan 0 (expandTabs 0 source.toList)) = .error e) :
    parseSchema source = .error (e.locate (expandTabs 0 source.toList)) := by
  rw [parseSchema]
  dsimp only
  rw [h]

theorem checkFields_ne_unexpected (d : SourceDeclaration) (seen : List String)
    (fs : List SourceField) (w : Wanted) (p : Position) (line : String) :
    checkFields d seen fs ≠ .error (.unexpected w p line) := by
  induction fs generalizing seen with
  | nil => simp [checkFields]
  | cons f fs ih =>
    rw [checkFields]
    split
    · simp
    · exact ih _

theorem checkNames_ne_unexpected (seen ds : List SourceDeclaration) (w : Wanted) (p : Position)
    (line : String) : checkNames seen ds ≠ .error (.unexpected w p line) := by
  induction ds generalizing seen with
  | nil => simp [checkNames]
  | cons d ds ih =>
    rw [checkNames]
    split
    · simp
    · cases hf : checkFields d [] d.fields with
      | error e =>
        intro he
        cases he
        exact checkFields_ne_unexpected d [] d.fields w p line hf
      | ok _ => exact ih _

theorem parseSchema_ne_unexpected {source : String} {raws : List RawDeclaration}
    (h : blocks (Token.scan 0 (expandTabs 0 source.toList)) = .ok raws) (w : Wanted) (p : Position)
    (line : String) : parseSchema source ≠ .error (.unexpected w p line) := by
  rw [parseSchema]
  dsimp only
  rw [h]
  cases raws with
  | nil => simp
  | cons raw raws =>
    dsimp only
    intro he
    cases hc : checkNames [] ((raw :: raws).map (·.locate (expandTabs 0 source.toList))) with
    | error e =>
      rw [hc] at he
      cases he
      exact checkNames_ne_unexpected _ _ w p line hc
    | ok _ =>
      rw [hc] at he
      contradiction

/-- The rows that the parser gives up on are those that are no sentences. -/
theorem exists_mismatch_iff {ts : List Token} :
    (∃ e, blocks ts = .error e) ↔ ¬ Sentence (ts.map Token.lexeme) := by
  have hfollows := follows_blocks ts
  cases hb : blocks ts with
  | ok raws =>
    rw [hb] at hfollows
    obtain ⟨taken, hts, hread⟩ := hfollows
    rw [List.append_nil] at hts
    subst hts
    refine iff_of_false ?_ fun hs => hs (sentence_iff.2 hread)
    rintro ⟨e, he⟩
    contradiction
  | error e =>
    rw [hb] at hfollows
    obtain ⟨before, after, q, rfl, hread, hstuck, -⟩ := Stage.Breaks.split hfollows
    have hoffends := (offends_of_split hread hstuck).2 rfl
    exact iff_of_true ⟨e, rfl⟩ hoffends.not_sentence

theorem exists_unexpected_iff (source : String) :
    (∃ w p line, parseSchema source = .error (.unexpected w p line)) ↔
      ¬ Sentence ((Token.scan 0 (expandTabs 0 source.toList)).map Token.lexeme) := by
  rw [← exists_mismatch_iff]
  constructor
  · rintro ⟨w, p, line, h⟩
    cases hb : blocks (Token.scan 0 (expandTabs 0 source.toList)) with
    | ok raws => exact absurd h (parseSchema_ne_unexpected hb w p line)
    | error e => exact ⟨e, rfl⟩
  · rintro ⟨e, hb⟩
    exact ⟨_, _, _, parseSchema_of_mismatch hb⟩

/-- Every text splits into tokens in one way. It has a syntax error if its tokens are no sentence.
Then one of them is the first out of place, or else the end of the text is, and the error is placed
there, or at the field name before it if that needs its colon. What is wanted there, and so the
message, depends on how far the tokens before it have come. -/
theorem parseSchema_points_at_offender (source : String) :
    ∃ text ts, (∀ text', Expands 0 source.toList text' ↔ text' = text) ∧
      (∀ ts', Splits 0 ts' text ↔ ts' = ts) ∧
      ((∃ w p line, parseSchema source = .error (.unexpected w p line)) ↔
        ¬ Sentence (ts.map Token.lexeme)) ∧
      (¬ Sentence (ts.map Token.lexeme) →
        ∃ k, (∀ k', Offends (ts.map Token.lexeme) k' ↔ k' = k) ∧
        ∃ message, (∀ m, Wants ((ts.map Token.lexeme).take (k - 1)) m ↔ m = message) ∧
        ∃ j, (AwaitsColon ((ts.map Token.lexeme).take (k - 1)) → j + 1 = k) ∧
          (¬ AwaitsColon ((ts.map Token.lexeme).take (k - 1)) → j = k) ∧
        ∃ e p line, parseSchema source = .error e ∧ Locates text (startOf text ts j) p line ∧
          e.notice = ⟨.schemaText, "Invalid schema syntax at line " ++ toString p.line ++
              ", column " ++ toString p.column ++ ": " ++ message,
            [("source_line", .value (.str (String.ofList line))), ("line", .value (.int p.line)),
              ("column", .value (.int p.column))]⟩) := by
  refine ⟨_, Token.scan 0 (expandTabs 0 source.toList), fun _ => expands_iff,
    fun _ => splits_iff, exists_unexpected_iff source, fun hs => ?_⟩
  obtain ⟨e, hb⟩ := exists_mismatch_iff.2 hs
  have hfollows := follows_blocks (Token.scan 0 (expandTabs 0 source.toList))
  rw [hb] at hfollows
  obtain ⟨before, after, q, hts, hread, hstuck, i, rfl, hname, hother⟩ :=
    Stage.Breaks.split hfollows
  have hbefore : ((Token.scan 0 (expandTabs 0 source.toList)).map Token.lexeme).take
      (before.length + 1 - 1) = before.map Token.lexeme := by
    rw [hts, List.map_append, Nat.add_sub_cancel, ← before.length_map Token.lexeme, List.take_left]
  have herror := parseSchema_of_mismatch hb
  rw [locate_drop] at herror
  refine ⟨before.length + 1, fun k => ?_, q.wanted.message, fun w => ?_, i + 1, fun ha => ?_,
    fun ha => ?_, _, _, _, herror, locates_positionAt ?_, rfl⟩
  · rw [hts]
    exact offends_of_split hread hstuck
  · rw [hbefore]
    exact wants_iff hread
  · rw [hbefore, awaitsColon_iff, hread, Option.some.injEq] at ha
    rw [hname ha]
  · rw [hbefore, awaitsColon_iff, hread, Option.some.injEq] at ha
    rw [hother ha]
  · exact startOf_le (Token.splits_scan 0 _) (i + 1)

-- the name of a field without its colon, after a tab and a comment
example : parseSchema "type A \x7b # \x7d\n\tx y: Int \x7d" =
    .error (.unexpected .closeBrace ⟨2, 9⟩ "        x y: Int \x7d") := by
  decide +kernel

end ShapeCheck
