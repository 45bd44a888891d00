import Mathlib.Data.List.Induction
import Mathlib.Order.Bounds.Basic
import ShapeCheck.Fault
import ShapeCheck.Proofs.SchemaText.Grammar

/-
  How far a row of lexemes has come in the grammar. `Sentence` are the rows that the grammar writes,
  and a row is `Viable` if it can be gone on with to a sentence. A reader that goes from stage to
  stage decides both (`sentence_iff`, `viable_iff`), and its stage tells what is wanted next
  (`wants_iff`, `awaitsColon_iff`). `Offends` counts the lexemes up to the first one that no
  sentence has in its place.
-/

namespace ShapeCheck

open ShapeCheck.SchemaText

/-- The rows that write a field, of any words. -/
inductive FieldForm : List Lexeme → Prop
  | bare (name typeRef : String) (tied tied' : Bool) :
      FieldForm [.word name tied, .colon, .word typeRef tied']
  | comma (name typeRef : String) (tied tied' : Bool) :
      FieldForm [.word name tied, .colon, .word typeRef tied', .comma]

/-- The rows that write the fields of a block. -/
inductive BodyForm : List Lexeme → Prop
  | nil : BodyForm []
  | cons {row body : List Lexeme} : FieldForm row → BodyForm body → BodyForm (row ++ body)

/-- The rows that write blocks one after the other. Only a block word must not be tied. -/
inductive Sentence : List Lexeme → Prop
  | nil : Sentence []
  | cons (kind : DeclarationKind) (name : String) (tied : Bool) {body ls : List Lexeme} :
      BodyForm body → Sentence ls →
      Sentence (.word kind.word false :: .word name tied :: .openBrace ::
        (body ++ .closeBrace :: ls))

/-- A row that a sentence begins with. -/
def Viable (p : List Lexeme) : Prop := ∃ rest, Sentence (p ++ rest)

/-- A row that ends inside a block, between its fields. -/
inductive InBlock : List Lexeme → Prop
  | intro {ls body : List Lexeme} (kind : DeclarationKind) (name : String) (tied : Bool) :
      Sentence ls → BodyForm body →
      InBlock (ls ++ .word kind.word false :: .word name tied :: .openBrace :: body)

/-- A row that ends with the name of a field, so that its colon has to come next. -/
inductive AwaitsColon : List Lexeme → Prop
  | intro {p : List Lexeme} (name : String) (tied : Bool) :
      InBlock p → AwaitsColon (p ++ [.word name tied])

/-- What to say after a row, if what comes next cannot go on with it. -/
inductive Wants : List Lexeme → String → Prop
  | top {p : List Lexeme} : Sentence p → Wants p "Expected end of text"
  | blockWord {p : List Lexeme} (kind : DeclarationKind) :
      Sentence p → Wants (p ++ [.word kind.word false]) "Expected identifier"
  | blockName {p : List Lexeme} (kind : DeclarationKind) (name : String) (tied : Bool) :
      Sentence p → Wants (p ++ [.word kind.word false, .word name tied]) "Expected '\x7b'"
  | body {p : List Lexeme} : InBlock p → Wants p "Expected '\x7d'"
  | fieldName {p : List Lexeme} : AwaitsColon p → Wants p "Expected '\x7d'"
  | fieldColon {p : List Lexeme} : AwaitsColon p → Wants (p ++ [.colon]) "Expected identifier"

/-- The least number of lexemes that no sentence begins with, or one more than there are if the row
only breaks off. -/
def Offends (ls : List Lexeme) (k : Nat) : Prop :=
  IsLeast {k | ¬ Viable (ls.take k)} k ∨ Viable ls ∧ ¬ Sentence ls ∧ k = ls.length + 1

/-! ## Stages -/

/-- Where a reader of lexemes stands: at the top, or after what the stage names. -/
inductive Stage where
  | top
  | blockWord
  | blockName
  | body
  | fieldName
  | fieldColon
  | fieldType
deriving DecidableEq

namespace Stage

def next : Stage → Lexeme → Option Stage
  | top, l => (blockKind? l).map fun _ => blockWord
  | blockWord, .word _ _ => some blockName
  | blockName, .openBrace => some body
  | body, .word _ _ => some fieldName
  | body, .closeBrace => some top
  | fieldName, .colon => some fieldColon
  | fieldColon, .word _ _ => some fieldType
  | fieldType, .comma => some body
  | fieldType, .word _ _ => some fieldName
  | fieldType, .closeBrace => some top
  | _, _ => none

/-- The stage after a row of lexemes, if the grammar lets them through. -/
def read (q : Stage) (ls : List Lexeme) : Option Stage := ls.foldlM next q

/-- What is wanted where a lexeme cannot go on. A field that is not finished up to its colon is
given back, and the end of the block is wanted in its place. -/
def wanted : Stage → Wanted
  | top => .endOfText
  | blockWord => .identifier
  | blockName => .openBrace
  | body => .closeBrace
  | fieldName => .closeBrace
  | fieldColon => .identifier
  | fieldType => .closeBrace

/-- Inside a block, between fields. -/
def Between (q : Stage) : Prop := q = body ∨ q = fieldType

theorem read_nil (q : Stage) : q.read [] = some q := rfl

theorem read_cons (q : Stage) (l : Lexeme) (ls : List Lexeme) :
    q.read (l :: ls) = (q.next l).bind fun q' => q'.read ls := rfl

theorem read_cons_of_next {q q' : Stage} {l : Lexeme} (h : q.next l = some q')
    (ls : List Lexeme) : q.read (l :: ls) = q'.read ls := by
  rw [read_cons, h, Option.bind_some]

theorem read_append (q : Stage) (ls ls' : List Lexeme) :
    q.read (ls ++ ls') = (q.read ls).bind fun q' => q'.read ls' := by
  unfold read
  rw [List.foldlM_append]
  rfl

theorem read_append_of_read {q q' : Stage} {ls : List Lexeme} (h : q.read ls = some q')
    (ls' : List Lexeme) : q.read (ls ++ ls') = q'.read ls' := by
  rw [read_append, h, Option.bind_some]

theorem next_top (kind : DeclarationKind) : top.next (.word kind.word false) = some blockWord := by
  cases kind <;> rfl

theorem Between.ne_top {q : Stage} (h : q.Between) : q ≠ top := by
  rcases h with rfl | rfl <;> decide

theorem Between.ne_fieldName {q : Stage} (h : q.Between) : q ≠ fieldName := by
  rcases h with rfl | rfl <;> decide

theorem Between.wanted {q : Stage} (h : q.Between) : q.wanted = .closeBrace := by
  rcases h with rfl | rfl <;> rfl

theorem Between.next_word {q : Stage} (h : q.Between) (name : String) (tied : Bool) :
    q.next (.word name tied) = some fieldName := by
  rcases h with rfl | rfl <;> rfl

theorem Between.next_closeBrace {q : Stage} (h : q.Between) : q.next .closeBrace = some top := by
  rcases h with rfl | rfl <;> rfl

end Stage

open Stage

/-! ## Sentences are read through -/

theorem FieldForm.read {row : List Lexeme} (h : FieldForm row) {q : Stage} (hq : q.Between) :
    ∃ q', q'.Between ∧ q.read row = some q' := by
  cases h with
  | bare name typeRef tied tied' =>
    refine ⟨.fieldType, .inr rfl, ?_⟩
    rw [read_cons_of_next (hq.next_word name tied)]
    rfl
  | comma name typeRef tied tied' =>
    refine ⟨.body, .inl rfl, ?_⟩
    rw [read_cons_of_next (hq.next_word name tied)]
    rfl

theorem BodyForm.read {body : List Lexeme} (h : BodyForm body) {q : Stage} (hq : q.Between) :
    ∃ q', q'.Between ∧ q.read body = some q' := by
  induction h generalizing q with
  | nil => exact ⟨q, hq, rfl⟩
  | cons hrow _ ih =>
    obtain ⟨q₁, hq₁, hread₁⟩ := hrow.read hq
    obtain ⟨q₂, hq₂, hread₂⟩ := ih hq₁
    refine ⟨q₂, hq₂, ?_⟩
    rw [read_append_of_read hread₁, hread₂]

theorem Sentence.read {ls : List Lexeme} (h : Sentence ls) : Stage.top.read ls = some .top := by
  induction h with
  | nil => rfl
  | @cons kind name tied body ls hbody _ ih =>
    obtain ⟨q, hq, hread⟩ := hbody.read (.inl rfl)
    have hname : Stage.blockWord.next (.word name tied) = some .blockName := rfl
    have hopen : Stage.blockName.next .openBrace = some .body := rfl
    rw [read_cons_of_next (next_top kind), read_cons_of_next hname, read_cons_of_next hopen,
      read_append_of_read hread, read_cons_of_next hq.next_closeBrace, ih]

theorem InBlock.read {p : List Lexeme} (h : InBlock p) :
    ∃ q, q.Between ∧ Stage.top.read p = some q := by
  obtain ⟨kind, name, tied, hls, hbody⟩ := h
  obtain ⟨q, hq, hread⟩ := hbody.read (.inl rfl)
  refine ⟨q, hq, ?_⟩
  rw [read_append_of_read hls.read, read_cons_of_next (next_top kind)]
  exact hread

theorem AwaitsColon.read {p : List Lexeme} (h : AwaitsColon p) :
    Stage.top.read p = some .fieldName := by
  obtain ⟨name, tied, hp⟩ := h
  obtain ⟨q, hq, hread⟩ := hp.read
  rw [read_append_of_read hread, read_cons_of_next (hq.next_word name tied), read_nil]

/-! ## What is read through begins a sentence -/

theorem BodyForm.append {body body' : List Lexeme} (h : BodyForm body) (h' : BodyForm body') :
    BodyForm (body ++ body') := by
  induction h with
  | nil => exact h'
  | cons hrow _ ih =>
    rw [List.append_assoc]
    exact .cons hrow ih

theorem Sentence.append {ls ls' : List Lexeme} (h : Sentence ls) (h' : Sentence ls') :
    Sentence (ls ++ ls') := by
  induction h with
  | nil => exact h'
  | @cons kind name tied body ls hbody _ ih =>
    have := Sentence.cons kind name tied hbody ih
    simpa only [List.cons_append, List.append_assoc] using this

theorem InBlock.close {p : List Lexeme} (h : InBlock p) : Sentence (p ++ [.closeBrace]) := by
  obtain ⟨kind, name, tied, hls, hbody⟩ := h
  have := hls.append (Sentence.cons kind name tied hbody .nil)
  simpa only [List.append_assoc, List.cons_append] using this

theorem InBlock.field {p row : List Lexeme} (h : InBlock p) (hrow : FieldForm row) :
    InBlock (p ++ row) := by
  obtain ⟨kind, name, tied, hls, hbody⟩ := h
  have hfield := BodyForm.cons hrow .nil
  rw [List.append_nil] at hfield
  have := InBlock.intro kind name tied hls (hbody.append hfield)
  simpa only [List.append_assoc, List.cons_append] using this

namespace Stage

/-- What a stage says about the row that was read. A comma may come right after a type. -/
def Reached : Stage → List Lexeme → Prop
  | top, p => Sentence p
  | blockWord, p => ∃ s, ∃ kind : DeclarationKind, Sentence s ∧ p = s ++ [.word kind.word false]
  | blockName, p => ∃ s, ∃ kind : DeclarationKind, ∃ name tied, Sentence s ∧
      p = s ++ [.word kind.word false, .word name tied]
  | body, p => InBlock p
  | fieldName, p => AwaitsColon p
  | fieldColon, p => ∃ s, AwaitsColon s ∧ p = s ++ [.colon]
  | fieldType, p => InBlock p ∧ InBlock (p ++ [.comma])

theorem Between.inBlock {q : Stage} (hq : q.Between) {p : List Lexeme} (h : q.Reached p) :
    InBlock p := by
  rcases hq with rfl | rfl
  · exact h
  · exact h.1

/-- A stage between fields, whichever it is, goes on to a field name or to the end of the block. -/
theorem Between.reached_next {q q' : Stage} (hq : q.Between) {p : List Lexeme}
    (h : q.Reached p) {l : Lexeme} (hl : l ≠ .comma) (hnext : q.next l = some q') :
    q'.Reached (p ++ [l]) := by
  have hp := hq.inBlock h
  cases l with
  | word name tied =>
    rw [hq.next_word, Option.some.injEq] at hnext
    subst hnext
    exact .intro name tied hp
  | closeBrace =>
    rw [hq.next_closeBrace, Option.some.injEq] at hnext
    subst hnext
    exact hp.close
  | comma => exact absurd rfl hl
  | _ => rcases hq with rfl | rfl <;> contradiction

theorem reached_next {q q' : Stage} {p : List Lexeme} (h : q.Reached p) {l : Lexeme}
    (hnext : q.next l = some q') : q'.Reached (p ++ [l]) := by
  cases q with
  | top =>
    obtain ⟨kind, hkind, rfl⟩ := Option.map_eq_some_iff.1 hnext
    rw [kind_of_blockKind? hkind]
    exact ⟨p, kind, h, rfl⟩
  | blockWord =>
    obtain ⟨s, kind, hs, rfl⟩ := h
    cases l with
    | word name tied =>
      cases hnext
      refine ⟨s, kind, name, tied, hs, ?_⟩
      rw [List.append_assoc, List.singleton_append]
    | _ => contradiction
  | blockName =>
    obtain ⟨s, kind, name, tied, hs, rfl⟩ := h
    cases l with
    | openBrace =>
      cases hnext
      have hblock := InBlock.intro kind name tied hs .nil
      rwa [Reached, List.append_assoc, List.cons_append, List.singleton_append]
    | _ => contradiction
  | body =>
    refine Between.reached_next (.inl rfl) h ?_ hnext
    rintro rfl
    contradiction
  | fieldName =>
    cases l with
    | colon =>
      cases hnext
      exact ⟨p, h, rfl⟩
    | _ => contradiction
  | fieldColon =>
    obtain ⟨_, ⟨name, tied, hp⟩, rfl⟩ := h
    cases l with
    | word typeRef tied' =>
      cases hnext
      have hbare := hp.field (.bare name typeRef tied tied')
      have hcomma := hp.field (.comma name typeRef tied tied')
      rw [Reached]
      simp only [List.append_assoc, List.cons_append, List.nil_append]
      exact ⟨hbare, hcomma⟩
    | _ => contradiction
  | fieldType =>
    by_cases hl : l = .comma
    · subst hl
      cases hnext
      exact h.2
    · exact Between.reached_next (.inr rfl) h hl hnext

theorem reached_of_read {p : List Lexeme} {q : Stage} (h : top.read p = some q) :
    q.Reached p := by
  -- the reader goes from left to right, so the last lexeme is the step
  induction p using List.reverseRecOn generalizing q with
  | nil =>
    cases h
    exact Sentence.nil
  | append_singleton p l ih =>
    rw [read_append, Option.bind_eq_some_iff] at h
    obtain ⟨q₀, hp, hl⟩ := h
    rw [read_cons, Option.bind_eq_some_iff] at hl
    obtain ⟨q₁, hnext, hq⟩ := hl
    cases hq
    exact reached_next (ih hp) hnext

/-- A row that finishes what was begun. -/
def completion : Stage → List Lexeme
  | top => []
  | blockWord => [.word "" false, .openBrace, .closeBrace]
  | blockName => [.openBrace, .closeBrace]
  | body => [.closeBrace]
  | fieldName => [.colon, .word "" false, .closeBrace]
  | fieldColon => [.word "" false, .closeBrace]
  | fieldType => [.closeBrace]

theorem read_completion (q : Stage) : q.read q.completion = some top := by
  cases q <;> rfl

end Stage

/-! ## What the reader decides -/

theorem sentence_iff {ls : List Lexeme} : Sentence ls ↔ Stage.top.read ls = some .top :=
  ⟨Sentence.read, reached_of_read⟩

theorem viable_iff {p : List Lexeme} : Viable p ↔ ∃ q, Stage.top.read p = some q := by
  constructor
  · rintro ⟨rest, h⟩
    have hread := h.read
    rw [read_append, Option.bind_eq_some_iff] at hread
    obtain ⟨q, hq, -⟩ := hread
    exact ⟨q, hq⟩
  · rintro ⟨q, hq⟩
    refine ⟨q.completion, sentence_iff.2 ?_⟩
    rw [read_append_of_read hq, read_completion]

theorem awaitsColon_iff {p : List Lexeme} :
    AwaitsColon p ↔ Stage.top.read p = some .fieldName :=
  ⟨AwaitsColon.read, reached_of_read⟩

theorem wants_iff {p : List Lexeme} {q : Stage} (h : Stage.top.read p = some q)
    {message : String} : Wants p message ↔ message = q.wanted.message := by
  constructor
  · intro hw
    cases hw with
    | top hp =>
      rw [hp.read] at h
      cases h
      rfl
    | blockWord kind hp =>
      rw [read_append_of_read hp.read, read_cons_of_next (next_top kind)] at h
      cases h
      rfl
    | blockName kind name tied hp =>
      rw [read_append_of_read hp.read, read_cons_of_next (next_top kind)] at h
      cases h
      rfl
    | body hp =>
      obtain ⟨q', hq', hread⟩ := hp.read
      rw [hread, Option.some.injEq] at h
      subst h
      rw [hq'.wanted]
      rfl
    | fieldName hp =>
      rw [hp.read] at h
      cases h
      rfl
    | fieldColon hp =>
      rw [read_append_of_read hp.read] at h
      cases h
      rfl
  · rintro rfl
    have hp := reached_of_read h
    cases q with
    | top => exact .top hp
    | blockWord =>
      obtain ⟨s, kind, hs, rfl⟩ := hp
      exact .blockWord kind hs
    | blockName =>
      obtain ⟨s, kind, name, tied, hs, rfl⟩ := hp
      exact .blockName kind name tied hs
    | body => exact .body hp
    | fieldName => exact .fieldName hp
    | fieldColon =>
      obtain ⟨s, hs, rfl⟩ := hp
      exact .fieldColon hs
    | fieldType => exact .body hp.1

/-! ## The first lexeme out of place -/

theorem Viable.of_append {p p' : List Lexeme} (h : Viable (p ++ p')) : Viable p := by
  obtain ⟨rest, hrest⟩ := h
  refine ⟨p' ++ rest, ?_⟩
  rwa [← List.append_assoc]

/-- No lexeme of a row is out of place before the row stops being viable. -/
theorem Viable.take {p : List Lexeme} (h : Viable p) (k : Nat) : Viable (p.take k) := by
  rw [← List.take_append_drop k p] at h
  exact h.of_append

theorem Offends.not_sentence {ls : List Lexeme} {k : Nat} (h : Offends ls k) : ¬ Sentence ls := by
  rcases h with hk | ⟨-, hs, -⟩
  · intro hs
    have hviable : Viable ls := ⟨[], by rwa [List.append_nil]⟩
    exact hk.1 (hviable.take k)
  · exact hs

/-- A row that ends too early offends at its end. -/
theorem offends_of_incomplete {p : List Lexeme} {q : Stage} (h : Stage.top.read p = some q)
    (hq : q ≠ .top) {k : Nat} : Offends p k ↔ k = p.length + 1 := by
  have hp : Viable p := viable_iff.2 ⟨q, h⟩
  have hs : ¬ Sentence p := by
    intro hs
    rw [hs.read, Option.some.injEq] at h
    exact hq h.symm
  constructor
  · rintro (hk | ⟨-, -, hk⟩)
    · exact absurd (hp.take k) hk.1
    · exact hk
  · intro hk
    exact .inr ⟨hp, hs, hk⟩

/-- A lexeme that cannot go on with the row before it offends. -/
theorem offends_of_stuck {p rest : List Lexeme} {l : Lexeme} {q : Stage}
    (h : Stage.top.read p = some q) (hl : q.next l = none) {k : Nat} :
    Offends (p ++ l :: rest) k ↔ k = p.length + 1 := by
  have hp : Viable p := viable_iff.2 ⟨q, h⟩
  have hread : Stage.top.read (p ++ [l]) = none := by
    rw [read_append_of_read h, read_cons, hl, Option.bind_none]
  have hpl : ¬ Viable (p ++ [l]) := by
    rw [viable_iff, hread]
    rintro ⟨_, hq⟩
    contradiction
  have hsplit : p ++ l :: rest = (p ++ [l]) ++ rest := by
    rw [List.append_assoc, List.singleton_append]
  have hlength : p.length + 1 = (p ++ [l]).length := by
    rw [List.length_append, List.length_singleton]
  have hmem : ¬ Viable ((p ++ l :: rest).take (p.length + 1)) := by
    rwa [hsplit, hlength, List.take_left]
  have hleast : IsLeast {k | ¬ Viable ((p ++ l :: rest).take k)} (p.length + 1) := by
    refine ⟨hmem, fun j hj => ?_⟩
    by_contra hlt
    have hle : j ≤ p.length := by omega
    refine hj ?_
    rw [List.take_append_of_le_length hle]
    exact hp.take j
  constructor
  · rintro (hk | ⟨hv, -, -⟩)
    · exact hk.unique hleast
    · rw [hsplit] at hv
      exact absurd hv.of_append hpl
  · rintro rfl
    exact .inl hleast

end ShapeCheck
