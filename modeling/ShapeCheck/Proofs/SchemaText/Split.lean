import ShapeCheck.Proofs.SchemaText.Spacing
import ShapeCheck.Proofs.Text.Position

/-
  How a text splits into tokens, with the offsets of the tokens. `Splits` is the rule: gaps, words
  as long as they can be, and single characters. Every text splits in exactly one way, which is the
  scan (`splits_iff`). `Token.Stands` says what a token of a split is to the text: it is spelled at
  its offset and outside of comments; and offsets grow from token to token (`Splits.stands`,
  `Splits.increasing`).
-/

namespace ShapeCheck

open ShapeCheck.Text

/-- A lexeme that ends where the rest of a text begins. A word is not followed by what could
lengthen it, and is tied if a dollar sign follows; any other character that neither belongs to a gap
nor begins a word is a lexeme by itself. -/
inductive Lexeme.Cut : Lexeme → List Char → Prop
  | word {name : String} {rest : List Char} : isIdentifier name = true →
      (∀ c, rest.head? = some c → isWordChar c = false) →
      Cut (.word name (rest.head? == some '$')) rest
  | mark {c : Char} {rest : List Char} : Token.isGap c = false → c ≠ '#' →
      isWordStart c = false → Cut (Token.mark c) rest

/-- The splits of a text into tokens, each with a gap before it, where `n` characters stand before
the text. -/
inductive Splits : Nat → List Token → List Char → Prop
  | nil {n : Nat} {g : List Char} : Trail g → Splits n [] g
  | cons {n : Nat} {g rest : List Char} {l : Lexeme} {ts : List Token} : Gap g → l.Cut rest →
      Splits (n + g.length + l.spelling.length) ts rest →
      Splits n (⟨l, n + g.length⟩ :: ts) (g ++ (l.spelling ++ rest))

/-! ## Lexemes that are cut from a text -/

theorem Token.spelling_mark (c : Char) : (Token.mark c).spelling = [c] := by
  unfold Token.mark
  split_ifs with h₁ h₂ h₃ h₄
  · rw [h₁]
    rfl
  · rw [h₂]
    rfl
  · rw [h₃]
    rfl
  · rw [h₄]
    rfl
  · rfl

theorem Token.isWord_mark (c : Char) : (Token.mark c).isWord = false := by
  unfold Token.mark
  split_ifs <;> rfl

theorem not_mem_of_isIdentifier {name : String} (hn : isIdentifier name = true) {c : Char}
    (hc : isWordChar c = false) : c ∉ name.toList := by
  obtain ⟨d, ds, hname, hd, hds⟩ := Token.toList_of_isIdentifier hn
  intro hmem
  rw [hname] at hmem
  have hword : isWordChar c = true := by
    rcases List.mem_cons.1 hmem with rfl | hmem
    · exact Token.isWordChar_of_isWordStart hd
    · exact hds c hmem
  rw [hc] at hword
  contradiction

namespace Lexeme.Cut

variable {l : Lexeme} {rest : List Char}

theorem spelling_ne_nil (h : l.Cut rest) : l.spelling ≠ [] := by
  cases h with
  | word hname _ =>
    obtain ⟨c, cs, hcs, -, -⟩ := Token.toList_of_isIdentifier hname
    rw [spelling, hcs]
    exact List.cons_ne_nil c cs
  | @mark c _ _ _ _ =>
    rw [Token.spelling_mark]
    exact List.cons_ne_nil c []

/-- No character of a gap, and no hash sign, belongs to a lexeme. -/
theorem not_mem_spelling (h : l.Cut rest) {c : Char} (hc : Token.isGap c = true ∨ c = '#') :
    c ∉ l.spelling := by
  cases h with
  | word hname _ =>
    refine not_mem_of_isIdentifier hname ?_
    rcases hc with hc | rfl
    · exact Token.isWordChar_of_isGap hc
    · decide
  | @mark d _ hg hh _ =>
    rw [Token.spelling_mark, List.mem_singleton]
    rintro rfl
    rcases hc with hc | hc
    · rw [hg] at hc
      contradiction
    · exact hh hc

theorem ends (h : l.Cut rest) (hw : l.isWord = true) :
    ∀ c, rest.head? = some c → isWordChar c = false := by
  cases h with
  | word _ hrest => exact hrest
  | @mark c _ _ _ _ =>
    rw [Token.isWord_mark] at hw
    contradiction

end Lexeme.Cut

/-! ## The scan splits -/

theorem Gap.append {g g' : List Char} (hg : Gap g) (hg' : Gap g') : Gap (g ++ g') := by
  induction hg with
  | nil => exact hg'
  | blank hc _ ih => exact .blank hc ih
  | @comment body g hb _ ih =>
    have := Gap.comment hb ih
    rwa [List.cons_append, List.append_assoc, List.cons_append]

theorem Gap.trail {g t : List Char} (hg : Gap g) (ht : Trail t) : Trail (g ++ t) := by
  cases ht with
  | gap ht => exact .gap (hg.append ht)
  | comment ht hb =>
    rw [← List.append_assoc]
    exact .comment (hg.append ht) hb

/-- A gap before a text moves its tokens. -/
theorem Splits.gap {g s : List Char} {n : Nat} {ts : List Token} (hg : Gap g)
    (h : Splits (n + g.length) ts s) : Splits n ts (g ++ s) := by
  generalize hm : n + g.length = m at h
  cases h with
  | nil ht => exact .nil (hg.trail ht)
  | @cons _ g' rest l ts hg' hl ht =>
    have hstart : m + g'.length = n + (g ++ g').length := by
      rw [List.length_append]
      omega
    rw [hstart] at ht ⊢
    rw [← List.append_assoc]
    exact .cons (hg.append hg') hl ht

namespace Token

theorem isIdentifier_ofList {c : Char} {cs : List Char} (hc : isWordStart c = true)
    (hcs : ∀ d ∈ cs, isWordChar d = true) : isIdentifier (String.ofList (c :: cs)) = true := by
  unfold isIdentifier
  rw [String.toList_ofList]
  simpa [hc] using hcs

theorem splits_scan (n : Nat) (s : List Char) : Splits n (scan n s) s := by
  induction s using scan_induction generalizing n with
  | nil =>
    rw [scan]
    exact .nil (.gap .nil)
  | gap c s hg ih =>
    rw [scan_gap hg]
    exact .gap (.blank hg .nil) (ih (n + 1))
  | comment body s hb ih =>
    have hgap : Gap ('#' :: (body ++ ['\n'])) := .comment hb .nil
    have hlength : n + 1 + body.length + 1 = n + ('#' :: (body ++ ['\n'])).length := by
      simp only [List.length_cons, List.length_append, List.length_nil]
      omega
    rw [scan_comment, takeWhile_comment hb, dropWhile_comment hb,
      List.dropWhile_cons_of_neg (by decide), scan_gap (by decide), hlength]
    have h := Splits.gap hgap (ih (n + ('#' :: (body ++ ['\n'])).length))
    rwa [List.cons_append, List.append_assoc, List.singleton_append] at h
  | last body hb =>
    have hdrop : body.dropWhile (· != '\n') = [] := by
      rw [← List.append_nil body, dropWhile_comment hb, List.dropWhile_nil]
    rw [scan_comment, hdrop, scan]
    exact .nil (.comment .nil hb)
  | word c s hw ih =>
    have hmore : ∀ d ∈ s.takeWhile isWordChar, isWordChar d = true :=
      List.all_eq_true.1 List.all_takeWhile
    have hlength : n + 1 + (s.takeWhile isWordChar).length =
        n + (c :: s.takeWhile isWordChar).length := by
      rw [List.length_cons]
      omega
    have hrest : ∀ d, (s.dropWhile isWordChar).head? = some d → isWordChar d = false :=
      fun _ hd => isWordChar_head_dropWhile hd
    have hcut := Lexeme.Cut.word (isIdentifier_ofList hw hmore) hrest
    have h := Splits.cons (n := n) .nil hcut (ih _)
    rw [scan_word hw, hlength]
    rwa [List.nil_append, Lexeme.spelling, String.toList_ofList, List.cons_append,
      List.takeWhile_append_dropWhile, List.length_nil, Nat.add_zero] at h
  | mark c s hg hc hw ih =>
    have h := Splits.cons (n := n) .nil (.mark hg hc hw) (ih _)
    rw [scan_mark hg hc hw]
    rwa [spelling_mark] at h

theorem scan_of_trail {g : List Char} (hg : Trail g) (n : Nat) : scan n g = [] := by
  have hlexemes := lexemes_of_trail hg
  rw [lexemes, map_lexeme_scan 0 n] at hlexemes
  exact List.map_eq_nil_iff.1 hlexemes

theorem scan_of_cut {l : Lexeme} {rest : List Char} (hl : l.Cut rest) (n : Nat) :
    scan n (l.spelling ++ rest) = ⟨l, n⟩ :: scan (n + l.spelling.length) rest := by
  cases hl with
  | @word name _ hname hrest =>
    obtain ⟨c, cs, hcs, hc, hmore⟩ := toList_of_isIdentifier hname
    have hlength : n + 1 + cs.length = n + name.toList.length := by
      rw [hcs, List.length_cons]
      omega
    rw [Lexeme.spelling, hcs, List.cons_append, scan_word hc, takeWhile_append_of_head? hmore hrest,
      dropWhile_append_of_head? hmore hrest, hlength, ← hcs, String.ofList_toList]
  | @mark c _ hg hh hw =>
    rw [spelling_mark, List.singleton_append, scan_mark hg hh hw]
    rfl

end Token

/-- A text splits in one way. -/
theorem splits_iff {n : Nat} {ts : List Token} {s : List Char} :
    Splits n ts s ↔ ts = Token.scan n s := by
  constructor
  · intro h
    induction h with
    | nil hg => exact (Token.scan_of_trail hg _).symm
    | cons hg hl _ ih => rw [Token.scan_gap_append hg, Token.scan_of_cut hl, ← ih]
  · rintro rfl
    exact Token.splits_scan n s

/-! ## Lines with comments -/

theorem hash_not_mem_lastLine_append {s t : List Char} (hs : '#' ∉ lastLine s)
    (ht : '\n' ∉ t) (hh : '#' ∉ t) : '#' ∉ lastLine (s ++ t) := by
  rw [lastLine_append ht, List.mem_append]
  exact not_or.2 ⟨hs, hh⟩

/-- A gap after a line without comments ends on such a line. -/
theorem Gap.hash_not_mem {g : List Char} (hg : Gap g) {s : List Char} (hs : '#' ∉ lastLine s) :
    '#' ∉ lastLine (s ++ g) := by
  induction hg generalizing s with
  | nil => rwa [List.append_nil]
  | @blank c g hc _ ih =>
    have hsingle : '#' ∉ lastLine (s ++ [c]) := by
      by_cases hn : c = '\n'
      · subst hn
        rw [lastLine_append_cons]
        exact List.not_mem_nil
      · refine hash_not_mem_lastLine_append hs ?_ ?_
        · simpa using Ne.symm hn
        · rw [List.mem_singleton]
          rintro rfl
          exact absurd hc (by decide)
    have := ih hsingle
    rwa [List.append_assoc, List.singleton_append] at this
  | @comment body g _ _ ih =>
    have hend : '#' ∉ lastLine (s ++ '#' :: body ++ ['\n']) := by
      rw [lastLine_append_cons]
      exact List.not_mem_nil
    have := ih hend
    rwa [List.append_assoc, List.append_assoc, List.singleton_append, List.cons_append] at this

/-! ## Tokens in their text -/

/-- What a token is to a text: it is spelled at its offset, which is in no comment, and a word is
followed by nothing that could lengthen it. A comment runs from a hash sign to the end of the line,
so an offset is in a comment if a hash sign stands before it on its line. -/
structure Token.Stands (text : List Char) (t : Token) (rest : List Char) : Prop where
  spelled : text.drop t.start = t.lexeme.spelling ++ rest
  ends : t.lexeme.isWord = true → ∀ c, rest.head? = some c → isWordChar c = false
  uncommented : '#' ∉ lineBefore text t.start

/-- A token that stands last stands last after another token too. -/
theorem getLast?_cons_of_getLast? {ts : List Token} {t : Token} (h : ts.getLast? = some t)
    (t' : Token) : (t' :: ts).getLast? = some t := by
  cases ts with
  | nil => contradiction
  | cons => rwa [List.getLast?_cons_cons]

namespace Splits

variable {n : Nat} {ts : List Token} {s : List Char}

theorem eq_nil (h : Splits n ts []) : ts = [] := by
  rw [splits_iff] at h
  rw [h, Token.scan]

/-- The tokens of a split stand in the text, and only the last one may have nothing after it. -/
theorem stands (h : Splits n ts s) {before : List Char} (hn : before.length = n)
    (hbefore : '#' ∉ lastLine before) :
    ∀ t ∈ ts, ∃ rest, t.Stands (before ++ s) rest ∧ (rest = [] → ts.getLast? = some t) := by
  -- `before` grows by a gap and a lexeme at each step, neither of which leaves a comment open
  induction h generalizing before with
  | nil => exact List.forall_mem_nil _
  | @cons n g rest l ts hg hl ht ih =>
    have hline := hg.hash_not_mem hbefore
    have hlength : n + g.length = (before ++ g).length := by
      rw [List.length_append, hn]
    refine List.forall_mem_cons.2 ⟨⟨rest, ⟨?_, hl.ends, ?_⟩, ?_⟩, fun t hmem => ?_⟩
    · rw [hlength, ← List.append_assoc, List.drop_left]
    · rw [hlength, ← List.append_assoc, lineBefore_eq, List.take_left]
      exact hline
    · rintro rfl
      rw [ht.eq_nil]
      rfl
    · have hend : (before ++ g ++ l.spelling).length = n + g.length + l.spelling.length := by
        rw [List.length_append, hlength]
      have hline' := hash_not_mem_lastLine_append hline (hl.not_mem_spelling (.inl (by decide)))
        (hl.not_mem_spelling (.inr rfl))
      obtain ⟨rest', hstands, hlast⟩ := ih hend hline' t hmem
      rw [List.append_assoc, List.append_assoc] at hstands
      exact ⟨rest', hstands, fun he => getLast?_cons_of_getLast? (hlast he) _⟩

/-- Offsets grow from token to token and stay within the text. -/
theorem increasing (h : Splits n ts s) : (ts.map Token.start).Pairwise (· < ·) ∧
    ∀ t ∈ ts, n ≤ t.start ∧ t.start < n + s.length := by
  induction h with
  | nil => exact ⟨List.Pairwise.nil, List.forall_mem_nil _⟩
  | @cons n g rest l ts hg hl ht ih =>
    obtain ⟨hpairwise, hbounds⟩ := ih
    have hpos : 0 < l.spelling.length := List.length_pos_iff.2 hl.spelling_ne_nil
    have hlength : (g ++ (l.spelling ++ rest)).length =
        g.length + (l.spelling.length + rest.length) := by
      rw [List.length_append, List.length_append]
    rw [hlength]
    refine ⟨List.Pairwise.cons (fun i hi => ?_) hpairwise, List.forall_mem_cons.2 ⟨?_, ?_⟩⟩
    · obtain ⟨t, hmem, rfl⟩ := List.mem_map.1 hi
      have ht := hbounds t hmem
      dsimp only
      omega
    · dsimp only
      omega
    · intro t hmem
      have ht := hbounds t hmem
      omega

end Splits

end ShapeCheck
