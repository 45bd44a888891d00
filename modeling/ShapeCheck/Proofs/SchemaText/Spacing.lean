import ShapeCheck.Schema.Token

/-
  How a row of lexemes stands in a text: `Spaced` puts gaps, which are runs of blanks and comments,
  before, between and after them, and leaves out a gap only where no two words would run together.
  `lexemes_of_spaced` and `spaced_lexemes`: the scan reads a row of plain lexemes off a text exactly
  if the text spaces that row. Tabs are expanded before the scan, which changes no lexeme
  (`lexemes_expandTabs`).
-/

namespace ShapeCheck

open ShapeCheck.Text

/-- A letter or an underscore, then letters, digits and underscores. -/
def isIdentifier (name : String) : Bool :=
  match name.toList with
  | [] => false
  | c :: cs => isWordStart c && cs.all isWordChar

namespace Lexeme

/-- The characters that write a lexeme. -/
def spelling : Lexeme → List Char
  | word name _ => name.toList
  | openBrace => ['\x7b']
  | closeBrace => ['\x7d']
  | colon => [':']
  | comma => [',']
  | other c => [c]

def isWord : Lexeme → Bool
  | word .. => true
  | _ => false

/-- An identifier with no dollar sign after it, or one of the marks that a schema uses. -/
def isPlain : Lexeme → Bool
  | word name tied => !tied && isIdentifier name
  | other _ => false
  | _ => true

end Lexeme

/-- What may stand before a token: blanks and comments, each comment up to its line feed. -/
inductive Gap : List Char → Prop
  | nil : Gap []
  | blank {c : Char} {g : List Char} : Token.isGap c = true → Gap g → Gap (c :: g)
  | comment {body g : List Char} : '\n' ∉ body → Gap g → Gap ('#' :: (body ++ '\n' :: g))

/-- What may stand after the last token, where the end of the text ends a comment too. -/
inductive Trail : List Char → Prop
  | gap {g : List Char} : Gap g → Trail g
  | comment {g body : List Char} : Gap g → '\n' ∉ body → Trail (g ++ '#' :: body)

/-- The texts that write a row of lexemes. `afterWord` tells whether a word stands right before the
text: then another word needs a gap before it. -/
inductive Spaced : Bool → List Lexeme → List Char → Prop
  | nil {afterWord : Bool} {g : List Char} : Trail g → Spaced afterWord [] g
  | cons {afterWord : Bool} {l : Lexeme} {ls : List Lexeme} {g t : List Char} : Gap g →
      (afterWord = true → l.isWord = true → g ≠ []) → Spaced l.isWord ls t →
      Spaced afterWord (l :: ls) (g ++ (l.spelling ++ t))

/-! ## The lexemes of a text -/

namespace Token

/-- The lexemes of a text without their places. -/
def lexemes (s : List Char) : List Lexeme := (scan 0 s).map Token.lexeme

theorem map_lexeme_scan (n m : Nat) (s : List Char) :
    (scan n s).map Token.lexeme = (scan m s).map Token.lexeme := by
  fun_induction scan n s generalizing m with
  | case1 => rw [scan]
  | case2 n c s hg ih => rw [scan_gap hg, ih]
  | case3 n s hg comment ih => rw [scan_comment, ih]
  | case4 n c s hg hc hw more rest ih => rw [scan_word hw, List.map_cons, List.map_cons, ih]
  | case5 n c s hg hc hw ih =>
    rw [scan_mark (by simpa using hg) hc (by simpa using hw), List.map_cons, List.map_cons, ih]

theorem lexemes_nil : lexemes [] = [] := by rw [lexemes, scan, List.map_nil]

theorem lexemes_gap {c : Char} (h : isGap c = true) (s : List Char) :
    lexemes (c :: s) = lexemes s := by
  rw [lexemes, scan_gap h]
  exact map_lexeme_scan _ _ s

theorem lexemes_comment (s : List Char) :
    lexemes ('#' :: s) = lexemes (s.dropWhile (· != '\n')) := by
  rw [lexemes, scan_comment]
  exact map_lexeme_scan _ _ _

theorem lexemes_word {c : Char} (h : isWordStart c = true) (s : List Char) :
    lexemes (c :: s) = .word (String.ofList (c :: s.takeWhile isWordChar))
      ((s.dropWhile isWordChar).head? == some '$') :: lexemes (s.dropWhile isWordChar) := by
  rw [lexemes, scan_word h, List.map_cons]
  exact congrArg _ (map_lexeme_scan _ _ _)

theorem lexemes_mark {c : Char} (hg : isGap c = false) (hc : c ≠ '#') (hw : isWordStart c = false)
    (s : List Char) : lexemes (c :: s) = mark c :: lexemes s := by
  rw [lexemes, scan_mark hg hc hw, List.map_cons]
  exact congrArg _ (map_lexeme_scan _ _ _)

/-- Induction along the scan of a text: blank by blank, comment by comment, lexeme by lexeme. -/
@[elab_as_elim]
theorem scan_induction {P : List Char → Prop} (nil : P [])
    (gap : ∀ c s, isGap c = true → P s → P (c :: s))
    (comment : ∀ body s, '\n' ∉ body → P s → P ('#' :: (body ++ '\n' :: s)))
    (last : ∀ body, '\n' ∉ body → P ('#' :: body))
    (word : ∀ c s, isWordStart c = true → P (s.dropWhile isWordChar) → P (c :: s))
    (mark : ∀ c s, isGap c = false → c ≠ '#' → isWordStart c = false → P s → P (c :: s))
    (s : List Char) : P s := by
  induction hn : s.length using Nat.strongRecOn generalizing s with
  | ind n ih =>
    cases s with
    | nil => exact nil
    | cons c s =>
      have hlt : s.length < n := by rw [← hn, List.length_cons]; omega
      have hdrop (p : Char → Bool) : (s.dropWhile p).length ≤ s.length :=
        (List.dropWhile_sublist p).length_le
      cases hg : isGap c with
      | true => exact gap c s hg (ih _ hlt s rfl)
      | false =>
        by_cases hc : c = '#'
        · have hs : s.takeWhile (· != '\n') ++ s.dropWhile (· != '\n') = s :=
            List.takeWhile_append_dropWhile
          have hb : '\n' ∉ s.takeWhile (· != '\n') := fun hm =>
            absurd (List.all_eq_true.1 List.all_takeWhile _ hm) (by decide)
          have hhead := List.head?_dropWhile_not (· != '\n') s
          subst hc
          cases hd : s.dropWhile (· != '\n') with
          | nil =>
            rw [hd, List.append_nil] at hs
            exact last s (hs ▸ hb)
          | cons d t =>
            rw [hd] at hs hhead
            have hdn : d = '\n' := by simpa using hhead
            subst hdn
            have ht := hdrop (· != '\n')
            rw [hd, List.length_cons] at ht
            have := comment _ t hb (ih t.length (by omega) t rfl)
            rwa [hs] at this
        · cases hw : isWordStart c with
          | true => exact word c s hw (ih _ (Nat.lt_of_le_of_lt (hdrop _) hlt) _ rfl)
          | false => exact mark c s hg hc hw (ih _ hlt s rfl)

theorem dropWhile_comment {body : List Char} (hb : '\n' ∉ body) (t : List Char) :
    (body ++ t).dropWhile (· != '\n') = t.dropWhile (· != '\n') :=
  List.dropWhile_append_of_pos fun _ hc => bne_iff_ne.2 fun he => hb (he ▸ hc)

theorem takeWhile_comment {body : List Char} (hb : '\n' ∉ body) (s : List Char) :
    (body ++ '\n' :: s).takeWhile (· != '\n') = body := by
  have hall : ∀ c ∈ body, (c != '\n') = true := fun c hc => bne_iff_ne.2 fun he => hb (he ▸ hc)
  rw [List.takeWhile_append_of_pos hall, List.takeWhile_cons_of_neg (by decide), List.append_nil]

theorem lexemes_comment_append {body : List Char} (hb : '\n' ∉ body) (t : List Char) :
    lexemes ('#' :: (body ++ '\n' :: t)) = lexemes t := by
  rw [lexemes_comment, dropWhile_comment hb, List.dropWhile_cons_of_neg (by decide),
    lexemes_gap (by decide)]

theorem lexemes_last_comment {body : List Char} (hb : '\n' ∉ body) :
    lexemes ('#' :: body) = [] := by
  rw [lexemes_comment, ← List.append_nil body, dropWhile_comment hb, List.dropWhile_nil,
    lexemes_nil]

/-! ## Tabs -/

theorem expandTabs_cons_of_ne_tab {c : Char} (hc : c ≠ '\t') (column : Nat) (s : List Char) :
    ∃ column', expandTabs column (c :: s) = c :: expandTabs column' s := by
  rw [expandTabs, if_neg hc]
  split
  · exact ⟨0, rfl⟩
  · exact ⟨column + 1, rfl⟩

/-- A tab becomes at least one blank. -/
theorem expandTabs_tab (column : Nat) (s : List Char) :
    ∃ n column', expandTabs column ('\t' :: s) =
      ' ' :: (List.replicate n ' ' ++ expandTabs column' s) := by
  refine ⟨7 - column % 8, column + (8 - column % 8), ?_⟩
  have hw : 8 - column % 8 = 7 - column % 8 + 1 := by omega
  rw [expandTabs, if_pos rfl]
  dsimp only
  rw [hw, List.replicate_succ, List.cons_append]

theorem dropWhile_replicate_append {p : Char → Bool} {c : Char} (hc : p c = true) (n : Nat)
    (s : List Char) : (List.replicate n c ++ s).dropWhile p = s.dropWhile p := by
  rw [List.dropWhile_append_of_pos]
  intro x hx
  rw [List.eq_of_mem_replicate hx, hc]

/-- Tabs may be expanded after a run of characters is dropped if tabs and blanks are dropped
alike. -/
theorem dropWhile_expandTabs {p : Char → Bool} (hp : p ' ' = p '\t') (column : Nat)
    (s : List Char) :
    ∃ column', (expandTabs column s).dropWhile p = expandTabs column' (s.dropWhile p) := by
  induction s generalizing column with
  | nil => exact ⟨column, rfl⟩
  | cons c s ih =>
    cases hc : p c with
    | false =>
      refine ⟨column, ?_⟩
      rw [List.dropWhile_cons_of_neg (by rw [hc]; decide)]
      by_cases ht : c = '\t'
      · subst ht
        obtain ⟨n, column', he⟩ := expandTabs_tab column s
        rw [he, List.dropWhile_cons_of_neg (by rw [hp, hc]; decide)]
      · obtain ⟨column', he⟩ := expandTabs_cons_of_ne_tab ht column s
        rw [he, List.dropWhile_cons_of_neg (by rw [hc]; decide)]
    | true =>
      rw [List.dropWhile_cons_of_pos hc]
      by_cases ht : c = '\t'
      · subst ht
        obtain ⟨n, column', he⟩ := expandTabs_tab column s
        rw [he, List.dropWhile_cons_of_pos (hp.trans hc),
          dropWhile_replicate_append (hp.trans hc)]
        exact ih column'
      · obtain ⟨column', he⟩ := expandTabs_cons_of_ne_tab ht column s
        rw [he, List.dropWhile_cons_of_pos hc]
        exact ih column'

theorem takeWhile_isWordChar_expandTabs (column : Nat) (s : List Char) :
    (expandTabs column s).takeWhile isWordChar = s.takeWhile isWordChar := by
  induction s generalizing column with
  | nil => rfl
  | cons c s ih =>
    by_cases ht : c = '\t'
    · subst ht
      obtain ⟨n, column', he⟩ := expandTabs_tab column s
      rw [he, List.takeWhile_cons_of_neg (by decide), List.takeWhile_cons_of_neg (by decide)]
    · obtain ⟨column', he⟩ := expandTabs_cons_of_ne_tab ht column s
      rw [he, List.takeWhile_cons, List.takeWhile_cons, ih]

theorem head?_expandTabs_eq_dollar (column : Nat) (s : List Char) :
    ((expandTabs column s).head? == some '$') = (s.head? == some '$') := by
  cases s with
  | nil => rfl
  | cons c s =>
    by_cases ht : c = '\t'
    · subst ht
      obtain ⟨n, column', he⟩ := expandTabs_tab column s
      rw [he]
      rfl
    · obtain ⟨column', he⟩ := expandTabs_cons_of_ne_tab ht column s
      rw [he]
      rfl

theorem lexemes_replicate (n : Nat) (s : List Char) :
    lexemes (List.replicate n ' ' ++ s) = lexemes s := by
  induction n with
  | zero => rfl
  | succ n ih => rw [List.replicate_succ, List.cons_append, lexemes_gap (by decide), ih]

/-- Expanding tabs changes the places of lexemes only. -/
theorem lexemes_expandTabs (column : Nat) (s : List Char) :
    lexemes (expandTabs column s) = lexemes s := by
  induction s using scan_induction generalizing column with
  | nil => rfl
  | gap c s hg ih =>
    by_cases ht : c = '\t'
    · subst ht
      obtain ⟨n, column', he⟩ := expandTabs_tab column s
      rw [he, lexemes_gap (by decide), lexemes_replicate, lexemes_gap hg, ih]
    · obtain ⟨column', he⟩ := expandTabs_cons_of_ne_tab ht column s
      rw [he, lexemes_gap hg, lexemes_gap hg, ih]
  | comment body s hb ih =>
    obtain ⟨column₁, h₁⟩ :=
      expandTabs_cons_of_ne_tab (c := '#') (by decide) column (body ++ '\n' :: s)
    obtain ⟨column₂, h₂⟩ :=
      dropWhile_expandTabs (p := (· != '\n')) (by decide) column₁ (body ++ '\n' :: s)
    obtain ⟨column₃, h₃⟩ := expandTabs_cons_of_ne_tab (c := '\n') (by decide) column₂ s
    rw [h₁, lexemes_comment, h₂, lexemes_comment_append hb, dropWhile_comment hb,
      List.dropWhile_cons_of_neg (by decide), h₃, lexemes_gap (by decide), ih]
  | last body hb =>
    obtain ⟨column₁, h₁⟩ := expandTabs_cons_of_ne_tab (c := '#') (by decide) column body
    obtain ⟨column₂, h₂⟩ := dropWhile_expandTabs (p := (· != '\n')) (by decide) column₁ body
    have hd : body.dropWhile (· != '\n') = [] := by
      rw [← List.append_nil body, dropWhile_comment hb, List.dropWhile_nil]
    rw [h₁, lexemes_comment, h₂, hd, lexemes_last_comment hb, expandTabs, lexemes_nil]
  | word c s hw ih =>
    have ht : c ≠ '\t' := by
      rintro rfl
      exact absurd hw (by decide)
    obtain ⟨column₁, h₁⟩ := expandTabs_cons_of_ne_tab ht column s
    obtain ⟨column₂, h₂⟩ := dropWhile_expandTabs (p := isWordChar) (by decide) column₁ s
    rw [h₁, lexemes_word hw, lexemes_word hw, h₂, takeWhile_isWordChar_expandTabs,
      head?_expandTabs_eq_dollar, ih]
  | mark c s hg hc hw ih =>
    have ht : c ≠ '\t' := by
      rintro rfl
      exact absurd hg (by decide)
    obtain ⟨column₁, h₁⟩ := expandTabs_cons_of_ne_tab ht column s
    rw [h₁, lexemes_mark hg hc hw, lexemes_mark hg hc hw, ih]

/-! ## Reading a spaced row -/

/-- A gap before a text only moves its tokens. -/
theorem scan_gap_append {g : List Char} (hg : Gap g) (n : Nat) (t : List Char) :
    scan n (g ++ t) = scan (n + g.length) t := by
  induction hg generalizing n with
  | nil => rfl
  | @blank c g hc _ ih =>
    have hlength : n + 1 + g.length = n + (c :: g).length := by
      rw [List.length_cons]
      omega
    rw [List.cons_append, scan_gap hc, ih, hlength]
  | @comment body g hb _ ih =>
    have hlength : n + 1 + body.length + 1 + g.length =
        n + ('#' :: (body ++ '\n' :: g)).length := by
      simp only [List.length_cons, List.length_append]
      omega
    rw [List.cons_append, List.append_assoc, List.cons_append, scan_comment, takeWhile_comment hb,
      dropWhile_comment hb, List.dropWhile_cons_of_neg (by decide), scan_gap (by decide), ih,
      hlength]

theorem lexemes_gap_append {g : List Char} (hg : Gap g) (t : List Char) :
    lexemes (g ++ t) = lexemes t := by
  rw [lexemes, scan_gap_append hg]
  exact map_lexeme_scan _ _ t

theorem lexemes_of_trail {g : List Char} (hg : Trail g) : lexemes g = [] := by
  cases hg with
  | gap hg => rw [← List.append_nil g, lexemes_gap_append hg, lexemes_nil]
  | comment hg hb => rw [lexemes_gap_append hg, lexemes_last_comment hb]

end Token

/-- The first character is none that could lengthen or tie a word before it. -/
def EndsWord (t : List Char) : Prop := ∀ c, t.head? = some c → isWordChar c = false ∧ c ≠ '$'

theorem EndsWord.nil : EndsWord [] := by
  intro c hc
  contradiction

theorem EndsWord.cons {c : Char} (hc : isWordChar c = false) (hd : c ≠ '$') (t : List Char) :
    EndsWord (c :: t) := fun _ h => Option.some.inj h ▸ ⟨hc, hd⟩

theorem EndsWord.hash (t : List Char) : EndsWord ('#' :: t) := .cons (by decide) (by decide) t

theorem EndsWord.cons_of_isGap {c : Char} (h : Token.isGap c = true) (t : List Char) :
    EndsWord (c :: t) := by
  refine .cons (Token.isWordChar_of_isGap h) ?_ t
  rintro rfl
  exact absurd h (by decide)

theorem Gap.endsWord {g : List Char} (hg : Gap g) (hne : g ≠ []) (t : List Char) :
    EndsWord (g ++ t) := by
  cases hg with
  | nil => exact absurd rfl hne
  | blank hc _ => exact .cons_of_isGap hc _
  | comment _ _ => exact .hash _

theorem Trail.endsWord {g : List Char} (hg : Trail g) : EndsWord g := by
  cases hg with
  | gap hg =>
    by_cases hne : g = []
    · rw [hne]
      exact .nil
    · simpa using hg.endsWord hne []
  | @comment g body hg _ =>
    by_cases hne : g = []
    · rw [hne]
      exact .hash body
    · exact hg.endsWord hne _

theorem Lexeme.endsWord_of_isPlain {l : Lexeme} (hl : l.isPlain = true) (hw : l.isWord = false)
    (t : List Char) : EndsWord (l.spelling ++ t) := by
  cases l with
  | word => exact absurd hw (by simp [isWord])
  | other => exact absurd hl (by simp [isPlain])
  | openBrace => exact .cons (by decide) (by decide) t
  | closeBrace => exact .cons (by decide) (by decide) t
  | colon => exact .cons (by decide) (by decide) t
  | comma => exact .cons (by decide) (by decide) t

/-- After a word, a spaced row goes on with what ends the word. -/
theorem Spaced.endsWord {ls : List Lexeme} {t : List Char} (h : Spaced true ls t)
    (hls : ∀ l ∈ ls, l.isPlain = true) : EndsWord t := by
  cases h with
  | nil hg => exact hg.endsWord
  | @cons _ l ls g t hg hsep ht =>
    by_cases hne : g = []
    · have hw : l.isWord = false := by
        cases hw : l.isWord with
        | false => rfl
        | true => exact absurd hne (hsep rfl hw)
      rw [hne]
      exact Lexeme.endsWord_of_isPlain (hls l (List.mem_cons_self ..)) hw t
    · exact hg.endsWord hne _

namespace Token

theorem takeWhile_append_of_head? {cs t : List Char} (hcs : ∀ c ∈ cs, isWordChar c = true)
    (ht : ∀ c, t.head? = some c → isWordChar c = false) : (cs ++ t).takeWhile isWordChar = cs := by
  rw [List.takeWhile_append_of_pos hcs]
  cases t with
  | nil => rw [List.takeWhile_nil, List.append_nil]
  | cons c t =>
    have hc := ht c rfl
    rw [List.takeWhile_cons_of_neg (by simp [hc]), List.append_nil]

theorem dropWhile_append_of_head? {cs t : List Char} (hcs : ∀ c ∈ cs, isWordChar c = true)
    (ht : ∀ c, t.head? = some c → isWordChar c = false) : (cs ++ t).dropWhile isWordChar = t := by
  rw [List.dropWhile_append_of_pos hcs]
  cases t with
  | nil => rw [List.dropWhile_nil]
  | cons c t =>
    have hc := ht c rfl
    rw [List.dropWhile_cons_of_neg (by simp [hc])]

/-- The characters of an identifier, the first of which begins a word and all of which belong to
one. -/
theorem toList_of_isIdentifier {name : String} (hn : isIdentifier name = true) :
    ∃ c cs, name.toList = c :: cs ∧ isWordStart c = true ∧ ∀ d ∈ cs, isWordChar d = true := by
  unfold isIdentifier at hn
  split at hn
  · contradiction
  · rename_i c cs hcs
    rw [Bool.and_eq_true, List.all_eq_true] at hn
    exact ⟨c, cs, hcs, hn⟩

theorem lexemes_identifier {name : String} (hn : isIdentifier name = true) {t : List Char}
    (ht : EndsWord t) : lexemes (name.toList ++ t) = .word name false :: lexemes t := by
  obtain ⟨c, cs, hname, hc, hcs⟩ := toList_of_isIdentifier hn
  have hend : ∀ d, t.head? = some d → isWordChar d = false := fun d hd => (ht d hd).1
  have hdollar : (t.head? == some '$') = false := by
    cases t with
    | nil => rfl
    | cons d t => simpa using (ht d rfl).2
  rw [hname, List.cons_append, lexemes_word hc, takeWhile_append_of_head? hcs hend,
    dropWhile_append_of_head? hcs hend, hdollar, ← hname, String.ofList_toList]

/-- The scan reads the row that a text spaces. -/
theorem lexemes_of_spaced {afterWord : Bool} {ls : List Lexeme} {t : List Char}
    (h : Spaced afterWord ls t) (hls : ∀ l ∈ ls, l.isPlain = true) : lexemes t = ls := by
  induction h with
  | nil hg => exact lexemes_of_trail hg
  | @cons _ l ls g t hg _ ht ih =>
    have hl := hls l (List.mem_cons_self ..)
    have hrest : ∀ l' ∈ ls, l'.isPlain = true := fun l' h => hls l' (List.mem_cons_of_mem _ h)
    rw [lexemes_gap_append hg]
    cases l with
    | word name tied =>
      rw [Lexeme.isPlain, Bool.and_eq_true, Bool.not_eq_true'] at hl
      rw [Lexeme.spelling, lexemes_identifier hl.2 (ht.endsWord hrest), ih hrest, hl.1]
    | other => exact absurd hl (by simp [Lexeme.isPlain])
    | openBrace => rw [← ih hrest]; exact lexemes_mark (by decide) (by decide) (by decide) t
    | closeBrace => rw [← ih hrest]; exact lexemes_mark (by decide) (by decide) (by decide) t
    | colon => rw [← ih hrest]; exact lexemes_mark (by decide) (by decide) (by decide) t
    | comma => rw [← ih hrest]; exact lexemes_mark (by decide) (by decide) (by decide) t

end Token

/-! ## Spacing what was read -/

theorem Spaced.blank {c : Char} (hc : Token.isGap c = true) {ls : List Lexeme} {t : List Char}
    (h : Spaced false ls t) (afterWord : Bool) : Spaced afterWord ls (c :: t) := by
  cases h with
  | nil hg =>
    cases hg with
    | gap hg => exact .nil (.gap (.blank hc hg))
    | comment hg hb => exact .nil (.comment (.blank hc hg) hb)
  | cons hg _ ht => exact .cons (.blank hc hg) (fun _ _ => List.cons_ne_nil _ _) ht

theorem Spaced.comment {body : List Char} (hb : '\n' ∉ body) {ls : List Lexeme} {t : List Char}
    (h : Spaced false ls t) (afterWord : Bool) :
    Spaced afterWord ls ('#' :: (body ++ '\n' :: t)) := by
  cases h with
  | nil hg =>
    cases hg with
    | gap hg => exact .nil (.gap (.comment hb hg))
    | @comment g last hg hl =>
      have := Trail.comment (.comment hb hg) hl
      rw [List.cons_append, List.append_assoc, List.cons_append] at this
      exact .nil this
  | cons hg _ ht =>
    have : Spaced afterWord _ _ := .cons (.comment hb hg) (fun _ _ => List.cons_ne_nil _ _) ht
    rw [List.cons_append, List.append_assoc, List.cons_append] at this
    exact this

namespace Token

theorem isWordChar_head_dropWhile {s : List Char} {c : Char}
    (h : (s.dropWhile isWordChar).head? = some c) : isWordChar c = false := by
  have := List.head?_dropWhile_not isWordChar s
  rwa [h] at this

theorem mark_of_ne_other {c : Char} (h : ∀ d, mark c ≠ .other d) :
    (mark c).isPlain = true ∧ (mark c).isWord = false ∧ (mark c).spelling = [c] := by
  unfold mark at h ⊢
  split
  · rename_i hc; exact ⟨rfl, rfl, by rw [hc]; rfl⟩
  split
  · rename_i hc; exact ⟨rfl, rfl, by rw [hc]; rfl⟩
  split
  · rename_i hc; exact ⟨rfl, rfl, by rw [hc]; rfl⟩
  split
  · rename_i hc; exact ⟨rfl, rfl, by rw [hc]; rfl⟩
  · rename_i h₁ h₂ h₃ h₄
    have := h c
    rw [if_neg h₁, if_neg h₂, if_neg h₃, if_neg h₄] at this
    exact absurd rfl this

/-- A text all of whose lexemes a schema may use spaces these lexemes. -/
theorem spaced_lexemes {s : List Char} (hs : ∀ c, Lexeme.other c ∉ lexemes s) (afterWord : Bool)
    (hw : afterWord = true → ∀ c, s.head? = some c → isWordChar c = false) :
    Spaced afterWord (lexemes s) s := by
  induction s using scan_induction generalizing afterWord with
  | nil =>
    rw [lexemes_nil]
    exact .nil (.gap .nil)
  | gap c s hg ih =>
    rw [lexemes_gap hg] at hs ⊢
    exact (ih hs false fun ht => absurd ht Bool.false_ne_true).blank hg afterWord
  | comment body s hb ih =>
    rw [lexemes_comment_append hb] at hs ⊢
    exact (ih hs false fun ht => absurd ht Bool.false_ne_true).comment hb afterWord
  | last body hb =>
    rw [lexemes_last_comment hb]
    exact .nil (.comment .nil hb)
  | word c s hc ih =>
    have hafter : afterWord = false := by
      cases ha : afterWord with
      | false => rfl
      | true =>
        have := hw ha c rfl
        rw [isWordChar_of_isWordStart hc] at this
        contradiction
    rw [lexemes_word hc] at hs ⊢
    have hrest := ih (fun d hd => hs d (List.mem_cons_of_mem _ hd)) true
      (fun _ d hd => isWordChar_head_dropWhile hd)
    have : Spaced afterWord (.word (String.ofList (c :: s.takeWhile isWordChar))
        ((s.dropWhile isWordChar).head? == some '$') :: _) _ :=
      .cons .nil (fun ha => absurd ha (by rw [hafter]; decide)) hrest
    rwa [Lexeme.spelling, String.toList_ofList, List.nil_append, List.cons_append,
      List.takeWhile_append_dropWhile] at this
  | mark c s hg hc hw' ih =>
    rw [lexemes_mark hg hc hw'] at hs ⊢
    obtain ⟨-, hword, hspell⟩ := mark_of_ne_other fun d hd => hs d (hd ▸ List.mem_cons_self ..)
    have hrest := ih (fun d hd => hs d (List.mem_cons_of_mem _ hd)) (mark c).isWord
      (fun h => absurd h (by rw [hword]; decide))
    have : Spaced afterWord (mark c :: _) _ :=
      .cons .nil (fun _ h => absurd h (by rw [hword]; decide)) hrest
    rwa [hspell] at this

/-- No word of such a text is tied to a dollar sign, which would be a lexeme that no schema
uses. -/
theorem isPlain_of_mem_lexemes {s : List Char} (hs : ∀ c, Lexeme.other c ∉ lexemes s) :
    ∀ l ∈ lexemes s, l.isPlain = true := by
  induction s using scan_induction with
  | nil =>
    rw [lexemes_nil]
    exact List.forall_mem_nil _
  | gap c s hg ih =>
    rw [lexemes_gap hg] at hs ⊢
    exact ih hs
  | comment body s hb ih =>
    rw [lexemes_comment_append hb] at hs ⊢
    exact ih hs
  | last body hb =>
    rw [lexemes_last_comment hb]
    exact List.forall_mem_nil _
  | word c s hc ih =>
    rw [lexemes_word hc] at hs ⊢
    have hrest := fun d hd => hs d (List.mem_cons_of_mem _ hd)
    rw [List.forall_mem_cons]
    refine ⟨?_, ih hrest⟩
    have htied : ((s.dropWhile isWordChar).head? == some '$') = false := by
      rw [beq_eq_false_iff_ne]
      intro hd
      cases hr : s.dropWhile isWordChar with
      | nil => rw [hr] at hd; contradiction
      | cons d t =>
        rw [hr, List.head?_cons, Option.some.injEq] at hd
        subst hd
        refine hrest '$' ?_
        rw [hr, lexemes_mark (by decide) (by decide) (by decide)]
        exact List.mem_cons_self ..
    rw [Lexeme.isPlain, htied, isIdentifier, String.toList_ofList]
    simp only [Bool.not_false, Bool.true_and, hc, List.all_takeWhile]
  | mark c s hg hc hw ih =>
    rw [lexemes_mark hg hc hw] at hs ⊢
    rw [List.forall_mem_cons]
    exact ⟨(mark_of_ne_other fun d hd => hs d (hd ▸ List.mem_cons_self ..)).1,
      ih fun d hd => hs d (List.mem_cons_of_mem _ hd)⟩

end Token

end ShapeCheck
