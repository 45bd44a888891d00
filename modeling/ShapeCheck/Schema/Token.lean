import ShapeCheck.Text.Position

/-
  The tokens of schema text: words, braces, colons and commas. Blanks (space, tab, line feed,
  carriage return) and comments stand between tokens; a comment runs from a hash sign to the next
  line feed. Every other character is a token of its own, which no declaration holds.

  The grammar has no tokens of its own. Before each of its parts it passes over blanks and ignored
  comments, in any number and order, and a word goes as far as it can; so the places where a part
  can start, or where an error is found, are those of tokens. A block word differs from other words
  in what may follow it: it is looked for together with the next character, and the dollar sign,
  which no word holds, counts as one that would go on with it (`tied`).
-/

namespace ShapeCheck

/-- Whether a word may start with the character. -/
def isWordStart (c : Char) : Bool := c.isAlpha || c == '_'

/-- Whether a word may go on with the character. -/
def isWordChar (c : Char) : Bool := isWordStart c || c.isDigit

inductive Lexeme where
  /-- a word; `tied` tells whether a dollar sign follows it directly -/
  | word (name : String) (tied : Bool)
  | openBrace
  | closeBrace
  | colon
  | comma
  | other (c : Char)
deriving DecidableEq, Repr

/-- A lexeme with the number of characters before it. -/
structure Token where
  lexeme : Lexeme
  start : Nat
deriving DecidableEq, Repr

namespace Token

/-- Blanks between tokens. -/
def isGap (c : Char) : Bool := c == ' ' || c == '\t' || c == '\n' || c == '\r'

/-- The lexeme that a single character makes. -/
def mark (c : Char) : Lexeme :=
  if c = '\x7b' then .openBrace
  else if c = '\x7d' then .closeBrace
  else if c = ':' then .colon
  else if c = ',' then .comma
  else .other c

/-- The tokens of a text, whose first character has the offset `start`. -/
def scan (start : Nat) : List Char → List Token
  | [] => []
  | c :: s =>
    if isGap c then scan (start + 1) s
    else if c = '#' then
      let comment := s.takeWhile (· != '\n')
      scan (start + 1 + comment.length) (s.dropWhile (· != '\n'))
    else if isWordStart c then
      let more := s.takeWhile isWordChar
      let rest := s.dropWhile isWordChar
      ⟨.word (String.ofList (c :: more)) (rest.head? == some '$'), start⟩ ::
        scan (start + 1 + more.length) rest
    else ⟨mark c, start⟩ :: scan (start + 1) s
termination_by s => s.length
decreasing_by
  all_goals
    simp only [List.length_cons]
    first
      | exact Nat.lt_succ_self _
      | exact Nat.lt_succ_of_le ((List.dropWhile_sublist _).length_le)

theorem isWordStart_of_isGap {c : Char} (h : isGap c = true) : isWordStart c = false := by
  simp only [isGap, Bool.or_eq_true, beq_iff_eq] at h
  rcases h with ((rfl | rfl) | rfl) | rfl <;> decide

theorem isWordChar_of_isGap {c : Char} (h : isGap c = true) : isWordChar c = false := by
  simp only [isGap, Bool.or_eq_true, beq_iff_eq] at h
  rcases h with ((rfl | rfl) | rfl) | rfl <;> decide

theorem isWordChar_of_isWordStart {c : Char} (h : isWordStart c = true) : isWordChar c = true := by
  rw [isWordChar, h, Bool.true_or]

theorem isGap_of_isWordStart {c : Char} (h : isWordStart c = true) : isGap c = false := by
  cases hg : isGap c with
  | false => rfl
  | true => rw [isWordStart_of_isGap hg] at h; contradiction

theorem ne_hash_of_isWordStart {c : Char} (h : isWordStart c = true) : c ≠ '#' := by
  rintro rfl
  exact absurd h (by decide)

/-! ## One step of the scan -/

theorem scan_gap {c : Char} (h : isGap c = true) (n : Nat) (s : List Char) :
    scan n (c :: s) = scan (n + 1) s := by
  rw [scan, if_pos h]

theorem scan_comment (n : Nat) (s : List Char) :
    scan n ('#' :: s) = scan (n + 1 + (s.takeWhile (· != '\n')).length)
      (s.dropWhile (· != '\n')) := by
  rw [scan, if_neg (by decide), if_pos rfl]

theorem scan_word {c : Char} (h : isWordStart c = true) (n : Nat) (s : List Char) :
    scan n (c :: s) = ⟨.word (String.ofList (c :: s.takeWhile isWordChar))
        ((s.dropWhile isWordChar).head? == some '$'), n⟩ ::
      scan (n + 1 + (s.takeWhile isWordChar).length) (s.dropWhile isWordChar) := by
  rw [scan, if_neg (by rw [isGap_of_isWordStart h]; decide), if_neg (ne_hash_of_isWordStart h),
    if_pos h]

theorem scan_mark {c : Char} (hg : isGap c = false) (hc : c ≠ '#') (hw : isWordStart c = false)
    (n : Nat) (s : List Char) : scan n (c :: s) = ⟨mark c, n⟩ :: scan (n + 1) s := by
  rw [scan, if_neg (by simp [hg]), if_neg hc, if_neg (by simp [hw])]

end Token

end ShapeCheck
