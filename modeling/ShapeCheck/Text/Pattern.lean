/-
  Patterns over characters with ordered choice. `rests` lists what a pattern can leave of a text,
  the preferred way of matching first: the left alternative before the right one, and more
  repetitions before fewer.
-/

namespace ShapeCheck.Text

inductive Pattern where
  | empty
  /-- one character of a class -/
  | one (p : Char → Bool)
  | seq (a b : Pattern)
  | alt (a b : Pattern)
  /-- at most `n` times in a row -/
  | upTo (n : Nat) (a : Pattern)
  /-- any number of times in a row -/
  | many (a : Pattern)

namespace Pattern

/-- What at most `n` rounds of `f` leave, starting with the most rounds. -/
def rounds (f : List Char → List (List Char)) : Nat → List Char → List (List Char)
  | 0, s => [s]
  | n + 1, s => (f s).flatMap (rounds f n) ++ [s]

/-- What the pattern can leave of a text, in order of preference. A round of `many` that takes
nothing is of no use, so as many rounds as there are characters suffice. -/
def rests : Pattern → List Char → List (List Char)
  | empty, s => [s]
  | one _, [] => []
  | one p, c :: s => if p c then [s] else []
  | seq a b, s => (a.rests s).flatMap b.rests
  | alt a b, s => a.rests s ++ b.rests s
  | upTo n a, s => rounds a.rests n s
  | many a, s => rounds a.rests s.length s

/-- Whether the pattern can take the whole text. -/
def accepts (p : Pattern) (s : List Char) : Bool := (p.rests s).any List.isEmpty

def char (c : Char) : Pattern := one (· == c)

def opt (a : Pattern) : Pattern := upTo 1 a

/-- The pattern `n` times in a row. -/
def exactly : Nat → Pattern → Pattern
  | 0, _ => empty
  | n + 1, a => seq a (exactly n a)

/-- At least `n` times and at most `m` times more. -/
def between (n m : Nat) (a : Pattern) : Pattern := seq (exactly n a) (upTo m a)

def many1 (a : Pattern) : Pattern := seq a (many a)

/-- The patterns one after the other. -/
def inTurn : List Pattern → Pattern
  | [] => empty
  | a :: as => seq a (inTurn as)

/-- The first of the patterns that fits, the others as second choices. -/
def oneOf : List Pattern → Pattern
  | [] => one fun _ => false
  | a :: as => alt a (oneOf as)

end Pattern

end ShapeCheck.Text
