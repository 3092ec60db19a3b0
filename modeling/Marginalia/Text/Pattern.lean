import Marginalia.Text.Blank
import Marginalia.Text.Letters

/-!
# Patterns

Patterns describe texts up to choices, repetitions and marked groups. A match is found by trying
the alternatives in order and repetitions from the longest, or from the shortest where that is
asked for; the first way to match the whole pattern counts. What follows in the text is the
continuation of the match, so that a choice is reconsidered only if the rest cannot be matched.
-/

namespace Marginalia

/-- A pattern for a piece of text. -/
inductive Pattern where
  | empty
  | char (p : Char → Bool)
  /-- As many characters of a class as the rest of the pattern allows. -/
  | run (p : Char → Bool)
  /-- As few characters of a class as the rest of the pattern allows. -/
  | shortRun (p : Char → Bool)
  | seq (first second : Pattern)
  | alt (first second : Pattern)
  /-- As many repetitions as the rest of the pattern allows. -/
  | star (p : Pattern)
  /-- Keeps the matched piece under a number. -/
  | group (number : Nat) (p : Pattern)
  /-- The edge of a word. -/
  | edge
  /-- The end of the text. -/
  | finish

/-- Where a match stands: the character before, the rest of the text, and the groups so far. -/
structure Matching where
  prev : Option Char
  rest : Text
  groups : List (Nat × Text)
deriving Repr

namespace Matching

/-- The piece that a group matched last. -/
def group? (m : Matching) (number : Nat) : Option Text := m.groups.lookup number

/-- The piece that a group matched, or nothing. -/
def group (m : Matching) (number : Nat) : Text := (m.group? number).getD []

/-- One character further. -/
def step (m : Matching) (c : Char) (rest : Text) : Matching :=
  { m with prev := some c, rest := rest }

end Matching

namespace Pattern

instance : Append Pattern := ⟨seq⟩

/-- A literal text. -/
def lit : Text → Pattern
  | [] => empty
  | [c] => char (· == c)
  | c :: rest => seq (char (· == c)) (lit rest)

instance : Coe String Pattern := ⟨fun s => lit s.toList⟩

def opt (p : Pattern) : Pattern := alt p empty

/-- One of several patterns, tried in order. -/
def oneOf : List Pattern → Pattern
  | [] => char fun _ => false
  | [p] => p
  | p :: ps => alt p (oneOf ps)

/-- At least one character of a class. -/
def run1 (p : Char → Bool) : Pattern := seq (char p) (run p)

def shortRun1 (p : Char → Bool) : Pattern := seq (char p) (shortRun p)

/-- Blanks, possibly none. -/
def blanks : Pattern := run isBlank

/-- At least one blank. -/
def gap : Pattern := run1 isBlank

/-- At least one word character. -/
def word : Pattern := run1 isWordChar

/-- A character that is not the end of a line. -/
def isLineChar (c : Char) : Bool := c != '\n'

/-- Whether the place between two characters is the edge of a word. -/
def isEdge (prev next : Option Char) : Bool := prev.any isWordChar != next.any isWordChar

/-- Continues with as many characters of a class as possible. -/
def longest {α : Type} (p : Char → Bool) (prev : Option Char) (groups : List (Nat × Text))
    (k : Matching → Option α) : Text → Option α
  | [] => k ⟨prev, [], groups⟩
  | c :: rest =>
    if p c then
      match longest p (some c) groups k rest with
      | some a => some a
      | none => k ⟨prev, c :: rest, groups⟩
    else k ⟨prev, c :: rest, groups⟩

/-- Continues with as few characters of a class as possible. -/
def shortest {α : Type} (p : Char → Bool) (prev : Option Char) (groups : List (Nat × Text))
    (k : Matching → Option α) : Text → Option α
  | [] => k ⟨prev, [], groups⟩
  | c :: rest =>
    match k ⟨prev, c :: rest, groups⟩ with
    | some a => some a
    | none => if p c then shortest p (some c) groups k rest else none

/-- Repeats a matcher as often as possible, at most `fuel` times; a repetition has to take a
character. -/
def repeated {α : Type} (body : Matching → (Matching → Option α) → Option α)
    (k : Matching → Option α) : Nat → Matching → Option α
  | 0, m => k m
  | fuel + 1, m =>
    match body m fun m' =>
        if m'.rest.length < m.rest.length then repeated body k fuel m' else none with
    | some a => some a
    | none => k m

/-- Matches a pattern and continues with the rest of the text. -/
def matchThen {α : Type} : Pattern → Matching → (Matching → Option α) → Option α
  | empty, m, k => k m
  | char p, m, k =>
    match m.rest with
    | [] => none
    | c :: rest => if p c then k (m.step c rest) else none
  | run p, m, k => longest p m.prev m.groups k m.rest
  | shortRun p, m, k => shortest p m.prev m.groups k m.rest
  | seq first second, m, k => matchThen first m fun m' => matchThen second m' k
  | alt first second, m, k =>
    match matchThen first m k with
    | some a => some a
    | none => matchThen second m k
  | star p, m, k => repeated (matchThen p) k m.rest.length m
  | group number p, m, k =>
    matchThen p m fun m' =>
      k { m' with
        groups := (number, m.rest.take (m.rest.length - m'.rest.length)) :: m'.groups }
  | edge, m, k => if isEdge m.prev m.rest.head? then k m else none
  | finish, m, k => if m.rest.isEmpty then k m else none

/-- A match at the place where a text, preceded by a character or none, starts. -/
def matchAt (p : Pattern) (prev : Option Char) (t : Text) : Option Matching :=
  matchThen p ⟨prev, t, []⟩ some

/-- A match at the start of a text. -/
def matchStart? (p : Pattern) (t : Text) : Option Matching := p.matchAt none t

/-- Whether a text starts with a match. -/
def startsText (p : Pattern) (t : Text) : Bool := (p.matchStart? t).isSome

/-- The leftmost match in a text, with what stands before it. -/
def findFrom? (p : Pattern) (prev : Option Char) : Text → Option (Text × Matching)
  | [] => (p.matchAt prev []).map fun m => ([], m)
  | c :: rest =>
    match p.matchAt prev (c :: rest) with
    | some m => some ([], m)
    | none => (findFrom? p (some c) rest).map fun (before, m) => (c :: before, m)

/-- The leftmost match in a text, with what stands before it. -/
def find? (p : Pattern) (t : Text) : Option (Text × Matching) := p.findFrom? none t

end Pattern
end Marginalia
