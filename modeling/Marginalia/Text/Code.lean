import Marginalia.Text.Blank

/-!
# Code outside string literals

A line of code is read from the left by a small machine that knows whether it is inside a string
literal and how many brackets are open. The machine looks at one line at a time and knows no
grammar: it is enough to tell a comma between arguments from one inside a call or a literal.
-/

namespace Marginalia

/-- The three quotes that delimit a literal. -/
def isQuote (c : Char) : Bool := c == '"' || c == '\'' || c.toNat == 96

/-- The three opening brackets. -/
def isOpener (c : Char) : Bool := c == '(' || c == '[' || c == '{'

/-- The three closing brackets. -/
def isCloser (c : Char) : Bool := c == ')' || c == ']' || c == '}'

/-- The bracket that closes an opening one. -/
def closerOf? (c : Char) : Option Char :=
  if c == '(' then some ')' else if c == '[' then some ']' else if c == '{' then some '}' else none

/-- Where a reader of code stands: the quote of the literal it is inside of, whether the next
character of that literal is escaped, and the brackets open outside literals. -/
structure CodeState where
  quote : Option Char
  escaped : Bool
  depth : Nat
deriving Repr, DecidableEq

/-- Outside every literal and bracket. -/
def CodeState.start : CodeState := ⟨none, false, 0⟩

/-- Reads one character. The second component is the depth at which it stands when it is code, that
is, neither a quote nor inside a literal; an opening bracket stands outside what it opens and a
closing bracket outside what it closes, so that a pair shares one depth. -/
def CodeState.step (s : CodeState) (c : Char) : CodeState × Option Nat :=
  match s.quote with
  | some q =>
    if s.escaped then ({ s with escaped := false }, none)
    else if c == '\\' then ({ s with escaped := true }, none)
    else if c == q then ({ s with quote := none }, none)
    else (s, none)
  | none =>
    if isQuote c then ({ s with quote := some c }, none)
    else if isOpener c then ({ s with depth := s.depth + 1 }, some s.depth)
    else if isCloser c then ({ s with depth := s.depth - 1 }, some (s.depth - 1))
    else (s, some s.depth)

/-- The state after a whole text. -/
def CodeState.run (s : CodeState) (t : Text) : CodeState :=
  t.foldl (fun s c => (s.step c).1) s

/-- A character outside literals, with its byte offset and its bracket depth. -/
structure CodeChar where
  index : Nat
  char : Char
  depth : Nat
deriving Repr, DecidableEq

namespace Text

/-- The code characters of a text read from a state, offsets counted from `index`. -/
def codeCharsFrom (s : CodeState) (index : Nat) : Text → List CodeChar
  | [] => []
  | c :: rest =>
    let more := codeCharsFrom (s.step c).1 (index + c.utf8Size) rest
    match (s.step c).2 with
    | some depth => ⟨index, c, depth⟩ :: more
    | none => more

/-- The code characters of a text. -/
def codeChars (t : Text) : List CodeChar := codeCharsFrom .start 0 t

/-- The text before, and from, the first code character that satisfies `stop`, which is told its
depth and the text it starts. -/
def splitAtCode? (stop : Nat → Text → Bool) (s : CodeState) : Text → Option (Text × Text)
  | [] => none
  | c :: rest =>
    match (s.step c).2 with
    | some depth =>
      if stop depth (c :: rest) then some ([], c :: rest)
      else (splitAtCode? stop (s.step c).1 rest).map fun (head, tail) => (c :: head, tail)
    | none => (splitAtCode? stop (s.step c).1 rest).map fun (head, tail) => (c :: head, tail)

/-- The part of a line before its comment, without trailing blanks. An empty marker starts no
comment. -/
def codePart (marker line : Text) : Text :=
  if marker.isEmpty then trimEnd line
  else match splitAtCode? (fun _ t => t.startsWith marker) .start line with
    | some (head, _) => trimEnd head
    | none => trimEnd line

/-- The text before, and from, the first `target` outside literals and brackets. -/
def splitTopLevel? (target : Char) (t : Text) : Option (Text × Text) :=
  splitAtCode? (fun depth t => depth == 0 && t.head? == some target) .start t

/-- The byte offset of the first `target` outside literals and brackets. -/
def findTopLevel? (target : Char) (t : Text) : Option Nat :=
  (splitTopLevel? target t).map fun (head, _) => byteLength head

/-- The brackets a text leaves open. -/
def openDepth (t : Text) : Nat := (CodeState.start.run t).depth

/-- Splits before the bracket that brings the number of open brackets of one kind back to zero,
where `count` are open. -/
def splitAtClose? (opener closer : Char) (s : CodeState) (count : Nat) :
    Text → Option (Text × Text)
  | [] => none
  | c :: rest =>
    let s' := (s.step c).1
    let later (count : Nat) :=
      (splitAtClose? opener closer s' count rest).map fun (head, tail) => (c :: head, tail)
    if (s.step c).2.isNone then later count
    else if c == opener then later (count + 1)
    else if c == closer then
      if count - 1 == 0 then some ([], c :: rest) else later (count - 1)
    else later count

/-- For a text that starts with a bracket: the text before its partner, and from it on. Brackets of
other kinds are not counted. -/
def splitAtPartner? : Text → Option (Text × Text)
  | [] => none
  | c :: rest => (closerOf? c).bind fun closer => splitAtClose? c closer .start 0 (c :: rest)

/-- The byte offset of the partner of the bracket at byte offset `at_`; `none` for an offset inside
a character or past the end. -/
def matchingClose? (t : Text) (at_ : Nat) : Option (Option Nat) :=
  (fromByte? t at_).map fun tail =>
    (splitAtPartner? tail).map fun (head, _) => at_ + byteLength head

/-- For a text that starts with a bracket: what stands between it and its partner, and what follows
the partner. -/
def bracketed? (t : Text) : Option (Text × Text) :=
  (splitAtPartner? t).map fun (head, tail) => (head.drop 1, tail.drop 1)

/-- The text before, and from, the first occurrence of a character. -/
def splitAtChar? (target : Char) : Text → Option (Text × Text)
  | [] => none
  | c :: rest =>
    if c = target then some ([], c :: rest)
    else (splitAtChar? target rest).map fun (head, tail) => (c :: head, tail)

/-- What stands inside the first pair of parentheses. -/
def firstGroup? (t : Text) : Option Text :=
  (splitAtChar? '(' t).bind fun (_, tail) => (bracketed? tail).map (·.1)

/-- The pieces between the occurrences of `sep` outside literals and brackets, the first one
apart. -/
def piecesFrom (sep : Char) (s : CodeState) : Text → Text × List Text
  | [] => ([], [])
  | c :: rest =>
    let (piece, pieces) := piecesFrom sep (s.step c).1 rest
    if (s.step c).2 == some 0 && c == sep then ([], piece :: pieces) else (c :: piece, pieces)

/-- The pieces between the occurrences of `sep` outside literals and brackets, blanks included. -/
def rawPieces (sep : Char) (t : Text) : List Text :=
  let (piece, pieces) := piecesFrom sep .start t
  piece :: pieces

/-- The trimmed pieces between the occurrences of `sep` outside literals and brackets; a blank text
has none. -/
def splitTopLevel (sep : Char) (t : Text) : List Text :=
  if t.isAllBlank then [] else (rawPieces sep t).map trim

/-- The letters that may stand before the quote of a literal. -/
def isLiteralMark (c : Char) : Bool := ['f', 'r', 'b', 'u', 'F', 'R', 'B', 'U'].contains c

/-- Whether a text looks like one string literal: marks, a quote, and the same quote at its end. -/
def isStringLiteral (t : Text) : Bool :=
  match t.dropWhile isLiteralMark with
  | [] => false
  | q :: rest => isQuote q && rest.getLast? == some q

end Text
end Marginalia
