import Marginalia.Indented.Statement

/-!
# Missing tokens

Where reading a source stops, one token may be all that is missing. Whether that is so is found out
by reading the source again with the token put in, and with a token next to the place left out.
-/

namespace Marginalia.Indented

/-- A source with a text put in at an offset. -/
def withText (source : Text) (offset : Nat) (text : Text) : Text :=
  source.take offset ++ text ++ source.drop offset

/-- A source without a token. -/
def withoutToken (source : Text) (t : Token) : Text :=
  source.take t.offset ++ source.drop (t.offset + t.text.length)

/-- Whether a changed source is sound on the line where reading stopped before the change. -/
def mends (stop : Stop) (changed : Text) : Bool :=
  match statementsOf changed with
  | .ok _ => true
  | .error later => stop.line < later.line

/-- Whether reading passes over what stands at an offset. -/
def passes (offset : Nat) (source : Text) : Bool :=
  match statementsOf source with
  | .ok _ => true
  | .error stop => stop.token.all fun t => offset < t.offset

/-- The tokens of a source before an offset. -/
def tokensBefore (source : Text) (offset : Nat) : List Token :=
  ((linesOf source).flatMap (·.tokens)).takeWhile (·.offset < offset)

/-- The innermost bracket that tokens leave open. -/
def openBracket? (ts : List Token) : Option Text :=
  (ts.foldl (fun opened t =>
    if t.kind != .symbol then opened
    else if t.text.all isOpener then t.text :: opened
    else if t.text.all isCloser then opened.drop 1
    else opened) []).head?

/-- Whether leaving out a token mends a source. Only short tokens are left out lightly. -/
def isSpare (source : Text) (stop : Stop) (t : Token) : Bool :=
  Text.byteLength t.text < 10 && mends stop (withoutToken source t)

/-- Whether a name that is missing between tokens would be that of a definition, a parameter or a
keyword argument, which is never taken for missing. -/
def namesSomething (before : List Token) (t : Token) : Bool :=
  before.getLast?.any (fun b => b.spells "def" || b.spells "class")
    || (openBracket? before == some "(" && (t.spells ":" || t.spells "="))

/-- Whether a token holds a quote, as those of literals do. -/
def holdsQuote (t : Token) : Bool := t.text.any fun c => c == '"' || c == '\''

/-- The tokens that may be missing before another one, as they are called and as they are put in. -/
def missingCandidates (before : List Token) (t : Token) : List (Text × Text) :=
  let name : List (Text × Text) := [("identifier", " _ ")]
  let closers : List (Text × Text) := [(")", ")"), ("]", "]"), ("\x7d", "\x7d")]
  if namesSomething before t then closers else name ++ closers

/-- A token that is missing, and its place. -/
structure Missing where
  offset : Nat
  called : Text
deriving Repr, DecidableEq

/-- What a source lacks where reading stopped: the first token that leads on from there, if it mends
the line and leaving out a token does not. Its place is the end of the token before. A quote has
been read as the start of a literal, so nothing is put in to make it the end of one. -/
def missingToken? (source : Text) (stop : Stop) : Option Missing := do
  let t ← stop.token
  let before := tokensBefore source t.offset
  let last ← before.getLast?
  if holdsQuote t || isSpare source stop t || isSpare source stop last then none
  else
    let put (text : Text) := withText source t.offset text
    let (called, text) ← (missingCandidates before t).find? fun (_, text) =>
      passes (t.offset + text.length) (put text)
    if mends stop (put text) then return ⟨last.span.stop, called⟩ else none

end Marginalia.Indented
