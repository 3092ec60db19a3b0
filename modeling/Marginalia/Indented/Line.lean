import Marginalia.Indented.Literal
import Marginalia.Indented.Token
import Marginalia.Text.Code

/-!
# Lines of indented sources

A source is read into logical lines of tokens. A logical line ends at a newline outside brackets and
literals; comments, blanks and joined line ends stand in the gaps between tokens. Reading never
fails: what starts no token becomes one that no grammar rule accepts.
-/

namespace Marginalia.Indented

/-- A logical line. -/
structure Line where
  tokens : List Token
  /-- The line of its end. -/
  last : Nat
  /-- What stands between the last token and the line end, if that holds a comment. -/
  comment : Text
  /-- Where the source leaves parts open, the line of the one to blame. -/
  unclosed : Option Nat
deriving Repr

/-- A part of a source that goes on until it is closed. -/
inductive Part where
  | bracket (closer : Char)
  /-- A literal with replacement fields, by its quote, whether three of them close it, and whether
  no characters have names in it. -/
  | literal (quote : Char) (isLong isRaw : Bool)
  /-- A replacement field of the literal or format around it. -/
  | field
  /-- The format of the field around it. -/
  | format
deriving Repr, DecidableEq

/-- The bracket that closes a part. -/
def Part.closer? : Part → Option Char
  | .bracket closer => some closer
  | .field => some '}'
  | _ => none

/-- Whether a part is a literal. -/
def Part.isLiteral : Part → Bool
  | .literal .. => true
  | _ => false

/-- A part that is open, and the line it starts on. -/
structure OpenPart where
  part : Part
  line : Nat
deriving Repr

/-- The line to blame for parts that are never closed: that of the outermost literal, or else of the
innermost bracket. -/
def blamedLine? (parts : List OpenPart) : Option Nat :=
  ((parts.reverse.find? (·.part.isLiteral)).or parts.head?).map (·.line)

/-- Where the reader stands. -/
structure Reader where
  /-- The number of characters read. -/
  offset : Nat
  line : Nat
  column : Nat
  /-- Whether only blanks were read on this physical line. -/
  atMargin : Bool
  gap : Text
  joins : List Span
  hasComment : Bool
  /-- The parts that are open, the innermost one first. -/
  parts : List OpenPart
  /-- The tokens of the logical line so far, last first. -/
  tokens : List Token

namespace Reader

def start : Reader := ⟨0, 1, 0, true, [], [], false, [], []⟩

/-- The innermost open part. -/
def inside (r : Reader) : Option Part := r.parts.head?.map (·.part)

/-- Adds a piece of source that belongs to the gap before the next token. -/
def skip (r : Reader) (piece : Text) : Reader :=
  { r with offset := r.offset + piece.length, gap := r.gap ++ piece }

/-- Adds a token. Literals hide the joined lines before them. -/
def push (r : Reader) (kind : TokenKind) (text : Text) : Reader :=
  let joins := if kind == .string || kind == .opening then [] else r.joins
  let token : Token := ⟨kind, text, r.gap, joins, r.offset, r.line, r.column⟩
  { r with
    offset := r.offset + text.length
    line := r.line + text.count '\n'
    atMargin := false
    gap := []
    joins := []
    hasComment := false
    tokens := token :: r.tokens }

/-- Adds a token that opens a part. -/
def pushOpening (r : Reader) (part : Part) (kind : TokenKind) (text : Text) : Reader :=
  { r.push kind text with parts := ⟨part, r.line⟩ :: r.parts }

/-- Closes the innermost parts. -/
def close (r : Reader) (count : Nat) : Reader := { r with parts := r.parts.drop count }

/-- The logical line that ends here, if it holds a token. -/
def finish (r : Reader) : List Line :=
  if r.tokens.isEmpty then []
  else [⟨r.tokens.reverse, r.line, if r.hasComment then r.gap else [],
    blamedLine? r.parts⟩]

/-- The reader at the start of the next logical line. -/
def next (r : Reader) : Reader := { start with offset := r.offset + 1, line := r.line + 1 }

/-- The reader after a line end inside a part, and where `joined`, after a backslash. -/
def breakLine (r : Reader) (piece : Text) (joined : Bool) : Reader :=
  let join : Span := ⟨r.offset, r.offset + piece.length⟩
  let r := r.skip piece
  { r with joins := if joined then r.joins ++ [join] else r.joins, line := r.line + 1 }

/-- The reader after a blank other than a newline. Blanks at the margin are the indentation. -/
def blank (r : Reader) (c : Char) : Reader :=
  let r := r.skip [c]
  if !r.atMargin then r
  else if c == ' ' then { r with column := r.column + 1 }
  else if c == '\t' then { r with column := r.column + 8 }
  else { r with column := 0 }

/-- The reader after a symbol, brackets being matched. -/
def pushSymbol (r : Reader) (s : Text) : Reader :=
  match s with
  | [c] =>
    match closerOf? c with
    | some closer => r.pushOpening (.bracket closer) .symbol s
    | none =>
      if !isCloser c then r.push .symbol s
      else if (r.inside.bind Part.closer?) == some c then (r.push .symbol s).close 1
      else r.push .junk s
  | _ => r.push .symbol s

/-- Reads a literal whose marks were read, from its quotes on. Without replacement fields it is one
token. -/
def readLiteral (r : Reader) (marks t : Text) : Reader × Text :=
  match t with
  | [] => (r, [])
  | q :: _ =>
    if (Text.lowerAsciiText marks).contains 'f' then
      let isLong := t.startsWith [q, q, q]
      let quotes := closingQuotes q isLong
      (r.pushOpening (.literal q isLong ((Text.lowerAsciiText marks).contains 'r')) .opening
        (marks ++ quotes), t.drop quotes.length)
    else
      match quoted? t with
      | some (literal, rest) => (r.push .string (marks ++ literal), rest)
      | none => (r.push .junk (marks ++ t.takeWhile (· != '\n')), t.dropWhile (· != '\n'))

/-- Reads on inside a literal with replacement fields: a stretch that stands for itself, and what
ends it. A line end closes a literal that cannot hold it. -/
def readStretch (r : Reader) (q : Char) (isLong isRaw : Bool) (t : Text) : Reader × Text :=
  let (stretch, rest) := plainStretch q isLong isRaw 0 t
  let r' := if stretch.isEmpty then r else r.push .content stretch
  match rest with
  | [] => (r', [])
  | '\n' :: _ => ((r.push .junk stretch).close 1, rest)
  | '{' :: rest => (r'.pushOpening .field .symbol "\x7b", rest)
  | '}' :: rest => (r'.push .junk "\x7d", rest)
  | _ =>
    let quotes := closingQuotes q isLong
    ((r'.push .closing quotes).close 1, rest.drop quotes.length)

/-- Reads on inside the format of a replacement field. -/
def readFormat (r : Reader) (c : Char) (rest : Text) : Reader × Text :=
  let isPlain (c : Char) := c != '{' && c != '}' && c != '\n'
  if c == '\n' then (r.breakLine ['\n'] false, rest)
  else if c == '{' then (r.pushOpening .field .symbol [c], rest)
  else if c == '}' then ((r.push .symbol [c]).close 2, rest)
  else (r.push .content (c :: rest.takeWhile isPlain), rest.dropWhile isPlain)

end Reader

/-- A blank other than a newline that may stand between tokens. -/
def isGapBlank (c : Char) : Bool :=
  c != '\n' && (isBlank c || c.toNat == 0xFEFF || c.toNat == 0x2060 || c.toNat == 0x200B)

namespace Reader

/-- Reads a symbol. A colon in a replacement field, outside the brackets there, starts a format. -/
def readSymbol (r : Reader) (c : Char) (rest : Text) : Reader × Text :=
  let inField := r.inside == some .field
  match if inField then conversion? (c :: rest) else none with
  | some (conversion, rest) => (r.push .symbol conversion, rest)
  | none =>
    if inField && c == ':' then (r.pushOpening .format .symbol [c], rest)
    else
      match symbol? (c :: rest) with
      | some (s, rest) => (r.pushSymbol s, rest)
      | none => (r.push .junk [c], rest)

/-- Reads one token or a piece of a gap in code. -/
def readCode (r : Reader) (c : Char) (rest : Text) : Reader × Text :=
  if c == '\n' then (r.breakLine ['\n'] false, rest)
  else if isGapBlank c then (r.blank c, rest)
  else if c == '#' then
    ({ r.skip (c :: rest.takeWhile (· != '\n')) with hasComment := true },
      rest.dropWhile (· != '\n'))
  else if c == '\\' then
    match rest with
    | '\n' :: rest => (r.breakLine ['\\', '\n'] true, rest)
    | '\r' :: '\n' :: rest => (r.breakLine ['\\', '\r', '\n'] true, rest)
    | _ => (r.push .junk [c], rest)
  else if startsIdentifier c then
    let word := c :: rest.takeWhile continuesIdentifier
    let rest := rest.dropWhile continuesIdentifier
    if (rest.head? == some '"' || rest.head? == some '\'')
        && literalMarks.contains (Text.lowerAsciiText word) then r.readLiteral word rest
    else (r.push .name word, rest)
  else if isAsciiDigit c || (c == '.' && rest.head?.any isAsciiDigit) then
    match number? (c :: rest) with
    | some (literal, rest) => (r.push .number literal, rest)
    | none => (r.push .junk [c], rest)
  else if c == '"' || c == '\'' then r.readLiteral [] (c :: rest)
  else r.readSymbol c rest

/-- Reads on where the innermost part leads. -/
def read (r : Reader) (c : Char) (rest : Text) : Reader × Text :=
  match r.inside with
  | some (.literal q isLong isRaw) => r.readStretch q isLong isRaw (c :: rest)
  | some .format => r.readFormat c rest
  | _ => r.readCode c rest

end Reader

/-- The logical lines of a text. Every step takes a character, except one that closes a literal
after two were taken to open it, so that `fuel` bounds their number. -/
def readLines (r : Reader) : Nat → Text → List Line
  | 0, _ => r.finish
  | _, [] => r.finish
  | fuel + 1, c :: rest =>
    if r.parts.isEmpty && c == '\n' then r.finish ++ readLines r.next fuel rest
    else
      let (r, rest) := r.read c rest
      readLines r fuel rest

/-- The logical lines of a source. -/
def linesOf (source : Text) : List Line := readLines .start (source.length + 1) source

end Marginalia.Indented
