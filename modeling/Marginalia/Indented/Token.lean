import Marginalia.Indented.ParseTree

/-!
# Tokens of indented sources

The words, literals and symbols of a source whose blocks are marked by indentation. A literal with
replacement fields is several tokens: its opening, the stretches that stand for themselves, the code
of its fields, and its closing. A character that starts no token is a token of its own, which no
grammar rule accepts.
-/

namespace Marginalia.Indented

inductive TokenKind where
  | name
  | number
  | string
  /-- The start of a literal with replacement fields, up to its first quotes. -/
  | opening
  /-- A stretch of such a literal, or of the format of a field, that stands for itself. -/
  | content
  /-- The quotes that close such a literal. -/
  | closing
  | symbol
  /-- No token: a stray character, an unfinished literal or a bracket without partner. -/
  | junk
deriving Repr, DecidableEq

/-- A token with what stands around it. -/
structure Token where
  kind : TokenKind
  text : Text
  /-- The source between the previous token and this one. -/
  gap : Text
  /-- The line ends in the gap that a backslash joins. -/
  joins : List Span
  /-- The number of characters before it. -/
  offset : Nat
  /-- The line it starts on, counted from one. -/
  line : Nat
  /-- The indentation of its line, a tab counting for eight. -/
  column : Nat
deriving Repr

namespace Token

/-- Whether a token is the given symbol or keyword. -/
def spells (t : Token) (s : Text) : Bool :=
  (t.kind == .name || t.kind == .symbol) && t.text == s

def span (t : Token) : Span := ⟨t.offset, t.offset + t.text.length⟩

/-- The node of a token that stands for itself. -/
def leaf (t : Token) : ParseTree := .leaf (.token t.text) none t.span

end Token

/-- The words that belong to statements. -/
def statementWords : List Text :=
  ["as", "assert", "async", "break", "class", "continue", "def", "del", "elif", "except", "finally",
   "from", "global", "import", "nonlocal", "pass", "raise", "return", "try", "while", "with"]

/-- The words that belong to expressions. -/
def expressionWords : List Text :=
  ["False", "None", "True", "and", "await", "else", "for", "if", "in", "is", "lambda", "not", "or",
   "yield"]

/-- The words that are no names. -/
def keywords : List Text := statementWords ++ expressionWords

/-- The stretch that tokens cover, from the start of the first to the end of the last. -/
def spanOf (ts : List Token) : Span :=
  ⟨(ts.head?.map (·.span.start)).getD 0, (ts.getLast?.map (·.span.stop)).getD 0⟩

/-! ## Symbols -/

/-- The symbols of several characters, longer ones first. -/
def longSymbols : List Text :=
  ["**=", "//=", ">>=", "<<=", "...", "**", "//", ">>", "<<", "<=", ">=", "==", "!=", "->", "+=",
   "-=", "*=", "/=", "%=", "&=", "|=", "^=", "@=", ":="]

/-- The symbols of one character. -/
def shortSymbols : List Text :=
  ["+", "-", "*", "/", "%", "@", "&", "|", "^", "~", "<", ">", "(", ")", "[", "]", "\x7b", "\x7d",
   ",", ":", ".", ";", "="]

/-- The symbols, longer ones before those they start with. -/
def symbols : List Text := longSymbols ++ shortSymbols

/-- The symbol a text starts with. -/
def symbol? (t : Text) : Option (Text × Text) :=
  symbols.findSome? fun s => (Text.after? s t).map fun rest => (s, rest)

end Marginalia.Indented
