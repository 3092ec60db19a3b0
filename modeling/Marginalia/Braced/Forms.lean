import Marginalia.Text.Pattern
import Marginalia.Naming.Known

/-!
# Forms of lines in braced sources

The patterns by which a line of a source whose blocks stand in braces is recognised. A line is
matched from its first character that is neither blank nor a closing brace.
-/

namespace Marginalia.Braced

open Pattern

def isNot (c : Char) (d : Char) : Bool := d != c

/-- A quote of an imported name. -/
def isNameQuote (c : Char) : Bool := c == '\'' || c == '"'

def nameQuote : Pattern := char isNameQuote

/-- The rest of a line. -/
def restOfLine : Pattern := run isLineChar

/-- At least one character up to the end of the line. -/
def restOfLine1 : Pattern := run1 isLineChar

/-! ## Control flow -/

def ifForm : Pattern := "if" ++ blanks ++ "("

def elseIfForm : Pattern := "else" ++ gap ++ "if" ++ blanks ++ "("

def elseForm : Pattern := "else" ++ edge

def forForm : Pattern := "for" ++ blanks ++ opt ("await" ++ blanks) ++ "("

def whileForm : Pattern := "while" ++ blanks ++ "("

def doForm : Pattern := "do" ++ edge

def switchForm : Pattern := "switch" ++ blanks ++ "("

def caseForm : Pattern := "case" ++ gap ++ group 1 (shortRun1 isLineChar) ++ blanks ++ ":"

def defaultForm : Pattern := "default" ++ blanks ++ ":"

def tryForm : Pattern := "try" ++ edge

def catchForm : Pattern := "catch" ++ edge

def finallyForm : Pattern := "finally" ++ edge

def returnForm : Pattern := "return" ++ edge ++ blanks ++ group 1 restOfLine ++ finish

def throwForm : Pattern := "throw" ++ gap ++ group 1 restOfLine1 ++ finish

/-! ## Scripts -/

/-- A character of a dotted name. -/
def isDotted (c : Char) : Bool := isWordChar c || c == '.'

/-- Type parameters in angle brackets, possibly none. -/
def anglesOrNone : Pattern := opt (blanks ++ "<" ++ run (isNot '>') ++ ">")

def scriptClass : Pattern :=
  opt ("export" ++ gap) ++ opt ("default" ++ gap) ++ opt ("abstract" ++ gap) ++ "class" ++ gap
    ++ group 1 word ++ anglesOrNone
    ++ opt (gap ++ "extends" ++ gap ++ group 2 (run1 isDotted))
    ++ opt (gap ++ "implements" ++ gap ++ group 3 (run1 (isNot '{')))

def scriptInterface : Pattern :=
  opt ("export" ++ gap) ++ "interface" ++ gap ++ group 1 word ++ anglesOrNone
    ++ opt (gap ++ "extends" ++ gap ++ group 2 (run1 (isNot '{')))

def scriptType : Pattern :=
  opt ("export" ++ gap) ++ "type" ++ gap ++ group 1 word ++ anglesOrNone ++ blanks ++ "=" ++ blanks
    ++ group 2 restOfLine1 ++ finish

def scriptEnum : Pattern :=
  opt ("export" ++ gap) ++ opt ("const" ++ gap) ++ "enum" ++ gap ++ group 1 word

def scriptFunction : Pattern :=
  opt ("export" ++ gap) ++ opt ("default" ++ gap) ++ opt (group 1 ("async" ++ gap)) ++ "function"
    ++ blanks ++ opt "*" ++ blanks ++ group 2 word ++ blanks
    ++ opt ("<" ++ run1 (isNot '>') ++ ">") ++ blanks ++ "("

/-- The word that declares a variable. -/
def declarator : Pattern := oneOf ["const", "let", "var"]

def scriptArrow : Pattern :=
  opt ("export" ++ gap) ++ declarator ++ gap ++ group 1 word ++ blanks
    ++ opt (":" ++ run1 (isNot '=')) ++ "=" ++ blanks ++ opt (group 2 ("async" ++ gap))
    ++ alt ("(" ++ run (isNot ')') ++ ")") word ++ blanks
    ++ opt (":" ++ blanks ++ shortRun1 (isNot '=')) ++ blanks ++ "=>"

def scriptConstructor : Pattern := "constructor" ++ blanks ++ "("

def scriptMethod : Pattern :=
  star (oneOf ["public", "private", "protected", "readonly"] ++ gap) ++ opt ("static" ++ gap)
    ++ opt (group 1 ("async" ++ gap)) ++ opt (oneOf ["get", "set"] ++ gap) ++ opt "*" ++ blanks
    ++ group 2 word ++ blanks ++ opt ("<" ++ run1 (isNot '>') ++ ">") ++ blanks ++ "("

def scriptRequire : Pattern :=
  declarator ++ gap ++ group 1 (alt word ("\x7b" ++ run (isNot '}') ++ "\x7d")) ++ blanks ++ "="
    ++ blanks ++ "require(" ++ blanks ++ nameQuote ++ group 2 (run1 fun c => !isNameQuote c)
    ++ nameQuote ++ blanks ++ ")"

def scriptImportFrom : Pattern :=
  "import" ++ gap ++ group 1 (shortRun1 isLineChar) ++ gap ++ "from" ++ gap ++ nameQuote
    ++ group 2 (run1 fun c => !isNameQuote c) ++ nameQuote

def scriptImport : Pattern :=
  "import" ++ gap ++ nameQuote ++ group 1 (run1 fun c => !isNameQuote c) ++ nameQuote

def scriptExportDefault : Pattern :=
  "export" ++ gap ++ "default" ++ gap ++ group 1 restOfLine1 ++ finish

def scriptExportList : Pattern :=
  "export" ++ blanks ++ "\x7b" ++ group 1 (shortRun1 isLineChar) ++ "\x7d"

/-! ## Compiled sources -/

/-- A character of a qualified name. -/
def isQualified (c : Char) : Bool := isWordChar c || c == ':'

def includeForm : Pattern :=
  "#" ++ blanks ++ "include" ++ blanks ++ group 1 (char fun c => c == '<' || c == '"')
    ++ group 2 (run1 fun c => c != '>' && c != '"') ++ char (fun c => c == '>' || c == '"')

def defineForm : Pattern :=
  "#" ++ blanks ++ "define" ++ gap ++ group 1 word
    ++ opt (group 2 ("(" ++ group 3 (run (isNot ')')) ++ ")")) ++ blanks ++ group 4 restOfLine
    ++ finish

def directiveForm : Pattern :=
  "#" ++ blanks
    ++ group 1 (oneOf ["ifdef", "ifndef", "if", "elif", "else", "endif", "pragma", "undef",
      "error", "warning"])
    ++ edge ++ blanks ++ group 2 restOfLine ++ finish

def namespaceForm : Pattern := "namespace" ++ gap ++ group 1 word

def usingForm : Pattern := "using" ++ gap ++ "namespace" ++ gap ++ group 1 (run1 isQualified)

def classForm : Pattern :=
  "class" ++ gap ++ group 1 word
    ++ opt (blanks ++ ":" ++ blanks ++ opt (oneOf ["public", "private", "protected"]) ++ blanks
      ++ group 2 (run1 isQualified))

/-- The word of a type with members. -/
def recordWord : Pattern := oneOf ["struct", "union", "enum"]

def typedefRecordForm : Pattern :=
  "typedef" ++ gap ++ group 1 recordWord ++ blanks ++ group 2 (run isWordChar)

def typedefForm : Pattern :=
  "typedef" ++ gap ++ group 1 (shortRun1 isLineChar) ++ gap ++ run (· == '*') ++ group 2 word
    ++ blanks ++ ";"

def recordForm : Pattern :=
  group 1 recordWord ++ gap ++ group 2 word ++ blanks ++ opt ("\x7b" ++ restOfLine) ++ finish

def templateForm : Pattern := "template" ++ blanks ++ "<" ++ group 1 restOfLine1 ++ ">"

/-- The words that may stand before the return type of a function. -/
def functionWord : Pattern :=
  oneOf ["static", "inline", "virtual", "extern", "const", "unsigned", "signed", "struct",
    "explicit"]

def functionForm : Pattern :=
  star (functionWord ++ gap)
    ++ group 1 (run1 fun c => isWordChar c || c == ':' || c == '<' || c == '>')
    ++ alt (blanks ++ group 2 (alt (run1 (· == '*')) "&") ++ blanks) gap
    ++ group 3 (run1 fun c => isWordChar c || c == ':' || c == '~') ++ blanks
    ++ "(" ++ group 4 (run (isNot ')')) ++ ")" ++ blanks ++ opt ("const" ++ blanks)
    ++ opt ("override" ++ blanks) ++ opt (group 5 (alt "\x7b" ";"))

def constructorForm : Pattern :=
  group 1 (opt "~" ++ word) ++ blanks ++ "(" ++ group 2 (run (isNot ')')) ++ ")"

/-- The types by which a global variable is recognised. -/
def plainType : Pattern :=
  oneOf ["int", "float", "double", "char", "long", "short", "void", "bool", "size_t", "uint8_t",
    "uint16_t", "uint32_t", "uint64_t", "int8_t", "int16_t", "int32_t", "int64_t"]

def globalForm : Pattern :=
  group 1 (opt ("extern" ++ gap) ++ opt ("static" ++ gap) ++ opt ("const" ++ gap)
    ++ opt ("volatile" ++ gap) ++ opt (alt ("unsigned" ++ gap) ("signed" ++ gap)) ++ plainType
    ++ edge ++ blanks ++ run (· == '*'))
    ++ blanks ++ group 2 word ++ opt ("[" ++ group 3 (run (isNot ']')) ++ "]") ++ blanks
    ++ opt ("=" ++ blanks ++ group 4 (shortRun1 isLineChar)) ++ blanks ++ opt ";" ++ finish

/-- A call of a function by name. -/
def callForm (function : Text) : Pattern := edge ++ lit function ++ blanks ++ "("

end Marginalia.Braced
