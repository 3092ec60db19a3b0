import Marginalia.Text.Basic

/-!
# Parse trees of indented sources

The tree that a grammar makes of a source. A node has a kind, covers a stretch of the source and may
fill a field of the node around it. Keywords and symbols are nodes too, but have no name of their
own. Where a source breaks the rules there are nodes for what fits no rule and for what is missing.
-/

namespace Marginalia.Indented

/-- The kinds of nodes, as far as they are told apart. -/
inductive TreeKind where
  | decoratedDefinition
  | decorator
  | functionDefinition
  | classDefinition
  | keywordArgument
  | forStatement
  | whileStatement
  | ifStatement
  | withStatement
  | withClause
  | withItem
  | tryStatement
  | exceptClause
  | exceptGroupClause
  | elseClause
  | finallyClause
  | importStatement
  | importFromStatement
  | futureImportStatement
  | wildcardImport
  | aliasedImport
  | returnStatement
  | raiseStatement
  | assertStatement
  | assignment
  | augmentedAssignment
  | block
  | asPattern
  | call
  | list
  | dictionary
  | lambda
  | listComprehension
  | dictionaryComprehension
  | setComprehension
  | generatorExpression
  | string
  | comment
  /-- What fits no rule. -/
  | error
  /-- A keyword or symbol, which stands for itself. -/
  | token (text : Text)
  | other (name : Text)
deriving Repr, DecidableEq

namespace TreeKind

/-- What a kind is called. -/
def name : TreeKind → Text
  | decoratedDefinition => "decorated_definition"
  | decorator => "decorator"
  | functionDefinition => "function_definition"
  | classDefinition => "class_definition"
  | keywordArgument => "keyword_argument"
  | forStatement => "for_statement"
  | whileStatement => "while_statement"
  | ifStatement => "if_statement"
  | withStatement => "with_statement"
  | withClause => "with_clause"
  | withItem => "with_item"
  | tryStatement => "try_statement"
  | exceptClause => "except_clause"
  | exceptGroupClause => "except_group_clause"
  | elseClause => "else_clause"
  | finallyClause => "finally_clause"
  | importStatement => "import_statement"
  | importFromStatement => "import_from_statement"
  | futureImportStatement => "future_import_statement"
  | wildcardImport => "wildcard_import"
  | aliasedImport => "aliased_import"
  | returnStatement => "return_statement"
  | raiseStatement => "raise_statement"
  | assertStatement => "assert_statement"
  | assignment => "assignment"
  | augmentedAssignment => "augmented_assignment"
  | block => "block"
  | asPattern => "as_pattern"
  | call => "call"
  | list => "list"
  | dictionary => "dictionary"
  | lambda => "lambda"
  | listComprehension => "list_comprehension"
  | dictionaryComprehension => "dictionary_comprehension"
  | setComprehension => "set_comprehension"
  | generatorExpression => "generator_expression"
  | string => "string"
  | comment => "comment"
  | error => "ERROR"
  | token text => text
  | other name => name

/-- Whether a kind has a name, as all but keywords and symbols do. -/
def isNamed : TreeKind → Bool
  | token _ => false
  | _ => true

end TreeKind

/-- The fields of nodes, as far as they are asked for. -/
inductive TreeField where
  | name
  | parameters
  | superclasses
  | definition
  | left
  | right
  | condition
  | operator
  | moduleName
deriving Repr, DecidableEq

/-- A stretch of a source, by the numbers of characters before its start and before its end. -/
structure Span where
  start : Nat
  stop : Nat
deriving Repr, DecidableEq

/-- A node with those inside it. `field?` is the field that it fills in the node around it. -/
inductive ParseTree where
  | mk (kind : TreeKind) (isMissing : Bool) (field? : Option TreeField) (span : Span)
    (children : List ParseTree)
deriving Repr

namespace ParseTree

def kind : ParseTree → TreeKind
  | mk k _ _ _ _ => k

/-- Whether a token was made up where the source lacks it. -/
def isMissing : ParseTree → Bool
  | mk _ m _ _ _ => m

def field? : ParseTree → Option TreeField
  | mk _ _ f _ _ => f

def span : ParseTree → Span
  | mk _ _ _ s _ => s

def children : ParseTree → List ParseTree
  | mk _ _ _ _ cs => cs

def start (t : ParseTree) : Nat := t.span.start

def stop (t : ParseTree) : Nat := t.span.stop

def isNamed (t : ParseTree) : Bool := t.kind.isNamed

/-- The source that a node covers. -/
def text (source : Text) (t : ParseTree) : Text := (source.take t.stop).drop t.start

/-- The number of lines before the one on which a node starts. -/
def row (source : Text) (t : ParseTree) : Nat := (source.take t.start).count '\n'

def namedChildren (t : ParseTree) : List ParseTree := t.children.filter isNamed

/-- Whether a node fills a field of the node around it. -/
def fills (f : TreeField) (t : ParseTree) : Bool := t.field? == some f

/-- The first child in a field. -/
def child? (t : ParseTree) (f : TreeField) : Option ParseTree := t.children.find? (fills f)

/-- All children in a field. -/
def childrenIn (t : ParseTree) (f : TreeField) : List ParseTree := t.children.filter (fills f)

/-- Whether a keyword or symbol is among the children. -/
def hasToken (t : ParseTree) (text : Text) : Bool := t.children.any (·.kind == .token text)

mutual

/-- Whether something is wrong with a node or inside it. -/
def hasError : ParseTree → Bool
  | mk kind isMissing _ _ children => kind == .error || isMissing || anyHasError children

def anyHasError : List ParseTree → Bool
  | [] => false
  | t :: ts => hasError t || anyHasError ts

end

mutual

/-- The first node, in the order of the source, with which something is wrong. -/
def firstProblem : ParseTree → Option ParseTree
  | mk kind isMissing field? span children =>
    if kind == .error || isMissing then some (mk kind isMissing field? span children)
    else firstProblemIn children

def firstProblemIn : List ParseTree → Option ParseTree
  | [] => none
  | t :: ts =>
    if hasError t || t.isMissing then (firstProblem t).or (firstProblemIn ts)
    else firstProblemIn ts

end

/-! ## Making trees -/

/-- A node without children. -/
def leaf (kind : TreeKind) (field? : Option TreeField) (span : Span) : ParseTree :=
  mk kind false field? span []

/-- A node that covers its children. -/
def branch (kind : TreeKind) (field? : Option TreeField) (children : List ParseTree) : ParseTree :=
  mk kind false field? ⟨(children.head?.map start).getD 0, (children.getLast?.map stop).getD 0⟩
    children

/-- A node in a field. -/
def inField (f : TreeField) : ParseTree → ParseTree
  | mk kind isMissing _ span children => mk kind isMissing (some f) span children

end ParseTree

end Marginalia.Indented
