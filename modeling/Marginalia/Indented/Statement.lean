import Marginalia.Indented.Expression
import Marginalia.Indented.ParseTree

/-!
# Statements of indented sources

A source is a list of statements, those with blocks being trees of further statements. Blocks are
found by indentation. Two liberties are taken: a header may have no block, and a line may be indented
deeper than its neighbours without opening one. Expressions have no nodes inside them, and the only
keywords and symbols with nodes of their own are those that begin a statement or clause.
-/

namespace Marginalia.Indented

open Parse

/-! ## Statements on one line -/

/-- The kind of the node of an expression. -/
def ExprKind.treeKind : ExprKind → TreeKind
  | .name => .other "identifier"
  | .attribute => .other "attribute"
  | .subscript => .other "subscript"
  | .call => .call
  | .list => .list
  | .dict => .dictionary
  | .tuple => .other "expression_list"
  | .group => .other "parenthesized_expression"
  | .lambda => .lambda
  | .listComprehension => .listComprehension
  | .dictComprehension => .dictionaryComprehension
  | .setComprehension => .setComprehension
  | .generator => .generatorExpression
  | .other => .other "expression"

/-- The node of a name. -/
def nameLeaf (field? : Option TreeField) (t : Token) : ParseTree :=
  .leaf (.other "identifier") field? t.span

/-- The node of an expression that was read. -/
def exprLeaf (field? : Option TreeField) (read : Span × Expr) : ParseTree :=
  .leaf read.2.kind.treeKind field? read.1

/-- The joined line ends right before the next token. They are nodes of their own. -/
def joinsHere : Parse (List ParseTree) := fun ts =>
  .ok (((ts.head?.map (·.joins)).getD []).map (.leaf (.other "line_continuation") none), ts)

/-- The next token, which is not passed over. -/
def tokenHere : Parse (List ParseTree) := fun ts => .ok ((ts.head?.map Token.leaf).toList, ts)

/-- A name with dots in it. -/
def dottedName : Parse Unit := do
  discard name
  repeatWhile do
    if ← accept "." then
      discard name
      return true
    else return false

/-- A value that may be missing. -/
def optionalValue : Parse (List ParseTree) := do
  let joins ← joinsHere
  if ← seesExpression then
    let value ← covered (byRule .expressions)
    return joins ++ [exprLeaf none value]
  else return []

/-- An imported name, which may be given another one. -/
def importedItem (read : Parse Unit) : Parse ParseTree := do
  let (item, _) ← covered read
  if ← accept "as" then
    let called ← name
    return .branch .aliasedImport (some .name)
      [.leaf (.other "dotted_name") (some .name) item, nameLeaf none called]
  return .leaf (.other "dotted_name") (some .name) item

/-- Imported names with commas between them. -/
def importedItems (read : Parse Unit) : Nat → Parse (List ParseTree)
  | 0 => stuck
  | fuel + 1 => do
    let first ← importedItem read
    if ← accept "," then return first :: (← importedItems read fuel) else return [first]

def importStatement (first : List ParseTree) : Parse ParseTree := do
  let names ← importedItems dottedName ((← get).length + 1)
  return .branch .importStatement none (first ++ names)

/-- What is imported from a module. -/
def selection : Parse (List ParseTree) := do
  let all ← tokenHere
  if ← accept "*" then return [.branch .wildcardImport none all]
  if ← accept "(" then
    let (names, _) ← listUntil ")" (importedItem (discard name))
    if names.isEmpty then stuck
    return names
  importedItems (discard name) ((← get).length + 1)

def selectiveImport (first : List ParseTree) : Parse ParseTree := do
  let isFuture ← sees "__future__"
  let (module, _) ← covered do
    if (← sees ".") || (← sees "...") then
      repeatWhile (acceptAny [".", "..."])
      if !(← sees "import") then dottedName
    else dottedName
  expect "import"
  let names ← selection
  if isFuture && names.all (·.kind != .wildcardImport) then
    return .branch .futureImportStatement none (first ++ names)
  else
    let module : ParseTree := .leaf (.other "dotted_name") (some .moduleName) module
    return .branch .importFromStatement none (first ++ [module] ++ names)

def assertStatement (first : List ParseTree) : Parse ParseTree := do
  let joins ← joinsHere
  let test ← covered (byRule .expression)
  let afterTest ← joinsHere
  let message ← do
    if ← accept "," then
      let beforeMessage ← joinsHere
      let message ← covered (byRule .expression)
      pure (afterTest ++ beforeMessage ++ [exprLeaf none message])
    else pure []
  return .branch .assertStatement none (first ++ joins ++ [exprLeaf none test] ++ message)

/-- The value of an assignment. -/
def assigned : Parse (Span × Expr) := do
  if ← sees "yield" then covered (byRule .yielding) else covered (byRule .expressions)

/-- What follows an equals sign of an assignment: its value, or the assignment to the next target. -/
def assignmentTail : Nat → Parse ParseTree
  | 0 => stuck
  | fuel + 1 => do
    let value ← assigned
    if ← sees "=" then
      if !value.2.isTarget then stuck
      advance
      return .branch .assignment (some .right)
        [exprLeaf (some .left) value, ← assignmentTail fuel]
    else return exprLeaf (some .right) value

/-- The operators that assign. -/
def augmentedOperators : List Text :=
  ["+=", "-=", "*=", "/=", "//=", "%=", "@=", "&=", "|=", "^=", ">>=", "<<=", "**="]

/-- The node of an assignment or of an expression on its own. -/
def expressionNode : Parse ParseTree := do
  let left ← assigned
  if ← sees "=" then
    if !left.2.isTarget then stuck
    advance
    let right ← assignmentTail ((← get).length + 1)
    return .branch .assignment none [exprLeaf (some .left) left, right]
  else if ← sees ":" then
    if !left.2.isSingleTarget then stuck
    advance
    let annotation ← covered (byRule .expression)
    let value ← do
      if ← accept "=" then pure [exprLeaf (some .right) (← assigned)] else pure []
    return .branch .assignment none
      ([exprLeaf (some .left) left, .leaf (.other "type") none annotation.1] ++ value)
  else
    match (← get).head? with
    | some t =>
      if t.kind == .symbol && augmentedOperators.contains t.text then
        if !left.2.isSingleTarget then stuck
        advance
        let value ← assigned
        return .branch .augmentedAssignment none
          [exprLeaf (some .left) left, t.leaf.inField .operator, exprLeaf (some .right) value]
      else return exprLeaf none left
    | none => return exprLeaf none left

/-- An assignment, or an expression on its own. -/
def expressionStatement : Parse ParseTree := do
  return .branch (.other "expression_statement") none [← expressionNode]

/-- Nothing but the end of the line or a semicolon may follow. -/
def endsHere : Parse Unit := do
  if (← get).isEmpty || (← sees ";") then return else stuck

/-- A print without parentheses. -/
def printStatement : Parse ParseTree := do
  let first ← tokenHere
  expect "print"
  if ← accept ">>" then
    discard (byRule .expression)
    if ← accept "," then discard (byRule .expressions)
  else discard (byRule .expressions)
  endsHere
  return .branch (.other "print_statement") none first

/-- A statement that fits on a line. -/
def simpleStatement : Parse ParseTree := do
  let first ← tokenHere
  if ← acceptAny ["pass", "break", "continue"] then
    return .branch (.other "keyword_statement") none first
  else if ← accept "return" then
    return .branch .returnStatement none (first ++ (← optionalValue))
  else if ← accept "raise" then
    let value ← optionalValue
    if !value.isEmpty then
      if ← accept "from" then discard (byRule .expression)
    return .branch .raiseStatement none (first ++ value)
  else if ← acceptAny ["global", "nonlocal"] then
    discard (importedItems (discard name) ((← get).length + 1))
    return .branch (.other "keyword_statement") none first
  else if ← accept "del" then
    let e ← byRule .expressions
    if !e.isTarget then stuck
    return .branch (.other "delete_statement") none first
  else if ← accept "assert" then assertStatement first
  else if ← accept "import" then importStatement first
  else if ← accept "from" then selectiveImport first
  else if ← sees "print" then
    orElse (do
      let s ← expressionStatement
      endsHere
      return s) printStatement
  else expressionStatement

/-- The statements of one line. -/
def simpleLine : Nat → Parse (List ParseTree)
  | 0 => stuck
  | fuel + 1 => do
    let s ← simpleStatement
    if ← accept ";" then
      if (← get).isEmpty then return [s] else return s :: (← simpleLine fuel)
    else if (← get).isEmpty then return [s]
    else stuck

/-! ## Headers of blocks -/

/-- The parts of a bracketed list, whose kinds `item` tells, and joined line ends. -/
def partsUntil (closer : Text) (item : Parse TreeKind) : Nat → Parse (List ParseTree)
  | 0 => stuck
  | fuel + 1 => do
    let before ← joinsHere
    if ← accept closer then return before
    let (part, kind) ← covered item
    let after ← joinsHere
    let parts := before ++ [.leaf kind none part] ++ after
    if ← accept "," then return parts ++ (← partsUntil closer item fuel)
    else
      expect closer
      return parts

/-- A bracketed list in a field. -/
def bracketedParts (kind : TreeKind) (field? : Option TreeField) (item : Parse TreeKind) :
    Parse ParseTree := do
  let (span, parts) ← covered do
    expect "("
    partsUntil ")" item ((← get).length + 1)
  return .mk kind false field? span parts

/-- The name and the parameters of a function, up to the colon. -/
def functionHeader : Parse (List ParseTree) := do
  let function ← name
  let parameters ← bracketedParts (.other "parameters") (some .parameters) do
    parameter byRule true
    return .other "parameter"
  if ← accept "->" then discard (byRule .expression)
  expect ":"
  return [nameLeaf (some .name) function, parameters]

/-- An argument of a class header. -/
def baseArgument : Parse TreeKind := do
  let isKeyword := (← get).head?.any isName && (← seesSecond "=")
  argument byRule
  return if isKeyword then .keywordArgument else .other "argument"

/-- The name and the bases of a class, up to the colon. -/
def classHeader : Parse (List ParseTree) := do
  let className ← name
  let bases ← do
    if ← sees "(" then
      pure [← bracketedParts (.other "argument_list") (some .superclasses) baseArgument]
    else pure []
  expect ":"
  return nameLeaf (some .name) className :: bases

def forHeader : Parse (List ParseTree) := do
  let target ← covered (byRule .targets)
  expect "in"
  let iterable ← covered (byRule .expressions)
  expect ":"
  return [exprLeaf (some .left) target, exprLeaf (some .right) iterable]

def conditionHeader : Parse (List ParseTree) := do
  let condition ← covered (byRule .namedExpression)
  expect ":"
  return [exprLeaf (some .condition) condition]

/-- One context of a with block. -/
def withItem : Parse ParseTree := do
  let (item, _) ← covered do
    discard (byRule .expression)
    if ← accept "as" then
      let e ← starred byRule .arithmetic
      if !e.isTarget then stuck
  return .leaf .withItem none item

/-- Contexts with commas between them. -/
def withItemList : Nat → Parse (List ParseTree)
  | 0 => stuck
  | fuel + 1 => do
    let item ← withItem
    if ← accept "," then return item :: (← withItemList fuel) else return [item]

/-- The contexts of a with block. A single one keeps the parentheses around it. -/
def withHeader : Parse (List ParseTree) := do
  let fuel := (← get).length + 1
  let items ← orElse (do
    let (whole, items, hasComma) ← covered do
      expect "("
      listUntil ")" withItem
    expect ":"
    if items.isEmpty then stuck
    return if hasComma && items.length > 1 then items else [.leaf .withItem none whole]) (do
    let items ← withItemList fuel
    expect ":"
    return items)
  return [.branch .withClause none items]

/-- The kind of a handler and the error it catches, if it names any. -/
def handlerHeader : Parse (TreeKind × List ParseTree) := do
  let kind := if ← accept "*" then .exceptGroupClause else .exceptClause
  let joins ← joinsHere
  if ← seesExpression then
    let caught ← covered (byRule .expression)
    let error ← do
      if ← accept "as" then
        let called ← name
        pure (.branch .asPattern none [exprLeaf none caught, nameLeaf none called])
      else pure (exprLeaf none caught)
    expect ":"
    return (kind, joins ++ [error])
  else
    expect ":"
    return (kind, [])

/-- A header of one keyword. -/
def bareHeader : Parse Unit := expect ":"

/-- The pattern of a case, up to its guard or colon. -/
def patternTokens : Nat → Nat → Parse Unit
  | 0, _ => stuck
  | fuel + 1, depth => do
    if depth == 0 && ((← sees ":") || (← sees "if")) then return
    else if ← acceptAny ["(", "[", "\x7b"] then patternTokens fuel (depth + 1)
    else if ← acceptAny [")", "]", "\x7d"] then patternTokens fuel (depth - 1)
    else
      match (← get).head? with
      | none => stuck
      | some t =>
        if t.kind == .junk then stuck
        advance
        patternTokens fuel depth

/-- A case up to its colon. -/
def caseHeader : Parse Unit := do
  if (← sees ":") || (← sees "if") then stuck
  patternTokens ((← get).length + 1) 0
  if ← accept "if" then discard (byRule .namedExpression)
  expect ":"

/-- The subject of a choice, after which the line ends. -/
def choiceHeader : Parse Unit := do
  expect "match"
  discard (commaItems (starred byRule .namedExpression))
  expect ":"
  if !(← get).isEmpty then stuck

/-! ## Blocks -/

/-- Where reading stopped: the physical line to blame, and the token that no rule accepts unless it
was the end of a line. -/
structure Stop where
  line : Nat
  token : Option Token
deriving Repr

namespace Line

/-- The indentation of a line. -/
def column (l : Line) : Nat := (l.tokens.head?.map (·.column)).getD 0

/-- Whether a line starts with a symbol or keyword. -/
def startsWith (l : Line) (s : Text) : Bool := l.tokens.head?.any (·.spells s)

/-- The node of the keyword that a line starts with. -/
def first (l : Line) : List ParseTree := (l.tokens.head?.map Token.leaf).toList

/-- Where reading stopped with some tokens left. An open bracket is blamed rather than what follows
on later lines. -/
def blamed (l : Line) (left : List Token) : Stop :=
  let found := (left.head?.map (·.line)).getD l.last
  ⟨match l.unclosed with
    | some bracket => min found bracket
    | none => found, left.head?⟩

/-- Reads tokens of this line. -/
def parse {α : Type} (l : Line) (step : Parse α) (ts : List Token) : Except Stop (α × List Token) :=
  match step ts with
  | .ok r => .ok r
  | .error left => .error (l.blamed left)

end Line

/-- Reads nodes from logical lines. -/
abbrev Blocks := Except Stop (List ParseTree × List Line)

/-- The block of a header whose colon was read, unless there is none: the rest of its line, or the
lines that are indented deeper than the block around. `block` reads statements from a column on. -/
def suite (block : Nat → List Line → Blocks) (floor : Nat) (l : Line) (ts : List Token)
    (ls : List Line) : Blocks := do
  if ts.isEmpty then
    match ls with
    | next :: _ =>
      if next.column > floor then
        let (body, ls) ← block next.column ls
        return ([.branch .block none body], ls)
      else return ([], ls)
    | [] => return ([], ls)
  else
    let (body, _) ← l.parse (simpleLine (ts.length + 1)) ts
    return ([.branch .block none body], ls)

/-- The clauses that may follow a block. `clause?` reads the header of a clause by its line, without
its keyword, and gives the kind of the clause. -/
def clauses (block : Nat → List Line → Blocks) (floor : Nat)
    (clause? : Line → Option (Parse (TreeKind × List ParseTree))) : Nat → List Line → Blocks
  | 0, ls => return ([], ls)
  | _, [] => return ([], [])
  | fuel + 1, l :: ls =>
    if l.column < floor then return ([], l :: ls)
    else
      match clause? l with
      | none => return ([], l :: ls)
      | some header => do
        let ((kind, parts), ts) ← l.parse header (l.tokens.drop 1)
        let (body, rest) ← suite block floor l ts ls
        let (more, rest) ← clauses block floor clause? fuel rest
        return (.branch kind none (l.first ++ parts ++ body) :: more, rest)

/-- At most one clause without a header. -/
def clause (block : Nat → List Line → Blocks) (floor : Nat) (keyword : Text) (kind : TreeKind)
    (ls : List Line) : Blocks := do
  match ls with
  | l :: ls' =>
    if l.column ≥ floor && l.startsWith keyword then
      let (_, ts) ← l.parse bareHeader (l.tokens.drop 1)
      let (body, rest) ← suite block floor l ts ls'
      return ([.branch kind none (l.first ++ body)], rest)
    else return ([], ls)
  | [] => return ([], [])

/-- The clauses after the block of a try, which starts on `line`. -/
def tryClauses (block : Nat → List Line → Blocks) (floor line : Nat) (ls : List Line) :
    Blocks := do
  let (caught, ls) ← clauses block floor
    (fun l => if l.startsWith "except" then some handlerHeader else none) ls.length ls
  let (other, ls) ←
    if caught.isEmpty then pure ([], ls) else clause block floor "else" .elseClause ls
  let (final, ls) ← clause block floor "finally" .finallyClause ls
  if caught.isEmpty && final.isEmpty then
    .error (match ls with
      | l :: _ => l.blamed l.tokens
      | [] => ⟨line, none⟩)
  else return (caught ++ other ++ final, ls)

/-- A header with its block. `front` are the keywords before it. -/
def headed (block : Nat → List Line → Blocks) (floor : Nat) (kind : TreeKind)
    (header : Parse (List ParseTree)) (front : List ParseTree) (l : Line) (ts : List Token)
    (ls : List Line) : Except Stop (ParseTree × List Line) := do
  let (parts, ts) ← l.parse header ts
  let (body, ls) ← suite block floor l ts ls
  return (.branch kind none (front ++ parts ++ body), ls)

/-- A loop with its alternative. -/
def looped (block : Nat → List Line → Blocks) (floor : Nat) (kind : TreeKind)
    (header : Parse (List ParseTree)) (front : List ParseTree) (l : Line) (ts : List Token)
    (ls : List Line) : Blocks := do
  let (loop, ls) ← headed block floor kind header front l ts ls
  let (other, ls) ← clause block floor "else" .elseClause ls
  return ([.branch kind none (loop.children ++ other)], ls)

/-- The cases of a choice, whose header was read. -/
def choiceStatement (block : Nat → List Line → Blocks) (floor : Nat) (front : List ParseTree)
    (ls : List Line) : Blocks := do
  let caseClause : Parse (TreeKind × List ParseTree) := do
    caseHeader
    return (.other "case_clause", [])
  match ls with
  | next :: _ =>
    if next.column > floor then
      let (cases, rest) ← clauses block next.column
        (fun l => if l.startsWith "case" then some caseClause else none) ls.length ls
      match rest with
      | l :: _ =>
        if l.column ≥ next.column then .error (l.blamed l.tokens)
        else return ([.branch (.other "match_statement") none (front ++ cases)], rest)
      | [] => return ([.branch (.other "match_statement") none (front ++ cases)], rest)
    else return ([.branch (.other "match_statement") none front], ls)
  | [] => return ([.branch (.other "match_statement") none front], [])

/-- The decorator on a line, up to the end of the line. -/
def decoratorOn (l : Line) (mark : Token) (read : Span) : ParseTree :=
  .leaf .decorator none ⟨mark.offset, read.stop + l.comment.length⟩

/-- A definition with the decorators before it. -/
def decoratedStatement (block : Nat → List Line → Blocks) (floor : Nat)
    (decorators : List ParseTree) : List Line → Nat → Blocks
  | [], line => .error ⟨line, none⟩
  | l :: ls, _ =>
    let whole (read : ParseTree × List Line) : List ParseTree × List Line :=
      ([.branch .decoratedDefinition none (decorators ++ [read.1.inField .definition])], read.2)
    match l.tokens with
    | [] => .error ⟨l.last, none⟩
    | t :: ts =>
      if l.column < floor then .error (l.blamed l.tokens)
      else if t.spells "@" then do
        let ((read, _), left) ← l.parse (covered (byRule .namedExpression)) ts
        if !left.isEmpty then .error (l.blamed left)
        else decoratedStatement block floor (decorators ++ [decoratorOn l t read]) ls l.last
      else if t.spells "def" then
        (headed block floor .functionDefinition functionHeader l.first l ts ls).map whole
      else if t.spells "class" then
        (headed block floor .classDefinition classHeader l.first l ts ls).map whole
      else
        match ts with
        | k :: rest =>
          if t.spells "async" && k.spells "def" then
            (headed block floor .functionDefinition functionHeader (l.first ++ [k.leaf]) l rest
              ls).map whole
          else .error (l.blamed l.tokens)
        | [] => .error (l.blamed l.tokens)

/-- One statement, or the statements of one line. -/
def statement (block : Nat → List Line → Blocks) (floor : Nat) (l : Line) (ls : List Line) :
    Blocks :=
  let single (read : ParseTree × List Line) : List ParseTree × List Line := ([read.1], read.2)
  match l.tokens with
  | [] => return ([], ls)
  | t :: ts =>
    if t.spells "if" then do
      let (branch, ls) ← headed block floor .ifStatement conditionHeader l.first l ts ls
      let elifHeader : Parse (TreeKind × List ParseTree) := do
        return (.other "elif_clause", ← conditionHeader)
      let (others, ls) ← clauses block floor
        (fun l => if l.startsWith "elif" then some elifHeader else none) ls.length ls
      let (other, ls) ← clause block floor "else" .elseClause ls
      return ([.branch .ifStatement none (branch.children ++ others ++ other)], ls)
    else if t.spells "while" then looped block floor .whileStatement conditionHeader l.first l ts ls
    else if t.spells "for" then looped block floor .forStatement forHeader l.first l ts ls
    else if t.spells "with" then
      (headed block floor .withStatement withHeader l.first l ts ls).map single
    else if t.spells "try" then do
      let (_, ts) ← l.parse bareHeader ts
      let (body, ls) ← suite block floor l ts ls
      let (clauses, ls) ← tryClauses block floor t.line ls
      return ([.branch .tryStatement none (l.first ++ body ++ clauses)], ls)
    else if t.spells "def" then
      (headed block floor .functionDefinition functionHeader l.first l ts ls).map single
    else if t.spells "class" then
      (headed block floor .classDefinition classHeader l.first l ts ls).map single
    else if t.spells "@" then decoratedStatement block floor [] (l :: ls) t.line
    else if t.spells "async" then
      match ts with
      | k :: rest =>
        let front := l.first ++ [k.leaf]
        if k.spells "def" then
          (headed block floor .functionDefinition functionHeader front l rest ls).map single
        else if k.spells "for" then looped block floor .forStatement forHeader front l rest ls
        else if k.spells "with" then
          (headed block floor .withStatement withHeader front l rest ls).map single
        else .error (l.blamed ts)
      | [] => .error (l.blamed [])
    else
      match t.spells "match", choiceHeader (t :: ts) with
      | true, .ok _ => choiceStatement block floor l.first ls
      | _, _ => do
        let (body, _) ← l.parse (simpleLine (l.tokens.length + 1)) l.tokens
        return (body, ls)

/-- The statements from a column on. Every statement takes a line, so that `fuel` bounds their
number. -/
def blockFuel : Nat → Nat → List Line → Blocks
  | 0, _, ls => return ([], ls)
  | _, _, [] => return ([], [])
  | fuel + 1, floor, l :: ls =>
    if l.column < floor then return ([], l :: ls)
    else do
      let (first, rest) ← statement (blockFuel fuel) floor l ls
      let (more, rest) ← blockFuel fuel floor rest
      return (first ++ more, rest)

/-- The statements of a source. -/
def statementsOf (source : Text) : Except Stop (List ParseTree) :=
  let ls := linesOf source
  (blockFuel (ls.length + 1) 0 ls).map (·.1)

end Marginalia.Indented
