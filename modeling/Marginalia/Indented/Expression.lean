import Marginalia.Indented.Line

/-!
# Expressions of indented sources

A recogniser for expressions. It finds where an expression ends and what it is at its outermost
level; the parts of an expression are not kept. Rules call each other through one function, whose
fuel is the depth of the calls.
-/

namespace Marginalia.Indented

/-- What an expression is at its outermost level. -/
inductive ExprKind where
  | name
  | attribute
  | subscript
  | call
  | list
  | dict
  | tuple
  | group
  | lambda
  | listComprehension
  | dictComprehension
  | setComprehension
  | generator
  | other
deriving Repr, DecidableEq

/-- What is known of an expression: its kind, and whether it can be assigned to, as one of several
targets or as the only one. -/
structure Expr where
  kind : ExprKind
  isTarget : Bool
  isSingleTarget : Bool
deriving Repr, DecidableEq

namespace Expr

def value (kind : ExprKind) : Expr := ⟨kind, false, false⟩

def place (kind : ExprKind) : Expr := ⟨kind, true, true⟩

end Expr

/-- Reads tokens from the front; an error is the tokens that were left when no rule applied. -/
abbrev Parse (α : Type) := StateT (List Token) (Except (List Token)) α

namespace Parse

/-- No rule applies here. -/
def stuck {α : Type} : Parse α := fun ts => .error ts

/-- Whether the next token is the given symbol or keyword. -/
def sees (s : Text) : Parse Bool := fun ts =>
  .ok (ts.head?.any (·.spells s), ts)

/-- Whether the token after the next one is the given symbol or keyword. -/
def seesSecond (s : Text) : Parse Bool := fun ts =>
  .ok ((ts.drop 1).head?.any (·.spells s), ts)

/-- Passes over a symbol or keyword if it is next. -/
def accept (s : Text) : Parse Bool := fun ts =>
  match ts with
  | t :: rest => if t.spells s then .ok (true, rest) else .ok (false, ts)
  | [] => .ok (false, ts)

/-- Passes over one of several symbols or keywords if it is next. -/
def acceptAny (ss : List Text) : Parse Bool := fun ts =>
  match ts with
  | t :: rest => if ss.any t.spells then .ok (true, rest) else .ok (false, ts)
  | [] => .ok (false, ts)

/-- Passes over a symbol or keyword that must be next. -/
def expect (s : Text) : Parse Unit := do
  if !(← accept s) then stuck

/-- Whether a token is a name and no keyword. -/
def isName (t : Token) : Bool := t.kind == .name && !keywords.contains t.text

/-- A name that must be next. -/
def name : Parse Token := fun ts =>
  match ts with
  | t :: rest => if isName t then .ok (t, rest) else .error ts
  | [] => .error ts

/-- Whether a token of a kind is next. -/
def seesKind (kind : TokenKind) : Parse Bool := fun ts =>
  .ok (ts.head?.any (·.kind == kind), ts)

/-- Passes over one token. -/
def advance : Parse Unit := fun ts => .ok ((), ts.drop 1)

/-- Repeats a step as long as it says so; it takes a token whenever it does. -/
def repeatFuel (step : Parse Bool) : Nat → Parse Unit
  | 0 => pure ()
  | fuel + 1 => do if ← step then repeatFuel step fuel

def repeatWhile (step : Parse Bool) : Parse Unit := do
  repeatFuel step ((← get).length + 1)

/-- Items with commas between them up to a closing symbol, which is passed over; a comma may stand
before it. Returns the items and whether there was a comma. -/
def listFuel {α : Type} (closer : Text) (item : Parse α) : Nat → Parse (List α × Bool)
  | 0 => stuck
  | fuel + 1 => do
    if ← accept closer then return ([], false)
    let first ← item
    if ← accept "," then
      let (more, _) ← listFuel closer item fuel
      return (first :: more, true)
    else
      expect closer
      return ([first], false)

def listUntil {α : Type} (closer : Text) (item : Parse α) : Parse (List α × Bool) := do
  listFuel closer item ((← get).length + 1)

/-- The stretch that a step covers, with the step's result. -/
def covered {α : Type} (step : Parse α) : Parse (Span × α) := do
  let before ← get
  let a ← step
  let after ← get
  return (spanOf (before.take (before.length - after.length)), a)

/-- Tries a step, and another one from the same place if the first is stuck. When both are stuck,
the one that got further counts. -/
def orElse {α : Type} (first second : Parse α) : Parse α := fun ts =>
  match first ts with
  | .ok r => .ok r
  | .error left =>
    match second ts with
    | .ok r => .ok r
    | .error right => .error (if right.length < left.length then right else left)

end Parse

open Parse

/-- The rules that call each other. -/
inductive Rule where
  /-- An expression, or a name bound to one. -/
  | namedExpression
  | expression
  | disjunction
  | negation
  | comparison
  /-- Operands of arithmetic and bitwise operators. -/
  | arithmetic
  | unary
  | power
  /-- Expressions and starred ones with commas between them. -/
  | expressions
  /-- Targets of a loop with commas between them. -/
  | targets
  /-- A yield with its value. -/
  | yielding
  /-- A replacement field of a literal, after its brace. -/
  | field
deriving DecidableEq

/-- A starred operand, or what `plain` reads. -/
def starred (rule : Rule → Parse Expr) (plain : Rule) : Parse Expr := do
  if ← accept "*" then
    let e ← rule .arithmetic
    return ⟨.other, e.isTarget, false⟩
  else rule plain

/-- Whether an expression can start here. -/
def seesExpression : Parse Bool := fun ts =>
  .ok (match ts with
    | [] => false
    | t :: _ =>
      match t.kind with
      | .name => !keywords.contains t.text
        || (["False", "None", "True", "not", "lambda", "await"] : List Text).contains t.text
      | .number => true
      | .string => true
      | .opening => true
      | .symbol =>
        (["(", "[", "\x7b", "-", "+", "~", "*", "..."] : List Text).contains t.text
      | _ => false, ts)

/-- The loops and conditions of a comprehension, after its element. -/
def comprehensionTail (rule : Rule → Parse Expr) : Parse Unit :=
  repeatWhile do
    let isAsync := (← sees "async") && (← seesSecond "for")
    if isAsync then advance
    if ← accept "for" then
      discard (rule .targets)
      expect "in"
      discard (rule .disjunction)
      return true
    else if ← accept "if" then
      discard (rule .disjunction)
      return true
    else return false

/-- Whether a comprehension follows its element here. -/
def seesComprehension : Parse Bool := do
  return (← sees "for") || ((← sees "async") && (← seesSecond "for"))

/-- An argument of a call. -/
def argument (rule : Rule → Parse Expr) : Parse Unit := do
  if ← acceptAny ["*", "**"] then discard (rule .expression)
  else if (← get).head?.any isName && (← seesSecond "=") then
    advance
    advance
    discard (rule .expression)
  else
    discard (rule .namedExpression)
    if ← seesComprehension then comprehensionTail rule

/-- One index or slice. -/
def sliceItem (rule : Rule → Parse Expr) : Parse Unit := do
  if !(← sees ":") then discard (starred rule .namedExpression)
  if ← accept ":" then
    if !(← sees ":") && !(← sees ",") && !(← sees "]") then discard (rule .expression)
    if ← accept ":" then
      if !(← sees ",") && !(← sees "]") then discard (rule .expression)

/-- The annotation of a parameter, if one may stand here and does. -/
def annotation (rule : Rule → Parse Expr) (annotated : Bool) : Parse Unit := do
  if annotated then
    if ← accept ":" then discard (starred rule .expression)

/-- One parameter. Annotations are allowed in parentheses only. -/
def parameter (rule : Rule → Parse Expr) (annotated : Bool) : Parse Unit := do
  if ← accept "/" then return
  if ← accept "*" then
    if (← sees ",") then return
    discard name
    annotation rule annotated
  else if ← accept "**" then
    discard name
    annotation rule annotated
  else
    discard name
    annotation rule annotated
    if ← accept "=" then discard (rule .expression)

/-- The rest of a display or group after its opening parenthesis. -/
def parenthesized (rule : Rule → Parse Expr) : Parse Expr := do
  if ← accept ")" then return ⟨.tuple, true, false⟩
  if ← sees "yield" then
    discard (rule .yielding)
    expect ")"
    return .value .group
  let first ← starred rule .namedExpression
  if ← seesComprehension then
    comprehensionTail rule
    expect ")"
    return .value .generator
  if ← accept "," then
    let (more, _) ← listUntil ")" (starred rule .namedExpression)
    return ⟨.tuple, first.isTarget && more.all (·.isTarget), false⟩
  expect ")"
  return ⟨.group, first.isTarget, first.isSingleTarget⟩

/-- The rest of a display after its opening bracket. -/
def bracketed (rule : Rule → Parse Expr) : Parse Expr := do
  if ← accept "]" then return ⟨.list, true, false⟩
  let first ← starred rule .namedExpression
  if ← seesComprehension then
    comprehensionTail rule
    expect "]"
    return .value .listComprehension
  if ← accept "," then
    let (more, _) ← listUntil "]" (starred rule .namedExpression)
    return ⟨.list, first.isTarget && more.all (·.isTarget), false⟩
  expect "]"
  return ⟨.list, first.isTarget, false⟩

/-- One entry of a mapping. -/
def entry (rule : Rule → Parse Expr) : Parse Unit := do
  if ← accept "**" then discard (rule .arithmetic)
  else
    discard (rule .expression)
    expect ":"
    discard (rule .expression)

/-- The rest of a display after its opening brace. -/
def braced (rule : Rule → Parse Expr) : Parse Expr := do
  if ← accept "\x7d" then return .value .dict
  if ← accept "**" then
    discard (rule .arithmetic)
    if ← accept "," then discard (listUntil "\x7d" (entry rule)) else expect "\x7d"
    return .value .dict
  discard (starred rule .namedExpression)
  if ← accept ":" then
    discard (rule .expression)
    if ← seesComprehension then
      comprehensionTail rule
      expect "\x7d"
      return .value .dictComprehension
    if ← accept "," then discard (listUntil "\x7d" (entry rule)) else expect "\x7d"
    return .value .dict
  if ← seesComprehension then
    comprehensionTail rule
    expect "\x7d"
    return .value .setComprehension
  if ← accept "," then discard (listUntil "\x7d" (starred rule .namedExpression))
  else expect "\x7d"
  return .value .other

/-- The stretches and the replacement fields of a literal or a format. -/
def stretches (rule : Rule → Parse Expr) : Parse Unit :=
  repeatWhile do
    if ← seesKind .content then
      advance
      return true
    else if ← accept "\x7b" then
      discard (rule .field)
      return true
    else return false

/-- Passes over a literal if one is next. -/
def acceptLiteral (rule : Rule → Parse Expr) : Parse Bool := do
  if ← seesKind .string then
    advance
    return true
  else if ← seesKind .opening then
    advance
    stretches rule
    if !(← seesKind .closing) then stuck
    advance
    return true
  else return false

/-- Passes over the conversion of a replacement field if it is next. -/
def acceptConversion : Parse Unit := fun ts =>
  match ts with
  | t :: rest =>
    if t.kind == .symbol && (conversion? t.text).isSome then .ok ((), rest) else .ok ((), ts)
  | [] => .ok ((), ts)

/-- A name, a literal or a display. -/
def atom (rule : Rule → Parse Expr) : Parse Expr := do
  if ← accept "(" then parenthesized rule
  else if ← accept "[" then bracketed rule
  else if ← accept "\x7b" then braced rule
  else if ← acceptAny ["...", "True", "False", "None"] then return .value .other
  else if ← seesKind .number then
    advance
    return .value .other
  else if ← acceptLiteral rule then
    repeatWhile (acceptLiteral rule)
    return .value .other
  else
    discard name
    return .place .name

/-- The attributes, calls and indexes that follow an expression. -/
def trailers (rule : Rule → Parse Expr) (e : Expr) : Nat → Parse Expr
  | 0 => return e
  | fuel + 1 => do
    if ← accept "." then
      discard name
      trailers rule (.place .attribute) fuel
    else if ← accept "(" then
      discard (listUntil ")" (argument rule))
      trailers rule (.value .call) fuel
    else if ← accept "[" then
      if ← sees "]" then stuck
      discard (listUntil "]" (sliceItem rule))
      trailers rule (.place .subscript) fuel
    else return e

/-- The comparison operators, some of which are two words. -/
def acceptComparison : Parse Bool := do
  if ← acceptAny ["<", ">", "==", ">=", "<=", "!=", "in"] then return true
  else if ← accept "is" then
    discard (accept "not")
    return true
  else if (← sees "not") && (← seesSecond "in") then
    advance
    advance
    return true
  else return false

/-- Operands with operators between them. -/
def operands (operand : Parse Expr) (operator : Parse Bool) : Parse Expr := do
  let first ← operand
  if ← operator then
    discard operand
    repeatWhile do
      if ← operator then
        discard operand
        return true
      else return false
    return .value .other
  else return first

/-- The items after the first, as long as commas and expressions follow; says whether all of them
are targets. -/
def moreItems (item : Parse Expr) : Nat → Parse Bool
  | 0 => return true
  | fuel + 1 => do
    if ← accept "," then
      if ← seesExpression then
        let e ← item
        return e.isTarget && (← moreItems item fuel)
      else return true
    else return true

/-- Items with commas between them, where a comma may come last. -/
def commaItems (item : Parse Expr) : Parse Expr := do
  let first ← item
  if ← sees "," then
    let more ← moreItems item ((← get).length + 1)
    return ⟨.tuple, first.isTarget && more, false⟩
  else return first

/-- What a rule reads, in terms of the other rules. -/
def applyRule (rule : Rule → Parse Expr) : Rule → Parse Expr
  | .namedExpression => do
    if (← get).head?.any isName && (← seesSecond ":=") then
      advance
      advance
      discard (rule .expression)
      return .value .other
    else rule .expression
  | .expression => do
    if ← accept "lambda" then
      discard (listUntil ":" (parameter rule false))
      discard (rule .expression)
      return .value .lambda
    let e ← rule .disjunction
    if ← accept "if" then
      discard (rule .disjunction)
      expect "else"
      discard (rule .expression)
      return .value .other
    else return e
  | .disjunction => operands (rule .negation) (acceptAny ["or", "and"])
  | .negation => do
    if ← accept "not" then
      discard (rule .negation)
      return .value .other
    else rule .comparison
  | .comparison => operands (rule .arithmetic) acceptComparison
  | .arithmetic =>
    operands (rule .unary)
      (acceptAny ["|", "^", "&", "<<", ">>", "+", "-", "*", "/", "//", "%", "@"])
  | .unary => do
    if ← acceptAny ["+", "-", "~"] then
      discard (rule .unary)
      return .value .other
    else rule .power
  | .power => do
    let awaited ← accept "await"
    let e ← atom rule
    let e ← trailers rule e ((← get).length + 1)
    let e := if awaited then .value .other else e
    if ← accept "**" then
      discard (rule .unary)
      return .value .other
    else return e
  | .expressions => commaItems (starred rule .expression)
  | .targets => do
    let e ← commaItems (starred rule .arithmetic)
    if e.isTarget then return e else stuck
  | .yielding => do
    expect "yield"
    if ← accept "from" then discard (rule .expression)
    else if ← seesExpression then discard (rule .expressions)
    return .value .other
  | .field => do
    if ← sees "yield" then discard (rule .yielding) else discard (rule .expressions)
    if ← seesComprehension then comprehensionTail rule
    discard (accept "=")
    acceptConversion
    if ← accept ":" then stretches rule
    expect "\x7d"
    return .value .other

/-- Reads by a rule; `fuel` bounds how deep rules call each other. -/
def parseRule : Nat → Rule → Parse Expr
  | 0, _ => stuck
  | fuel + 1, r => applyRule (parseRule fuel) r

/-- Reads by a rule with fuel for every nesting that the tokens can hold. -/
def byRule (r : Rule) : Parse Expr := do
  parseRule (16 * ((← get).length + 2)) r

end Marginalia.Indented
