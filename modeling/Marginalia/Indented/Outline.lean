import Marginalia.Indented.ParseTree
import Marginalia.Outline
import Marginalia.Text.Blank

/-!
# Outlines of indented sources

The outline of a parse tree. Nodes are recognised as parts of the outline or looked through. What a
part is called depends on the nearest part around it: a function in a class is a method, a branch in
a branch or loop is nested, and an import is at top level outside everything.
-/

namespace Marginalia.Indented

open ParseTree

/-- The nearest part around a node. -/
inductive Enclosing where
  | module
  /-- A branch or a loop. -/
  | control
  | classBody (name : Text)
  | other
deriving Repr, DecidableEq

/-- What a node is recognised as: a part, its line, and what that is for the nodes inside it. -/
structure Recognised where
  kind : NodeKind
  line : Nat
  inside : Enclosing
deriving Repr, DecidableEq

section

variable (source : Text)

/-! ## Reading nodes -/

/-- The name of a parameter, without annotation and default. -/
def parameterName (part : Text) : Text :=
  Text.trim (part.takeWhile fun c => c != ':' && c != '=')

def parameterNames (parameters : ParseTree) : List Text :=
  ((parameters.namedChildren.filter (·.kind != .comment)).map
    fun t => parameterName (t.text source)).filter (!·.isEmpty)

/-- The bases among the arguments of a class. -/
def baseTexts (arguments : ParseTree) : List Text :=
  (arguments.namedChildren.filter fun t => t.kind != .keywordArgument && t.kind != .comment).map
    (text source)

/-- The decorators before a definition, without their marks. -/
def decoratorTexts (t : ParseTree) : List Text :=
  (t.namedChildren.filter (·.kind == .decorator)).map
    fun d => Text.trim ((d.text source).dropWhile (· == '@'))

/-- The contexts of a with block. -/
def withItems (t : ParseTree) : List Text :=
  (t.namedChildren.filter (·.kind == .withClause)).flatMap fun clause =>
    (clause.namedChildren.filter (·.kind == .withItem)).map (text source)

/-- The name that is imported, whatever it is called afterwards. -/
def importedName (t : ParseTree) : Text :=
  match if t.kind == .aliasedImport then t.child? .name else none with
  | some name => name.text source
  | none => t.text source

/-- The error that a handler names. -/
def caughtType (clause : ParseTree) : Option Text :=
  (clause.namedChildren.find? fun t => t.kind != .block && t.kind != .comment).map fun t =>
    let error := if t.kind == .asPattern then t.namedChildren.head?.getD t else t
    error.text source

/-- The handlers of a try. -/
def handlers (t : ParseTree) : List ParseTree :=
  t.namedChildren.filter fun c => c.kind == .exceptClause || c.kind == .exceptGroupClause

/-- The parts of a short statement, which is a keyword with expressions behind it. -/
def operandTexts (t : ParseTree) : List Text :=
  (t.namedChildren.filter (·.kind != .comment)).map (text source)

/-- The rough shape of a value by the kind of its node. -/
def TreeKind.shape : TreeKind → ValueShape
  | .call => .call
  | .list => .list
  | .dictionary => .dict
  | .lambda => .lambda
  | .listComprehension => .comprehension
  | .dictionaryComprehension => .comprehension
  | .setComprehension => .comprehension
  | .generatorExpression => .comprehension
  | _ => .other

mutual

/-- The targets of an assignment and the value that all of them get. The value of the first can be
an assignment to the second, and so on. -/
def assignmentParts : ParseTree → Option (List Text × ParseTree)
  | .mk _ _ _ _ children => do
    let left ← children.find? (fills .left)
    let (targets, value) ← assignedParts children
    return (left.text source :: targets, value)

/-- The further targets and the value of an assignment with these children. -/
def assignedParts : List ParseTree → Option (List Text × ParseTree)
  | [] => none
  | t :: ts =>
    if t.fills .right then
      if t.kind == .assignment then assignmentParts t else some ([], t)
    else assignedParts ts

end

/-! ## Recognising nodes -/

section

variable (enclosing : Enclosing) (t : ParseTree)

/-- The callable that a function is in its surroundings. -/
def callableIn (name : Text) (params : List Text) (isAsync : Bool) : Callable :=
  match enclosing with
  | .classBody owner => ⟨name, params, [], isAsync, .method, some owner⟩
  | _ => ⟨name, params, [], isAsync, .function, none⟩

def recogniseFunction : Option Recognised := do
  let name ← t.child? .name
  let params := ((t.child? .parameters).map (parameterNames source)).getD []
  return ⟨.function (callableIn enclosing (name.text source) params (t.hasToken "async")),
    t.row source + 1, .other⟩

def recogniseClass : Option Recognised := do
  let name ← t.child? .name
  let bases := ((t.child? .superclasses).map (baseTexts source)).getD []
  return ⟨.classDef (name.text source) bases [], t.row source + 1, .classBody (name.text source)⟩

def recogniseFor : Option Recognised := do
  let target ← t.child? .left
  let iterable ← t.child? .right
  return ⟨.forLoop (target.text source) (iterable.text source) (t.hasToken "async"),
    t.row source + 1, .control⟩

def recogniseWhile : Option Recognised := do
  let condition ← t.child? .condition
  return ⟨.whileLoop (condition.text source), t.row source + 1, .control⟩

def recogniseIf : Option Recognised := do
  let condition ← t.child? .condition
  return ⟨.conditional (condition.text source) (enclosing == .control), t.row source + 1, .control⟩

def recogniseWith : Option Recognised :=
  some ⟨.withBlock (withItems source t) (t.hasToken "async"), t.row source + 1, .other⟩

def recogniseTry : Option Recognised :=
  let caught := (handlers t).map (caughtType source)
  let has (kind : TreeKind) := t.namedChildren.any (·.kind == kind)
  some ⟨.tryBlock (caught.filterMap id) (caught.any (·.isNone)) (has .elseClause)
    (has .finallyClause), t.row source + 1, .other⟩

def recogniseImport : Option Recognised :=
  let names := (t.childrenIn .name).map (importedName source)
  some ⟨.imports (names.head?.getD []) [] false (enclosing == .module), t.row source + 1, .other⟩

def recogniseImportFrom : Option Recognised :=
  let module := ((t.child? .moduleName).map (text source)).getD "__future__"
  let names := (t.childrenIn .name).map (importedName source)
  let all : List Text := if t.namedChildren.any (·.kind == .wildcardImport) then ["*"] else []
  some ⟨.imports module (names ++ all) true (enclosing == .module), t.row source + 1, .other⟩

def recogniseReturn : Option Recognised :=
  some ⟨.returns (operandTexts source t).head?, t.row source + 1, .other⟩

def recogniseRaise : Option Recognised :=
  some ⟨.raises (operandTexts source t).head?, t.row source + 1, .other⟩

def recogniseAssert : Option Recognised := do
  let test ← (operandTexts source t).head?
  return ⟨.asserts test (operandTexts source t)[1]?, t.row source + 1, .other⟩

/-- A target with an annotation and no value is not recognised. -/
def recogniseAssignment : Option Recognised := do
  let (targets, value) ← assignmentParts source t
  return ⟨.assignment targets (value.text source) value.kind.shape, t.row source + 1, .other⟩

def recogniseAugmented : Option Recognised := do
  let target ← t.child? .left
  let operator ← t.child? .operator
  let value ← t.child? .right
  return ⟨.augmentedAssignment (target.text source) (operator.text source) (value.text source),
    t.row source + 1, .other⟩

/-- Recognises a node that is not decorated. -/
def recogniseStatement : Option Recognised :=
  match t.kind with
  | .functionDefinition => recogniseFunction source enclosing t
  | .classDefinition => recogniseClass source t
  | .forStatement => recogniseFor source t
  | .whileStatement => recogniseWhile source t
  | .ifStatement => recogniseIf source enclosing t
  | .withStatement => recogniseWith source t
  | .tryStatement => recogniseTry source t
  | .importStatement => recogniseImport source enclosing t
  | .importFromStatement => recogniseImportFrom source enclosing t
  | .futureImportStatement => recogniseImportFrom source enclosing t
  | .returnStatement => recogniseReturn source t
  | .raiseStatement => recogniseRaise source t
  | .assertStatement => recogniseAssert source t
  | .assignment => recogniseAssignment source t
  | .augmentedAssignment => recogniseAugmented source t
  | _ => none

end

/-- A function or class with decorators. -/
def decorated (decorators : List Text) : NodeKind → NodeKind
  | .function c => .function { c with decorators }
  | .classDef name bases _ => .classDef name bases decorators
  | kind => kind

mutual

/-- What a node is recognised as, if it is. A decorated definition is its definition, which is on
the line of that. -/
def recognise (enclosing : Enclosing) : ParseTree → Option Recognised
  | .mk .decoratedDefinition isMissing field? span children => do
    let (r, line) ← recogniseDefinition enclosing children
    let decorators := decoratorTexts source (.mk .decoratedDefinition isMissing field? span children)
    return ⟨decorated decorators r.kind, line, r.inside⟩
  | .mk kind isMissing field? span children =>
    recogniseStatement source enclosing (.mk kind isMissing field? span children)

/-- What the definition among some nodes is recognised as, and its line. -/
def recogniseDefinition (enclosing : Enclosing) : List ParseTree → Option (Recognised × Nat)
  | [] => none
  | t :: ts =>
    if t.fills .definition then (recognise enclosing t).map fun r => (r, t.row source + 1)
    else recogniseDefinition enclosing ts

end

/-! ## Collecting parts -/

/-- Parts that can hold further parts. -/
def hasBody : NodeKind → Bool
  | .function _ => true
  | .classDef .. => true
  | .forLoop .. => true
  | .whileLoop .. => true
  | .conditional .. => true
  | .withBlock .. => true
  | .tryBlock .. => true
  | _ => false

/-- The node with the body of a definition. -/
def definitionOf (t : ParseTree) : ParseTree :=
  if t.kind == .decoratedDefinition then (t.child? .definition).getD t else t

mutual

/-- The parts inside a node. -/
def collect (enclosing : Enclosing) : ParseTree → List Node
  | .mk _ _ _ _ children => collectAll enclosing children

/-- The parts that nodes are or that are found inside them, in order. -/
def collectAll (enclosing : Enclosing) : List ParseTree → List Node
  | [] => []
  | t :: ts => collectFrom enclosing t ++ collectAll enclosing ts

/-- The part that a node is, with those inside it, or those inside a node that is looked through.
Keywords and symbols are no parts. -/
def collectFrom (enclosing : Enclosing) : ParseTree → List Node
  | .mk kind isMissing field? span children =>
    if !kind.isNamed then []
    else
      match recognise source enclosing (.mk kind isMissing field? span children) with
      | none => collectAll enclosing children
      | some r =>
        let inside :=
          if !hasBody r.kind then []
          else if kind == .decoratedDefinition then
            (collectDefinition r.inside children).getD (collectAll r.inside children)
          else collectAll r.inside children
        [.mk r.kind r.line inside]

/-- The parts inside the definition among some nodes. -/
def collectDefinition (enclosing : Enclosing) : List ParseTree → Option (List Node)
  | [] => none
  | t :: ts =>
    if t.fills .definition then some (collect enclosing t) else collectDefinition enclosing ts

end

end

/-! ## Outlines -/

/-- Why a source has no outline. -/
structure SyntaxFault where
  line : Nat
  /-- The token that is missing, where one is all that is. -/
  expected : Option Text
deriving Repr, DecidableEq

def SyntaxFault.message (e : SyntaxFault) : Text :=
  "Syntax Error at line " ++ Text.ofNat e.line ++ ": " ++
    match e.expected with
    | some token => "expected " ++ token
    | none => "invalid syntax"

/-- The fault of a source with a node with which something is wrong. -/
def faultOf (source : Text) (problem : ParseTree) : SyntaxFault :=
  ⟨problem.row source + 1, if problem.isMissing then some problem.kind.name else none⟩

/-- The outline of a source with a parse tree. -/
def outlineOf (source : Text) (root : ParseTree) : Node :=
  .mk .module 1 (collect source .module root)

/-- The outline of a source by a grammar, which makes the parse tree. -/
def parseBy (grammar : Text → ParseTree) (source : Text) : Except SyntaxFault Node :=
  let root := grammar source
  match if root.hasError then root.firstProblem else none with
  | some problem => .error (faultOf source problem)
  | none => .ok (outlineOf source root)

end Marginalia.Indented
