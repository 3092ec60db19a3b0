import Marginalia.Sentence.Condition
import Marginalia.Sentence.Definition
import Marginalia.Sentence.Statement

/-!
# Remarks

A remark is a sentence about a part of a source, meant for the line the part starts on. A part may
have no remark. Remarks about assignments give way to any other remark on their line.
-/

namespace Marginalia.Commentary

/-- How much is commented. -/
inductive Verbosity where
  /-- Definitions, loops, outer branches, resources, errors and imports. -/
  | structural
  /-- Returns, raised errors, assertions, assignments and library calls as well. -/
  | detailed
deriving Repr, DecidableEq

/-- What a remark is worth. -/
inductive Rank where
  | primary
  /-- Only for lines that nothing else is said about. -/
  | fallback
deriving Repr, DecidableEq

/-- A sentence for a line, counted from zero. -/
structure Remark where
  line : Nat
  rank : Rank
  text : Text
deriving Repr, DecidableEq

/-- The sentence about a part that is commented at any verbosity. -/
def structuralSentence? (l : Language) : NodeKind → Option Text
  | .function c => some (Sentence.callable c l)
  | .classDef name bases _ => some (Sentence.classDef name bases)
  | .interface name bases => some (Sentence.interface name bases)
  | .typeAlias name definition => some (Sentence.typeAlias name definition)
  | .enumeration name => some (Sentence.enumeration name)
  | .record keyword name => some (Sentence.record keyword name)
  | .forLoop target iterable _ => some (Sentence.forLoop target iterable)
  | .countingLoop header => some (Sentence.countingLoop header)
  | .whileLoop condition => some (Sentence.whileLoop condition)
  | .doWhile => some Sentence.doWhile
  | .conditional condition false => some (Sentence.conditional condition)
  | .switch subject false => some (Sentence.switch subject)
  | .withBlock items isAsync => some (Sentence.withBlock items isAsync)
  | .tryBlock handlers catchesAll _ hasFinally =>
    some (Sentence.tryBlock handlers catchesAll hasFinally)
  | .catchClause error => some (Sentence.catchClause error)
  | .finallyClause => some Sentence.finallyClause
  | .imports module names selective true => some (Sentence.imports module names selective)
  | .exports item isDefault => some (Sentence.exports item isDefault)
  | .includes header isSystem => some (Sentence.includes header isSystem)
  | .macroDef name params value => some (Sentence.macroDef name params value)
  | .preprocessor directive argument => some (Sentence.preprocessor directive argument)
  | .namespaceDef name isUse => some (Sentence.namespaceDef name isUse)
  | .template params => some (Sentence.template params)
  | _ => none

/-- The sentence about a part that is commented in detail only, and its rank. `function` is the
innermost function around the part. -/
def detailSentence? (function : Option Text) : NodeKind → Option (Rank × Text)
  | .case label => some (.primary, Sentence.case label)
  | .globalVariable declaration name value =>
    some (.primary, Sentence.globalVariable declaration name value)
  | .returns value => some (.primary, Sentence.returns value function)
  | .raises exception => some (.primary, Sentence.raises exception)
  | .asserts test message => some (.primary, Sentence.asserts test message)
  | .libraryCall name argument => some (.primary, Sentence.libraryCall name argument)
  | .assignment targets value shape => some (.fallback, Sentence.assignment targets value shape)
  | .augmentedAssignment target operator value =>
    some (.fallback, Sentence.augmentedAssignment target operator value)
  | _ => none

/-- The sentence about a part, and its rank. -/
def sentence? (l : Language) (v : Verbosity) (function : Option Text) (kind : NodeKind) :
    Option (Rank × Text) :=
  match structuralSentence? l kind with
  | some text => some (.primary, text)
  | none =>
    match v with
    | .structural => none
    | .detailed => detailSentence? function kind

/-- The innermost function around the parts of a part. A class hides the functions around it. -/
def functionInside (function : Option Text) : NodeKind → Option Text
  | .classDef .. => none
  | .function c => some c.name
  | _ => function

/-- The remark about one part. A part without a line has none. -/
def remark? (l : Language) (v : Verbosity) (function : Option Text) (node : Node) :
    Option Remark :=
  match node.line with
  | 0 => none
  | line + 1 => (sentence? l v function node.kind).map fun (rank, text) => ⟨line, rank, text⟩

mutual

/-- The remarks about a part and the parts inside it, outer parts first. -/
def remarksIn (l : Language) (v : Verbosity) (function : Option Text) : Node → List Remark
  | .mk kind line children =>
    (remark? l v function (.mk kind line children)).toList
      ++ remarksInAll l v (functionInside function kind) children

/-- The remarks about the parts of a list. -/
def remarksInAll (l : Language) (v : Verbosity) (function : Option Text) :
    List Node → List Remark
  | [] => []
  | node :: nodes => remarksIn l v function node ++ remarksInAll l v function nodes

end

/-- The remarks about a source, in the order of its parts. The parts of a flat outline stand
alone. -/
def remarks (l : Language) (v : Verbosity) : Outline → List Remark
  | .tree root => remarksInAll l v none root.children
  | .flat nodes => nodes.filterMap fun node => remark? l v (functionInside none node.kind) node

/-- The comment on a line: the first primary remark about it or, failing that, the first remark of
any rank. -/
def commentOn (remarks : List Remark) (line : Nat) : Option Text :=
  let here := remarks.filter (·.line == line)
  ((here.find? (·.rank == .primary)).or here.head?).map (·.text)

/-- A number put into its place in an ascending list, unless it is there already. -/
def insertNumber (n : Nat) : List Nat → List Nat
  | [] => [n]
  | m :: ms => if n < m then n :: m :: ms else if n = m then m :: ms else m :: insertNumber n ms

/-- The lines that have a comment with their comments, from the first line to the last. -/
def comments (remarks : List Remark) : List (Nat × Text) :=
  (remarks.foldr (fun r => insertNumber r.line) []).filterMap fun line =>
    (commentOn remarks line).map fun text => (line, text)

end Marginalia.Commentary
