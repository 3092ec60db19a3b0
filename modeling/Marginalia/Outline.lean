import Marginalia.Text.Basic

/-!
# Outlines

An outline lists the parts of a source that are worth a comment: definitions, loops, branches,
imports and the like, each with the line it starts on. A parsed source has a tree of parts, a
source that was read line by line a flat list.
-/

namespace Marginalia

/-- How a callable is written. -/
inductive Flavor where
  | function
  | method
  | arrow
  | constructor
  | destructor
  /-- A declaration without a body. -/
  | prototype
deriving Repr, DecidableEq

/-- A function, method or the like. -/
structure Callable where
  name : Text
  params : List Text
  decorators : List Text
  isAsync : Bool
  flavor : Flavor
  /-- The class it belongs to. -/
  owner : Option Text
deriving Repr, DecidableEq

/-- The rough shape of an assigned value. -/
inductive ValueShape where
  | call
  | list
  | dict
  | lambda
  | comprehension
  | other
deriving Repr, DecidableEq

/-- What a part of a source is. -/
inductive NodeKind where
  | module
  | function (callable : Callable)
  | classDef (name : Text) (bases decorators : List Text)
  | interface (name : Text) (bases : Option Text)
  | typeAlias (name definition : Text)
  | enumeration (name : Text)
  /-- A structure or union, with or without a type name. -/
  | record (keyword name : Text)
  | forLoop (target iterable : Text) (isAsync : Bool)
  /-- A loop with a start, a condition and a step. -/
  | countingLoop (header : Text)
  | whileLoop (condition : Text)
  | doWhile
  | conditional (condition : Text) (nested : Bool)
  | otherwise
  | switch (subject : Text) (nested : Bool)
  /-- A labelled branch of a switch; no label for the default. -/
  | case (label : Option Text)
  | withBlock (items : List Text) (isAsync : Bool)
  | tryBlock (handlers : List Text) (catchesAll hasElse hasFinally : Bool)
  | catchClause (error : Option Text)
  | finallyClause
  | imports (module : Text) (names : List Text) (selective topLevel : Bool)
  | exports (item : Text) (isDefault : Bool)
  | includes (header : Text) (isSystem : Bool)
  | macroDef (name : Text) (params value : Option Text)
  | preprocessor (directive argument : Text)
  | namespaceDef (name : Text) (isUse : Bool)
  | template (params : Text)
  | globalVariable (declaration name : Text) (value : Option Text)
  | returns (value : Option Text)
  | raises (exception : Option Text)
  | asserts (test : Text) (message : Option Text)
  | assignment (targets : List Text) (value : Text) (shape : ValueShape)
  | augmentedAssignment (target operator value : Text)
  | libraryCall (function : Text) (argument : Option Text)
deriving Repr, DecidableEq

/-- A part with the line of its defining token, counted from one, and the parts inside it. -/
inductive Node where
  | mk (kind : NodeKind) (line : Nat) (children : List Node)
deriving Repr

namespace Node

def kind : Node → NodeKind
  | mk k _ _ => k

def line : Node → Nat
  | mk _ l _ => l

def children : Node → List Node
  | mk _ _ cs => cs

/-- A part without parts. -/
def leaf (kind : NodeKind) (line : Nat) : Node := mk kind line []

mutual

/-- The number of parts of a part, itself included. -/
def count : Node → Nat
  | mk _ _ children => 1 + countAll children

/-- The number of parts in a list. -/
def countAll : List Node → Nat
  | [] => 0
  | node :: nodes => count node + countAll nodes

end

end Node

/-- The parts of one source. -/
inductive Outline where
  | tree (root : Node)
  | flat (nodes : List Node)
deriving Repr

namespace Outline

/-- The number of parts; the root of a tree stands for the source and is not counted. -/
def nodeCount : Outline → Nat
  | tree root => root.count - 1
  | flat nodes => nodes.length

end Outline

end Marginalia
