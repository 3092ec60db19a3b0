import Marginalia.Proofs.ParseTrees

/-!
# What nodes are recognised as

Some parts of an outline say what they stand in: a branch that it is nested, a function that it is the
method of a class, an import that it is at top level. What a node is recognised as says the truth about
the part around it, if that is what the node was said to stand in. Its line is the one on which a
statement starts, which is the node or the definition that it decorates.
-/

namespace Marginalia

/-- Branches and loops. -/
def NodeKind.isControl : NodeKind → Bool
  | .conditional .. | .forLoop .. | .whileLoop .. => true
  | _ => false

/-- Parts that may have others inside them. -/
def NodeKind.holdsParts : NodeKind → Bool
  | .function _ | .classDef .. | .forLoop .. | .whileLoop .. | .conditional .. | .withBlock ..
  | .tryBlock .. => true
  | _ => false

/-- Parts that say nothing about the part around them. -/
def NodeKind.isSilent : NodeKind → Bool
  | .conditional .. | .function _ | .imports .. => false
  | _ => true

/-- What a part says about its surroundings is true of the part around it. -/
structure TellsParent (parent node : NodeKind) : Prop where
  conditional : ∀ condition nested, node = .conditional condition nested →
    (nested = true ↔ parent.isControl = true)
  method : ∀ f owner, node = .function f →
    (f.flavor = .method ∧ f.owner = some owner ↔
      ∃ bases decorators, parent = .classDef owner bases decorators)
  function : ∀ f, node = .function f →
    (∀ owner bases decorators, parent ≠ .classDef owner bases decorators) →
    f.flavor = .function ∧ f.owner = none
  imports : ∀ module names selective topLevel, node = .imports module names selective topLevel →
    (topLevel = true ↔ parent = .module)

namespace Indented

/-- What a part is for the statements inside it. -/
def Enclosing.inside : NodeKind → Enclosing
  | .module => .module
  | .classDef name .. => .classBody name
  | .conditional .. | .forLoop .. | .whileLoop .. => .control
  | _ => .other

variable {parent kind : NodeKind}

/-! ## What parts say -/

lemma inside_eq_control_iff : Enclosing.inside kind = .control ↔ kind.isControl = true := by
  cases kind <;> simp [Enclosing.inside, NodeKind.isControl]

lemma inside_eq_module_iff : Enclosing.inside kind = .module ↔ kind = .module := by
  cases kind <;> simp [Enclosing.inside]

lemma inside_eq_classBody_iff {owner : Text} : Enclosing.inside kind = .classBody owner ↔
    ∃ bases decorators, kind = .classDef owner bases decorators := by
  cases kind <;> simp [Enclosing.inside]

lemma tellsParent_conditional (condition : Text) :
    TellsParent parent (.conditional condition (Enclosing.inside parent == .control)) where
  conditional := by
    rintro _ _ ⟨⟩
    rw [beq_iff_eq, inside_eq_control_iff]
  method := nofun
  function := nofun
  imports := nofun

lemma tellsParent_imports (module : Text) (names : List Text) (selective : Bool) :
    TellsParent parent (.imports module names selective (Enclosing.inside parent == .module)) where
  conditional := nofun
  method := nofun
  function := nofun
  imports := by
    rintro _ _ _ _ ⟨⟩
    rw [beq_iff_eq, inside_eq_module_iff]

lemma tellsParent_function (name : Text) (params : List Text) (isAsync : Bool) :
    TellsParent parent (.function (callableIn (Enclosing.inside parent) name params isAsync)) where
  conditional := nofun
  method := by
    rintro _ owner ⟨⟩
    rw [← inside_eq_classBody_iff]
    cases Enclosing.inside parent <;> simp [callableIn]
  function := by
    rintro _ ⟨⟩ hclass
    cases hinside : Enclosing.inside parent with
    | classBody owner =>
      obtain ⟨bases, decorators, hparent⟩ := inside_eq_classBody_iff.mp hinside
      exact absurd hparent (hclass owner bases decorators)
    | module | control | other => exact ⟨rfl, rfl⟩
  imports := nofun

lemma tellsParent_silent (h : kind.isSilent = true) : TellsParent parent kind := by
  constructor
  · rintro _ _ rfl
    cases h
  · rintro _ _ rfl
    cases h
  · rintro _ rfl
    cases h
  · rintro _ _ _ _ rfl
    cases h

/-- Decorators are no part of what a definition says. -/
lemma tellsParent_decorated (h : TellsParent parent kind) (decorators : List Text) :
    TellsParent parent (decorated decorators kind) := by
  cases kind with
  | function c =>
    constructor
    · exact nofun
    · rintro _ owner ⟨⟩
      exact h.method c owner rfl
    · rintro _ ⟨⟩
      exact h.function c rfl
    · exact nofun
  | classDef name bases _ => exact tellsParent_silent rfl
  | _ => exact h

lemma inside_decorated (decorators : List Text) (kind : NodeKind) :
    Enclosing.inside (decorated decorators kind) = .inside kind := by
  cases kind <;> rfl

lemma decorated_ne_module (decorators : List Text) (h : kind ≠ .module) :
    decorated decorators kind ≠ .module := by
  cases kind <;> first | exact h | exact nofun

/-! ## What nodes are recognised as -/

/-- The kinds of nodes that can be recognised. -/
def TreeKind.isStatement : TreeKind → Bool
  | .decoratedDefinition | .functionDefinition | .classDefinition | .forStatement
  | .whileStatement | .ifStatement | .withStatement | .tryStatement | .importStatement
  | .importFromStatement | .futureImportStatement | .returnStatement | .raiseStatement
  | .assertStatement | .assignment | .augmentedAssignment => true
  | _ => false

/-- What a statement was recognised as tells the truth about the part around it, and what it is said
to be for the nodes inside it is what it is. Its line is that of the statement. -/
structure Recognised.Fits (source : Text) (parent : NodeKind) (t : ParseTree) (r : Recognised) :
    Prop where
  tells : TellsParent parent r.kind
  notModule : r.kind ≠ .module
  inside : r.inside = .inside r.kind
  line : r.line = t.row source + 1

variable {source : Text} {t : ParseTree} {r : Recognised}

/-- A part that says nothing about its surroundings fits anywhere. -/
lemma fits_silent {inside : Enclosing} (h : some ⟨kind, t.row source + 1, inside⟩ = some r)
    (hsilent : kind.isSilent = true) (hmodule : kind ≠ .module) (hinside : inside = .inside kind) :
    r.Fits source parent t := by
  obtain rfl := Option.some.inj h
  exact ⟨tellsParent_silent hsilent, hmodule, hinside, rfl⟩

lemma fits_function (h : recogniseFunction source (.inside parent) t = some r) :
    r.Fits source parent t := by
  obtain ⟨name, -, heq⟩ := Option.bind_eq_some_iff.mp h
  obtain rfl := Option.some.inj heq
  exact ⟨tellsParent_function _ _ _, nofun, rfl, rfl⟩

lemma fits_class (h : recogniseClass source t = some r) : r.Fits source parent t := by
  obtain ⟨name, -, heq⟩ := Option.bind_eq_some_iff.mp h
  exact fits_silent heq rfl nofun rfl

lemma fits_for (h : recogniseFor source t = some r) : r.Fits source parent t := by
  obtain ⟨target, -, h⟩ := Option.bind_eq_some_iff.mp h
  obtain ⟨iterable, -, heq⟩ := Option.bind_eq_some_iff.mp h
  exact fits_silent heq rfl nofun rfl

lemma fits_while (h : recogniseWhile source t = some r) : r.Fits source parent t := by
  obtain ⟨condition, -, heq⟩ := Option.bind_eq_some_iff.mp h
  exact fits_silent heq rfl nofun rfl

lemma fits_if (h : recogniseIf source (.inside parent) t = some r) : r.Fits source parent t := by
  obtain ⟨condition, -, heq⟩ := Option.bind_eq_some_iff.mp h
  obtain rfl := Option.some.inj heq
  exact ⟨tellsParent_conditional _, nofun, rfl, rfl⟩

lemma fits_import (h : recogniseImport source (.inside parent) t = some r) :
    r.Fits source parent t := by
  obtain rfl := Option.some.inj h
  exact ⟨tellsParent_imports _ _ _, nofun, rfl, rfl⟩

lemma fits_importFrom (h : recogniseImportFrom source (.inside parent) t = some r) :
    r.Fits source parent t := by
  obtain rfl := Option.some.inj h
  exact ⟨tellsParent_imports _ _ _, nofun, rfl, rfl⟩

lemma fits_assert (h : recogniseAssert source t = some r) : r.Fits source parent t := by
  obtain ⟨test, -, heq⟩ := Option.bind_eq_some_iff.mp h
  exact fits_silent heq rfl nofun rfl

lemma fits_assignment (h : recogniseAssignment source t = some r) : r.Fits source parent t := by
  obtain ⟨parts, -, heq⟩ := Option.bind_eq_some_iff.mp h
  exact fits_silent heq rfl nofun rfl

lemma fits_augmented (h : recogniseAugmented source t = some r) : r.Fits source parent t := by
  obtain ⟨target, -, h⟩ := Option.bind_eq_some_iff.mp h
  obtain ⟨operator, -, h⟩ := Option.bind_eq_some_iff.mp h
  obtain ⟨value, -, heq⟩ := Option.bind_eq_some_iff.mp h
  exact fits_silent heq rfl nofun rfl

lemma fits_statement (h : recogniseStatement source (.inside parent) t = some r) :
    r.Fits source parent t := by
  rw [recogniseStatement] at h
  split at h
  · exact fits_function h
  · exact fits_class h
  · exact fits_for h
  · exact fits_while h
  · exact fits_if h
  · exact fits_silent h rfl nofun rfl
  · exact fits_silent h rfl nofun rfl
  · exact fits_import h
  · exact fits_importFrom h
  · exact fits_importFrom h
  · exact fits_silent h rfl nofun rfl
  · exact fits_silent h rfl nofun rfl
  · exact fits_assert h
  · exact fits_assignment h
  · exact fits_augmented h
  · cases h

lemma isStatement_of_recognise {enclosing : Enclosing}
    (h : recognise source enclosing t = some r) : t.kind.isStatement = true := by
  by_cases hdecorated : t.kind = .decoratedDefinition
  · rw [hdecorated]
    rfl
  · rw [recognise_of_not_decorated hdecorated, recogniseStatement] at h
    cases hkind : t.kind <;> first | rfl | (rw [hkind] at h; cases h)

/-- Whatever a node is recognised as, also through decorators, is a statement in it and fits in the
part around it. -/
lemma fits_recognise (h : recognise source (.inside parent) t = some r) :
    ∃ s ∈ t.nodes, s.kind.isStatement = true ∧ r.Fits source parent s := by
  induction t using ParseTree.inside_induction generalizing r with
  | step t ih =>
    by_cases hdecorated : t.kind = .decoratedDefinition
    · rw [recognise_of_decorated hdecorated] at h
      obtain ⟨definition, hdefinition, h⟩ := Option.bind_eq_some_iff.mp h
      obtain ⟨inner, hinner, rfl⟩ := Option.map_eq_some_iff.mp h
      have hchild : definition ∈ t.children := List.mem_of_find?_eq_some hdefinition
      obtain ⟨s, -, -, hfits⟩ := ih definition hchild definition definition.mem_nodes_self hinner
      refine ⟨definition, ParseTree.mem_nodes_of_child hchild definition.mem_nodes_self,
        isStatement_of_recognise hinner, tellsParent_decorated hfits.tells _,
        decorated_ne_module _ hfits.notModule, ?_, rfl⟩
      exact hfits.inside.trans (inside_decorated _ _).symm
    · have hstatement := isStatement_of_recognise h
      rw [recognise_of_not_decorated hdecorated] at h
      exact ⟨t, t.mem_nodes_self, hstatement, fits_statement h⟩

end Indented
end Marginalia
