import Mathlib.Data.List.Basic
import Marginalia.Indented.Outline

/-!
# Parse trees and their outlines

The nodes of a parse tree in the order of the source, and the equations by which an outline is
collected from them: each named child of a node is recognised as a part, with the parts inside its
definition, or looked through. A source has an outline exactly if nothing is wrong with its tree.
-/

namespace Marginalia.Indented

namespace ParseTree

/-! ## The nodes of a tree -/

mutual

/-- A node and the nodes inside it, in the order of the source. -/
def nodes : ParseTree → List ParseTree
  | mk kind isMissing field? span children =>
    mk kind isMissing field? span children :: nodesAll children

def nodesAll : List ParseTree → List ParseTree
  | [] => []
  | t :: ts => nodes t ++ nodesAll ts

end

lemma nodesAll_eq (ts : List ParseTree) : nodesAll ts = ts.flatMap nodes := by
  induction ts with
  | nil => rfl
  | cons t ts ih => rw [nodesAll, ih, List.flatMap_cons]

lemma nodes_eq (t : ParseTree) : t.nodes = t :: t.children.flatMap nodes := by
  obtain ⟨kind, isMissing, field?, span, children⟩ := t
  rw [nodes, nodesAll_eq, ParseTree.children]

lemma mem_nodes_self (t : ParseTree) : t ∈ t.nodes := by
  rw [nodes_eq]
  exact List.mem_cons_self

lemma mem_nodes_iff {s t : ParseTree} : s ∈ t.nodes ↔ s = t ∨ ∃ c ∈ t.children, s ∈ c.nodes := by
  rw [nodes_eq, List.mem_cons, List.mem_flatMap]

lemma mem_nodes_of_child {s c t : ParseTree} (hc : c ∈ t.children) (hs : s ∈ c.nodes) :
    s ∈ t.nodes :=
  mem_nodes_iff.mpr (.inr ⟨c, hc, hs⟩)

section Induction

variable {motive : ParseTree → Prop}

mutual

private lemma induction_nodes
    (step : ∀ t, (∀ c ∈ t.children, ∀ s ∈ c.nodes, motive s) → motive t) (t : ParseTree) :
    ∀ s ∈ t.nodes, motive s := by
  match t with
  | mk kind isMissing field? span children =>
    have hinside := induction_nodesAll step children
    intro s hs
    rcases mem_nodes_iff.mp hs with rfl | ⟨c, hc, hs⟩
    · exact step _ hinside
    · exact hinside c hc s hs

private lemma induction_nodesAll
    (step : ∀ t, (∀ c ∈ t.children, ∀ s ∈ c.nodes, motive s) → motive t) (ts : List ParseTree) :
    ∀ c ∈ ts, ∀ s ∈ c.nodes, motive s := by
  match ts with
  | [] => exact nofun
  | t :: ts =>
    rw [List.forall_mem_cons]
    exact ⟨induction_nodes step t, induction_nodesAll step ts⟩

end

/-- What holds of a node whenever it holds of all nodes inside it holds of every node. -/
theorem inside_induction (step : ∀ t, (∀ c ∈ t.children, ∀ s ∈ c.nodes, motive s) → motive t)
    (t : ParseTree) : motive t :=
  induction_nodes step t t (mem_nodes_self t)

end Induction

/-! ## Problems -/

mutual

lemma isSome_firstProblem (t : ParseTree) : t.firstProblem.isSome = t.hasError := by
  match t with
  | mk kind isMissing field? span children =>
    rw [firstProblem, hasError, ← isSome_firstProblemIn]
    cases kind == TreeKind.error || isMissing <;> rfl

lemma isSome_firstProblemIn (ts : List ParseTree) : (firstProblemIn ts).isSome = anyHasError ts := by
  match ts with
  | [] => rfl
  | t :: ts =>
    have hmissing : (hasError t || t.isMissing) = hasError t := by
      obtain ⟨kind, isMissing, field?, span, children⟩ := t
      cases isMissing <;> simp [hasError, ParseTree.isMissing]
    rw [firstProblemIn, anyHasError, hmissing, ← isSome_firstProblemIn, ← isSome_firstProblem]
    cases t.firstProblem <;> rfl

end

end ParseTree

open ParseTree

/-- A source has an outline exactly if nothing is wrong with its tree. -/
lemma parseBy_eq_ok_iff {grammar : Text → ParseTree} {source : Text} {root : Node} :
    parseBy grammar source = .ok root ↔
      (grammar source).hasError = false ∧ root = outlineOf source (grammar source) := by
  rw [parseBy]
  cases herror : (grammar source).hasError with
  | false => simp [eq_comm]
  | true =>
    obtain ⟨problem, hproblem⟩ := Option.isSome_iff_exists.mp
      ((isSome_firstProblem (grammar source)).trans herror)
    simp [hproblem]

variable {source : Text} {enclosing : Enclosing}

/-! ## Recognised nodes -/

lemma assignedParts_eq (children : List ParseTree) :
    assignedParts source children = (children.find? (fills .right)).bind fun right =>
      if right.kind == .assignment then assignmentParts source right else some ([], right) := by
  induction children with
  | nil => rfl
  | cons t ts ih =>
    rw [assignedParts, ih, List.find?_cons]
    cases t.fills .right <;> rfl

/-- The first target of an assignment stands left, and what stands right is the value or the
assignment to the next target. -/
lemma assignmentParts_eq (t : ParseTree) :
    assignmentParts source t =
      (t.child? .left).bind fun target => (t.child? .right).bind fun value =>
        if value.kind == .assignment then
          (assignmentParts source value).map fun (targets, value) =>
            (target.text source :: targets, value)
        else some ([target.text source], value) := by
  obtain ⟨kind, isMissing, field?, span, children⟩ := t
  rw [assignmentParts, assignedParts_eq, child?, child?, ParseTree.children]
  cases children.find? (fills .left) with
  | none => rfl
  | some target =>
    cases children.find? (fills .right) with
    | none => rfl
    | some value =>
      simp only [Option.bind_eq_bind, Option.bind_some]
      split
      · cases assignmentParts source value <;> rfl
      · rfl

lemma recogniseDefinition_eq (children : List ParseTree) :
    recogniseDefinition source enclosing children =
      (children.find? (fills .definition)).bind fun definition =>
        (recognise source enclosing definition).map fun r => (r, definition.row source + 1) := by
  induction children with
  | nil => rfl
  | cons t ts ih =>
    rw [recogniseDefinition, ih, List.find?_cons]
    cases t.fills .definition <;> rfl

lemma recognise_of_decorated {t : ParseTree} (h : t.kind = .decoratedDefinition) :
    recognise source enclosing t =
      (t.child? .definition).bind fun definition =>
        (recognise source enclosing definition).map fun r =>
          ⟨decorated (decoratorTexts source t) r.kind, definition.row source + 1, r.inside⟩ := by
  obtain ⟨kind, isMissing, field?, span, children⟩ := t
  obtain rfl : kind = .decoratedDefinition := h
  rw [recognise, recogniseDefinition_eq, child?, ParseTree.children]
  cases children.find? (fills .definition) with
  | none => rfl
  | some definition =>
    rw [Option.bind_some, Option.bind_some]
    cases recognise source enclosing definition <;> rfl

lemma recognise_of_not_decorated {t : ParseTree} (h : t.kind ≠ .decoratedDefinition) :
    recognise source enclosing t = recogniseStatement source enclosing t := by
  obtain ⟨kind, isMissing, field?, span, children⟩ := t
  rw [recognise]
  exact h

/-! ## Collected parts -/

lemma collectAll_eq (ts : List ParseTree) :
    collectAll source enclosing ts = ts.flatMap (collectFrom source enclosing) := by
  induction ts with
  | nil => rfl
  | cons t ts ih => rw [collectAll, ih, List.flatMap_cons]

lemma collect_eq_flatMap (t : ParseTree) :
    collect source enclosing t = t.children.flatMap (collectFrom source enclosing) := by
  obtain ⟨kind, isMissing, field?, span, children⟩ := t
  rw [collect, collectAll_eq, ParseTree.children]

lemma collectDefinition_eq (ts : List ParseTree) :
    collectDefinition source enclosing ts =
      (ts.find? (fills .definition)).map (collect source enclosing) := by
  induction ts with
  | nil => rfl
  | cons t ts ih =>
    rw [collectDefinition, ih, List.find?_cons]
    cases t.fills .definition <;> rfl

lemma collectFrom_eq (t : ParseTree) :
    collectFrom source enclosing t =
      if t.isNamed then
        match recognise source enclosing t with
        | some r =>
          [.mk r.kind r.line
            (if hasBody r.kind then collect source r.inside (definitionOf t) else [])]
        | none => collect source enclosing t
      else [] := by
  obtain ⟨kind, isMissing, field?, span, children⟩ := t
  rw [collectFrom, isNamed, ParseTree.kind]
  cases kind.isNamed with
  | false => rfl
  | true =>
    cases recognise source enclosing (.mk kind isMissing field? span children) with
    | none => rw [collect]; rfl
    | some r =>
      have hinside : (if kind == .decoratedDefinition then
          (collectDefinition source r.inside children).getD (collectAll source r.inside children)
          else collectAll source r.inside children) =
          collect source r.inside (definitionOf (.mk kind isMissing field? span children)) := by
        rw [definitionOf, ParseTree.kind, collectDefinition_eq, child?, ParseTree.children]
        cases kind == TreeKind.decoratedDefinition with
        | false => rw [if_neg Bool.false_ne_true, if_neg Bool.false_ne_true, collect]
        | true =>
          rw [if_pos rfl, if_pos rfl]
          cases children.find? (fills .definition) with
          | none => rw [Option.map_none, Option.getD_none, Option.getD_none, collect]
          | some definition => rfl
      simp only [hinside]
      cases hasBody r.kind <;> rfl

/-- The parts inside a node are its named children as far as they are recognised, each with the
parts inside its definition if it can hold any, and what is inside those that are not. -/
theorem collect_eq (t : ParseTree) :
    collect source enclosing t = t.namedChildren.flatMap fun child =>
      match recognise source enclosing child with
      | some r =>
        [.mk r.kind r.line
          (if hasBody r.kind then collect source r.inside (definitionOf child) else [])]
      | none => collect source enclosing child := by
  rw [collect_eq_flatMap, namedChildren]
  induction t.children with
  | nil => rfl
  | cons child rest ih =>
    rw [List.flatMap_cons, ih, collectFrom_eq, List.filter_cons]
    cases child.isNamed <;> rfl

lemma definitionOf_mem_nodes (t : ParseTree) : definitionOf t ∈ t.nodes := by
  rw [definitionOf]
  split
  · cases hdefinition : t.child? .definition with
    | none => exact mem_nodes_self t
    | some definition =>
      exact mem_nodes_of_child (List.mem_of_find?_eq_some hdefinition) (mem_nodes_self definition)
  · exact mem_nodes_self t

end Marginalia.Indented
