import Marginalia.Proofs.OutlineOrder
import Marginalia.Proofs.RecognisedNodes

/-!
# Parts and the parts around them

In the outline of a parse tree what parts say of their surroundings agrees with the part around them,
whatever nodes were looked through on the way.
-/

namespace Marginalia
namespace Indented

/-- A tree of parts, each of which tells the truth about the part around it. -/
inductive FitsIn : NodeKind → Node → Prop
  | mk {parent kind : NodeKind} {line : Nat} {children : List Node} (tells : TellsParent parent kind)
    (notModule : kind ≠ .module) (holds : children ≠ [] → kind.holdsParts = true)
    (inside : ∀ child ∈ children, FitsIn kind child) : FitsIn parent (.mk kind line children)

variable {source : Text} {parent kind : NodeKind}

lemma holdsParts_of_hasBody (h : hasBody kind = true) : kind.holdsParts = true := by
  cases kind <;> first | rfl | cases h

/-! ## The outline of a parse tree -/

/-- The parts inside a node say of the part around them what it is, whatever nodes are between. -/
lemma fitsIn_collect (parent : NodeKind) (t : ParseTree) :
    ∀ node ∈ collect source (.inside parent) t, FitsIn parent node := by
  induction t using ParseTree.inside_induction generalizing parent with
  | step t ih =>
    intro node hnode
    rw [collect_eq] at hnode
    obtain ⟨child, hchild, hnode⟩ := List.mem_flatMap.mp hnode
    have hbelow := ih child (List.mem_filter.mp hchild).1
    cases hr : recognise source (.inside parent) child with
    | none =>
      rw [hr] at hnode
      exact hbelow child child.mem_nodes_self parent node hnode
    | some r =>
      rw [hr] at hnode
      obtain rfl := List.mem_singleton.mp hnode
      obtain ⟨s, -, -, hfits⟩ := fits_recognise hr
      cases hbody : hasBody r.kind with
      | false =>
        rw [if_neg Bool.false_ne_true]
        exact .mk hfits.tells hfits.notModule (fun hne => absurd rfl hne) nofun
      | true =>
        rw [if_pos rfl, hfits.inside]
        exact .mk hfits.tells hfits.notModule (fun _ => holdsParts_of_hasBody hbody)
          (hbelow _ (definitionOf_mem_nodes child) r.kind)

lemma FitsIn.tells {node : Node} (h : FitsIn parent node) :
    TellsParent parent node.kind ∧ node.kind ≠ .module ∧
      (node.children ≠ [] → node.kind.holdsParts = true) := by
  cases h with
  | mk tells notModule holds inside => exact ⟨tells, notModule, holds⟩

lemma FitsIn.inside {node : Node} (h : FitsIn parent node) :
    ∀ child ∈ node.children, FitsIn node.kind child := by
  cases h with
  | mk tells notModule holds inside => exact inside

/-- A part that stands somewhere in a list fits in the part right around it. -/
lemma FitsIn.of_standsAt (root : Node) {nodes around : List Node} {path : List Nat} {node : Node}
    (hnodes : ∀ node ∈ nodes, FitsIn root.kind node)
    (h : Commentary.StandsAt nodes path around node) : FitsIn (around.getLastD root).kind node := by
  induction h generalizing root with
  | here h => exact hnodes _ (List.mem_of_getElem? h)
  | inside h hinside ih =>
    rw [List.getLastD_cons]
    exact ih _ (hnodes _ (List.mem_of_getElem? h)).inside

/-- In the outline of a parse tree, which is that of every source that a grammar gives this tree without
an error, each part tells the truth about the part right around it: a branch that it is nested exactly
if that is a branch or loop, a function that it is a method exactly if that is a class, of which it names
the name, and imports that they are at top level exactly if that is the source itself. No other part is
a source, and only definitions, branches, loops, and the blocks of with and try have parts inside
them. -/
theorem parts_tell_parent (source : Text) (tree : ParseTree) :
    (∀ path around node,
      Commentary.StandsAt (outlineOf source tree).children path around node →
        TellsParent (around.getLastD (outlineOf source tree)).kind node.kind ∧
          node.kind ≠ .module ∧ (node.children ≠ [] → node.kind.holdsParts = true)) ∧
    ∀ grammar : Text → ParseTree, grammar source = tree → tree.hasError = false →
      parseBy grammar source = .ok (outlineOf source tree) := by
  refine ⟨fun path around node h => ?_, ?_⟩
  · exact (FitsIn.of_standsAt (outlineOf source tree) (fitsIn_collect .module tree) h).tells
  · rintro grammar rfl herror
    exact parseBy_eq_ok_iff.mpr ⟨herror, rfl⟩

/-- A class with a decorated method, which has a branch in the alternative of a branch. -/
def methodSource : Text :=
  "class A:\n  @d\n  def m(self):\n    if a:\n      pass\n    else:\n      if b:\n        import c\n"

open ParseTree in
/-- The parse tree of `methodSource`. -/
def methodTree : ParseTree :=
  let keyword (text : Text) (start : Nat) := leaf (.token text) none ⟨start, start + text.length⟩
  let identifier (field? : Option TreeField) (span : Span) := leaf (.other "identifier") field? span
  let imports := branch .importStatement none
    [keyword "import" 80, branch (.other "dotted_name") (some .name) [identifier none ⟨87, 88⟩]]
  let nested := branch .ifStatement none [keyword "if" 66, identifier (some .condition) ⟨69, 70⟩,
    keyword ":" 70, branch .block none [imports]]
  let otherwise := branch .elseClause none
    [keyword "else" 54, keyword ":" 58, branch .block none [nested]]
  let pass := branch .block none [branch (.other "pass_statement") none [keyword "pass" 45]]
  let outer := branch .ifStatement none [keyword "if" 33, identifier (some .condition) ⟨36, 37⟩,
    keyword ":" 37, pass, otherwise]
  let parameters := branch (.other "parameters") (some .parameters)
    [keyword "(" 21, identifier none ⟨22, 26⟩, keyword ")" 26]
  let function := branch .functionDefinition (some .definition) [keyword "def" 16,
    identifier (some .name) ⟨20, 21⟩, parameters, keyword ":" 27, branch .block none [outer]]
  let decorator := branch .decorator none [keyword "@" 11, identifier none ⟨12, 13⟩]
  let method := branch .decoratedDefinition none [decorator, function]
  let owner := branch .classDefinition none [keyword "class" 0, identifier (some .name) ⟨6, 7⟩,
    keyword ":" 7, branch .block none [method]]
  .mk (.other "module") false none ⟨0, 89⟩ [owner]

/-- The branch in the alternative is nested, and the decorated function is a method of its class. -/
theorem parts_tell_parent_of_method :
    let nested : Node := .mk (.conditional "b" true) 7 [.leaf (.imports "c" [] false false) 8]
    let outer : Node := .mk (.conditional "a" false) 4 [nested]
    let method : Node := .mk (.function ⟨"m", ["self"], ["d"], false, .method, some "A"⟩) 3 [outer]
    let owner : Node := .mk (.classDef "A" [] []) 1 [method]
    outlineOf methodSource methodTree = .mk .module 1 [owner] ∧
      (Commentary.StandsAt (outlineOf methodSource methodTree).children [0, 0, 0, 0]
          [owner, method, outer] nested ∧ TellsParent outer.kind nested.kind) ∧
      parseBy (fun _ => methodTree) methodSource = .ok (outlineOf methodSource methodTree) := by
  intro nested outer method owner
  have houtline : outlineOf methodSource methodTree = .mk .module 1 [owner] := by rfl
  have hstands : Commentary.StandsAt (outlineOf methodSource methodTree).children [0, 0, 0, 0]
      [owner, method, outer] nested := by
    rw [houtline]
    exact .inside rfl (.inside rfl (.inside rfl (.here rfl)))
  refine ⟨houtline, ⟨hstands, ?_⟩, ?_⟩
  · exact ((parts_tell_parent methodSource methodTree).1 _ _ _ hstands).1
  · exact (parts_tell_parent methodSource methodTree).2 (fun _ => methodTree) rfl (by decide)

end Indented
end Marginalia
