import Mathlib.Data.List.Pairwise
import Mathlib.Order.Basic
import Marginalia.Proofs.AnnotationLines
import Marginalia.Proofs.CodeScan
import Marginalia.Proofs.RecognisedNodes

/-!
# The places of statements

A part of an outline is on the line on which a statement starts in the parse tree. The nodes of a tree
are nested or apart, and a literal has no statement inside it. So the start of the line of a statement
is inside no literal, unless something else stands before the statement on its line.
-/

namespace Marginalia

namespace Text

lemma above_newline (t : Text) (n : Nat) : above ('\n' :: t) (n + 1) = '\n' :: above t n := by
  rw [above, lines, splitOn, if_pos rfl, List.take_succ_cons, List.flatMap_cons]
  rfl

lemma above_cons {c : Char} (hc : c ≠ '\n') (t : Text) (n : Nat) :
    above (c :: t) (n + 1) = c :: above t (n + 1) := by
  rw [above, above, lines, lines, splitOn, if_neg hc]
  cases hs : splitOn '\n' t with
  | nil => exact absurd hs (splitOn_ne_nil _ _)
  | cons line rest =>
    rw [List.take_succ_cons, List.take_succ_cons, List.flatMap_cons, List.flatMap_cons]
    rfl

/-- The front of a text is what is above its last line, and a piece of that line. -/
lemma exists_above (front rest : Text) :
    ∃ piece, front = above (front ++ rest) (front.count '\n') ++ piece ∧ OneLine piece := by
  induction front with
  | nil => exact ⟨[], rfl, List.not_mem_nil⟩
  | cons c front ih =>
    obtain ⟨piece, heq, hone⟩ := ih
    by_cases hc : c = '\n'
    · subst hc
      refine ⟨piece, ?_, hone⟩
      rw [List.count_cons_self, List.cons_append, above_newline, List.cons_append, ← heq]
    · rw [List.count_cons_of_ne hc, List.cons_append]
      cases hcount : front.count '\n' with
      | zero =>
        refine ⟨c :: front, rfl, ?_⟩
        exact List.not_mem_cons_of_ne_of_not_mem (Ne.symm hc) (List.count_eq_zero.mp hcount)
      | succ n =>
        refine ⟨piece, ?_, hone⟩
        rw [above_cons hc, List.cons_append, ← hcount, ← heq]

end Text

namespace Indented

open ParseTree

/-! ## Trees of stretches -/

/-- What a grammar promises of the tree that it makes of a source: nodes are stretches of the source
that cover the nodes inside them, the children of a node are apart and in order, and a literal ends with
a quote and has no statement inside it. -/
structure IsTreeOf (source : Text) (tree : ParseTree) : Prop where
  within : ∀ t ∈ tree.nodes, t.start ≤ t.stop ∧ t.stop ≤ source.length
  covers : ∀ t ∈ tree.nodes, ∀ c ∈ t.children, t.start ≤ c.start ∧ c.stop ≤ t.stop
  ordered : ∀ t ∈ tree.nodes, t.children.Pairwise fun c d => c.stop ≤ d.start
  quoted : ∀ t ∈ tree.nodes, t.kind = .string → (source.take t.stop).getLast?.any isQuote = true
  plain : ∀ t ∈ tree.nodes, t.kind = .string → ∀ s ∈ t.nodes, s.kind.isStatement = false

variable {source : Text} {tree s t : ParseTree}

lemma nodes_subset_of_mem (h : t ∈ tree.nodes) : t.nodes ⊆ tree.nodes := by
  induction tree using ParseTree.inside_induction with
  | step tree ih =>
    rcases mem_nodes_iff.mp h with rfl | ⟨c, hc, ht⟩
    · exact List.Subset.refl _
    · exact fun s hs => mem_nodes_of_child hc (ih c hc c c.mem_nodes_self ht hs)

namespace IsTreeOf

lemma of_mem (h : IsTreeOf source tree) (ht : t ∈ tree.nodes) : IsTreeOf source t where
  within s hs := h.within s (nodes_subset_of_mem ht hs)
  covers s hs := h.covers s (nodes_subset_of_mem ht hs)
  ordered s hs := h.ordered s (nodes_subset_of_mem ht hs)
  quoted s hs := h.quoted s (nodes_subset_of_mem ht hs)
  plain s hs := h.plain s (nodes_subset_of_mem ht hs)

/-- A node covers all nodes inside it. -/
lemma start_le (h : IsTreeOf source tree) (hs : s ∈ tree.nodes) :
    tree.start ≤ s.start ∧ s.stop ≤ tree.stop := by
  induction tree using ParseTree.inside_induction with
  | step tree ih =>
    rcases mem_nodes_iff.mp hs with rfl | ⟨c, hc, hs⟩
    · exact ⟨Nat.le_refl _, Nat.le_refl _⟩
    · have hchild := h.covers tree tree.mem_nodes_self c hc
      have hinside := ih c hc c c.mem_nodes_self
        (h.of_mem (mem_nodes_of_child hc c.mem_nodes_self)) hs
      omega

/-- Two nodes are nested or apart. -/
lemma nested_or_apart (h : IsTreeOf source tree) (hs : s ∈ tree.nodes) (ht : t ∈ tree.nodes) :
    s ∈ t.nodes ∨ t ∈ s.nodes ∨ s.stop ≤ t.start ∨ t.stop ≤ s.start := by
  induction tree using ParseTree.inside_induction with
  | step tree ih =>
    rcases mem_nodes_iff.mp hs with rfl | ⟨c, hc, hsc⟩
    · exact .inr (.inl ht)
    rcases mem_nodes_iff.mp ht with rfl | ⟨d, hd, htd⟩
    · exact .inl hs
    have hof (c : ParseTree) (hc : c ∈ tree.children) : IsTreeOf source c :=
      h.of_mem (mem_nodes_of_child hc c.mem_nodes_self)
    by_cases hcd : c = d
    · subst hcd
      exact ih c hc c c.mem_nodes_self (hof c hc) hsc htd
    · -- The children that the two are in are apart, one of them before the other.
      let Apart (c d : ParseTree) : Prop := c.stop ≤ d.start ∨ d.stop ≤ c.start
      have hsymm : Std.Symm Apart := ⟨fun _ _ => Or.symm⟩
      have hordered : tree.children.Pairwise Apart :=
        (h.ordered tree tree.mem_nodes_self).imp fun hle => .inl hle
      have hapart : Apart c d := hordered.forall hc hd hcd
      have hscovered := (hof c hc).start_le hsc
      have htcovered := (hof d hd).start_le htd
      omega

end IsTreeOf

/-! ## Statements that begin their lines -/

/-- A literal goes on at a place that is neither its start nor its end. -/
def InsideString (tree : ParseTree) (offset : Nat) : Prop :=
  ∃ t ∈ tree.nodes, t.kind = .string ∧ t.start < offset ∧ offset < t.stop

/-- Nothing but blanks stands before a node on its line. -/
def BeginsLine (source : Text) (t : ParseTree) : Prop :=
  Text.isAllBlank ((source.take t.start).drop (source.above (t.row source)).length) = true

lemma length_above_row_le (source : Text) (t : ParseTree) :
    (source.above (t.row source)).length ≤ t.start := by
  obtain ⟨piece, heq, -⟩ := Text.exists_above (source.take t.start) (source.drop t.start)
  rw [List.take_append_drop] at heq
  have hlength := congrArg List.length heq
  rw [List.length_append, List.length_take] at hlength
  rw [row]
  omega

lemma mem_drop_of_mem_getLast {m n k : Nat} {c : Char} (hc : c ∈ (source.take n).getLast?)
    (hmn : m < n) (hnk : n ≤ k) (hn : n ≤ source.length) : c ∈ (source.take k).drop m := by
  rw [Option.mem_def, List.getLast?_eq_getElem?, List.length_take, Nat.min_eq_left hn,
    List.getElem?_take, if_pos (by omega)] at hc
  refine List.mem_iff_getElem?.mpr ⟨n - 1 - m, ?_⟩
  rw [List.getElem?_drop, List.getElem?_take, if_pos (by omega), ← hc]
  congr 1
  omega

/-- Where a statement begins its line no literal goes on from the line above. -/
lemma not_insideString (h : IsTreeOf source tree) (ht : t ∈ tree.nodes)
    (hstatement : t.kind.isStatement = true) (hbegins : BeginsLine source t) :
    ¬ InsideString tree (source.above (t.row source)).length := by
  rintro ⟨s, hs, hstring, hstart, hstop⟩
  have hline := length_above_row_le source t
  rcases h.nested_or_apart hs ht with hinside | hinside | hle | hle
  · have hcovered := ((h.of_mem ht).start_le hinside).1
    omega
  · rw [h.plain s hs hstring t hinside] at hstatement
    cases hstatement
  · -- The literal ends between the start of the line and the statement, where only blanks are.
    have hquoted := h.quoted s hs hstring
    cases hlast : (source.take s.stop).getLast? with
    | none =>
      rw [hlast] at hquoted
      cases hquoted
    | some quote =>
      have hblank : isBlank quote = true := List.all_eq_true.mp hbegins quote
        (mem_drop_of_mem_getLast hlast hstop hle (h.within s hs).2)
      rw [hlast, Option.any_some, isQuote_of_isBlank hblank] at hquoted
      cases hquoted
  · have hcovered := (h.within t ht).1
    omega

/-! ## The lines of parts -/

open Commentary

/-- A statement starts on the line of each part of an outline. -/
lemma exists_statement_of_part (parent : NodeKind) (t : ParseTree) {function : Option Text}
    {part : Commentary.Part} (h : part ∈ partsInAll function (collect source (.inside parent) t)) :
    ∃ s ∈ t.nodes, s.kind.isStatement = true ∧ part.node.line = s.row source + 1 := by
  induction t using ParseTree.inside_induction generalizing parent function with
  | step t ih =>
    obtain ⟨node, hnode, hpart⟩ := mem_partsInAll.mp h
    rw [collect_eq] at hnode
    obtain ⟨child, hchild, hnode⟩ := List.mem_flatMap.mp hnode
    have hmem : child ∈ t.children := (List.mem_filter.mp hchild).1
    have hbelow := ih child hmem
    cases hr : recognise source (.inside parent) child with
    | none =>
      rw [hr] at hnode
      obtain ⟨s, hs, hstarts⟩ := hbelow child child.mem_nodes_self parent
        (mem_partsInAll.mpr ⟨node, hnode, hpart⟩)
      exact ⟨s, mem_nodes_of_child hmem hs, hstarts⟩
    | some r =>
      rw [hr] at hnode
      obtain rfl := List.mem_singleton.mp hnode
      obtain ⟨s, hs, hstatement, hfits⟩ := fits_recognise hr
      rw [partsIn, List.mem_cons] at hpart
      rcases hpart with rfl | hpart
      · exact ⟨s, mem_nodes_of_child hmem hs, hstatement, hfits.line⟩
      · cases hbody : hasBody r.kind with
        | false =>
          rw [hbody, if_neg Bool.false_ne_true] at hpart
          cases hpart
        | true =>
          rw [hbody, if_pos rfl, hfits.inside] at hpart
          obtain ⟨s, hs, hstarts⟩ := hbelow _ (definitionOf_mem_nodes child) r.kind hpart
          exact ⟨s, mem_nodes_of_child hmem
            (nodes_subset_of_mem (definitionOf_mem_nodes child) hs), hstarts⟩

end Indented
end Marginalia
