import Mathlib.Data.List.Basic
import Mathlib.Order.Basic
import Mathlib.Order.Defs.LinearOrder
import Mathlib.Data.Nat.Basic
import Marginalia.Commentary

/-!
# The comments that are built

Visiting the parts of an outline gathers the remarks about it one after the other. A primary remark
is entered for its line unless the line has one, so that the first one of each line stays; the others
wait until all parts were visited. What is built in the end says of each line what its first primary
remark says, or else its first remark of the lower rank.
-/

namespace Marginalia
namespace Commentary

/-! ## Entries -/

lemma lookup_eq_none_of_lt {line : Nat} {entries : List (Nat × Text)}
    (h : ∀ entry ∈ entries, line < entry.1) : entries.lookup line = none := by
  rw [List.lookup_eq_none_iff]
  intro entry hentry
  exact bne_iff_ne.mpr (h entry hentry).ne

/-- Entering a comment for a line says nothing new about the lines that have one. -/
lemma lookup_insertEntry (line : Nat) (text : Text) {entries : List (Nat × Text)}
    (h : entries.Pairwise fun x y => x.1 < y.1) (other : Nat) :
    (insertEntry line text entries).lookup other =
      (entries.lookup other).or (if other = line then some text else none) := by
  induction entries with
  | nil =>
    rw [insertEntry, List.lookup_cons, List.lookup_nil, Option.none_or]
    by_cases heq : other = line
    · rw [if_pos heq, beq_iff_eq.mpr heq]
    · rw [if_neg heq, beq_false_of_ne heq]
  | cons entry rest ih =>
    obtain ⟨hentry, hrest⟩ := List.pairwise_cons.mp h
    obtain ⟨first, said⟩ := entry
    have hnone : line < first → ((first, said) :: rest).lookup line = none := by
      intro hlt
      refine lookup_eq_none_of_lt fun later hlater => ?_
      rcases List.mem_cons.mp hlater with rfl | hlater
      · exact hlt
      · exact hlt.trans (hentry later hlater)
    rw [insertEntry]
    by_cases hother : other = line
    · subst hother
      rw [if_pos rfl]
      rcases Nat.lt_trichotomy other first with hlt | rfl | hlt
      · rw [if_pos hlt, hnone hlt, Option.none_or, List.lookup_cons_self]
      · rw [if_neg (Nat.lt_irrefl other), if_pos rfl, List.lookup_cons_self, Option.some_or]
      · rw [if_neg hlt.asymm, if_neg hlt.ne', List.lookup_cons, List.lookup_cons,
          beq_false_of_ne hlt.ne', ih hrest, if_pos rfl]
    · rw [if_neg hother, Option.or_none]
      split
      · rw [List.lookup_cons, beq_false_of_ne hother]
      · split
        · rfl
        · rw [List.lookup_cons, List.lookup_cons, ih hrest, if_neg hother, Option.or_none]

lemma length_insertEntry_le (line : Nat) (text : Text) (entries : List (Nat × Text)) :
    (insertEntry line text entries).length ≤ entries.length + 1 := by
  induction entries with
  | nil => exact Nat.le_refl 1
  | cons entry rest ih =>
    rw [insertEntry]
    split_ifs
    · exact Nat.le_refl _
    · exact Nat.le_succ _
    · exact Nat.succ_le_succ ih

namespace AnnotationMap

lemma get?_orInsert (m : AnnotationMap) (line : Nat) (text : Text) (other : Nat) :
    (m.orInsert line text).get? other =
      (m.get? other).or (if other = line then some text else none) :=
  lookup_insertEntry line text m.ascending other

/-- What is entered for several lines one after the other is what is entered first for each. -/
lemma get?_foldl_orInsert (m : AnnotationMap) (entries : List (Nat × Text)) (line : Nat) :
    (entries.foldl (fun m entry => m.orInsert entry.1 entry.2) m).get? line =
      (m.get? line).or (entries.lookup line) := by
  induction entries generalizing m with
  | nil => exact (Option.or_none).symm
  | cons entry rest ih =>
    obtain ⟨first, text⟩ := entry
    rw [List.foldl_cons, ih, get?_orInsert, Option.or_assoc, List.lookup_cons]
    by_cases heq : line = first
    · subst heq
      rw [if_pos rfl, beq_self_eq_true, Option.some_or]
    · rw [if_neg heq, beq_false_of_ne heq, Option.none_or]

lemma length_foldl_orInsert_le (m : AnnotationMap) (entries : List (Nat × Text)) :
    (entries.foldl (fun m entry => m.orInsert entry.1 entry.2) m).entries.length ≤
      m.entries.length + entries.length := by
  induction entries generalizing m with
  | nil => exact Nat.le_refl _
  | cons entry rest ih =>
    have hone : (m.orInsert entry.1 entry.2).entries.length ≤ m.entries.length + 1 :=
      length_insertEntry_le entry.1 entry.2 m.entries
    have hrest := ih (m.orInsert entry.1 entry.2)
    rw [List.foldl_cons, List.length_cons]
    omega

/-- The entries are what there is for each line. -/
lemma mem_entries_iff (m : AnnotationMap) {line : Nat} {text : Text} :
    (line, text) ∈ m.entries ↔ m.get? line = some text := by
  obtain ⟨entries, hascending⟩ := m
  rw [get?]
  dsimp only
  induction entries with
  | nil => simp
  | cons entry rest ih =>
    obtain ⟨hentry, hrest⟩ := List.pairwise_cons.mp hascending
    obtain ⟨first, said⟩ := entry
    rw [List.mem_cons, List.lookup_cons, Prod.mk.injEq]
    by_cases heq : line = first
    · subst heq
      have hnot : (line, text) ∉ rest := fun hmem => Nat.lt_irrefl line (hentry (line, text) hmem)
      simp [hnot, eq_comm]
    · rw [beq_false_of_ne heq]
      simpa [heq] using ih hrest

end AnnotationMap

/-! ## Visiting parts -/

lemma function_enter (scope : Scope) (kind : NodeKind) :
    (scope.enter kind).function = functionInside scope.function kind := by
  cases kind <;> rfl

namespace Gathered

/-- Gathers a remark. -/
def note (g : Gathered) (r : Remark) : Gathered :=
  match r.rank with
  | .primary => { g with map := g.map.orInsert r.line r.text }
  | .fallback => { g with fallbacks := g.fallbacks ++ [(r.line, r.text)] }

lemma record_eq (g : Gathered) (l : Language) (v : Verbosity) (scope : Scope) (node : Node) :
    g.record l v scope node = (remark? l v scope.function node).toList.foldl note g := by
  rw [record, remark?]
  cases node.line with
  | zero => rfl
  | succ line =>
    cases sentence? l v scope.function node.kind with
    | none => rfl
    | some said =>
      obtain ⟨rank, text⟩ := said
      cases rank <;> rfl

end Gathered

open Gathered

mutual

/-- Visiting a part gathers the remarks about it and the parts inside it, in their order. -/
lemma visit_eq (l : Language) (v : Verbosity) (scope : Scope) (node : Node) (g : Gathered) :
    visit l v scope node g = (remarksIn l v scope.function node).foldl note g := by
  match node with
  | .mk kind line children =>
    rw [visit, visitAll_eq, record_eq, function_enter, remarksIn, List.foldl_append]

lemma visitAll_eq (l : Language) (v : Verbosity) (scope : Scope) (nodes : List Node)
    (g : Gathered) :
    visitAll l v scope nodes g = (remarksInAll l v scope.function nodes).foldl note g := by
  match nodes with
  | [] => rfl
  | node :: nodes => rw [visitAll, visitAll_eq, visit_eq, remarksInAll, List.foldl_append]

end

lemma gather_eq (l : Language) (v : Verbosity) (o : Outline) :
    gather l v o = (remarks l v o).foldl note .start := by
  cases o with
  | tree root => exact visitAll_eq l v .outermost root.children .start
  | flat nodes =>
    have hstep (g : Gathered) (node : Node) :
        g.record l v (Scope.outermost.enter node.kind) node =
          (remark? l v (functionInside none node.kind) node).toList.foldl note g := by
      rw [record_eq, function_enter]
      rfl
    rw [gather, remarks]
    generalize Gathered.start = g
    induction nodes generalizing g with
    | nil => rfl
    | cons node rest ih =>
      rw [List.foldl_cons, ih, hstep, List.filterMap_cons]
      cases remark? l v (functionInside none node.kind) node <;> rfl

/-! ## What is gathered from remarks -/

/-- Whether a remark is about a line and of a rank. -/
def Remark.isOf (line : Nat) (rank : Rank) (remark : Remark) : Bool :=
  remark.line == line && remark.rank == rank

lemma Remark.isOf_iff {line : Nat} {rank : Rank} {remark : Remark} :
    remark.isOf line rank = true ↔ remark.line = line ∧ remark.rank = rank := by
  simp [Remark.isOf]

namespace Gathered

/-- A remark of the better rank is entered if its line has none yet. -/
lemma get?_note (g : Gathered) (r : Remark) (line : Nat) :
    (g.note r).map.get? line =
      (g.map.get? line).or (if r.isOf line .primary then some r.text else none) := by
  obtain ⟨line', rank, text⟩ := r
  cases rank with
  | primary =>
    rw [note, AnnotationMap.get?_orInsert]
    by_cases heq : line = line'
    · subst heq
      simp [Remark.isOf]
    · have hne : ¬ line' = line := fun h => heq h.symm
      simp [Remark.isOf, heq, hne]
  | fallback => simp [note, Remark.isOf]

/-- After any remarks each line has what the first one of the better rank says. -/
lemma get?_foldl_note (g : Gathered) (remarks : List Remark) (line : Nat) :
    (remarks.foldl note g).map.get? line =
      (g.map.get? line).or ((remarks.find? (Remark.isOf line .primary)).map (·.text)) := by
  induction remarks generalizing g with
  | nil => exact (Option.or_none).symm
  | cons r rest ih =>
    rw [List.foldl_cons, ih, get?_note, Option.or_assoc, List.find?_cons]
    cases r.isOf line .primary <;> simp

/-- The remarks of the lower rank wait in their order. -/
lemma fallbacks_foldl_note (g : Gathered) (remarks : List Remark) :
    (remarks.foldl note g).fallbacks = g.fallbacks ++
      (remarks.filter (·.rank == .fallback)).map fun r => (r.line, r.text) := by
  induction remarks generalizing g with
  | nil => exact (List.append_nil _).symm
  | cons r rest ih =>
    obtain ⟨line, rank, text⟩ := r
    rw [List.foldl_cons, ih]
    cases rank <;> simp [note]

/-- A remark is entered or waits. -/
lemma length_foldl_note_le (g : Gathered) (remarks : List Remark) :
    (remarks.foldl note g).map.entries.length + (remarks.foldl note g).fallbacks.length ≤
      g.map.entries.length + g.fallbacks.length + remarks.length := by
  induction remarks generalizing g with
  | nil => exact Nat.le_refl _
  | cons r rest ih =>
    have hnote : (g.note r).map.entries.length + (g.note r).fallbacks.length ≤
        g.map.entries.length + g.fallbacks.length + 1 := by
      obtain ⟨line, rank, text⟩ := r
      cases rank with
      | primary =>
        have hone : (g.map.orInsert line text).entries.length ≤ g.map.entries.length + 1 :=
          length_insertEntry_le line text g.map.entries
        change (g.map.orInsert line text).entries.length + g.fallbacks.length ≤ _
        omega
      | fallback =>
        change g.map.entries.length + (g.fallbacks ++ [(line, text)]).length ≤ _
        rw [List.length_append, List.length_singleton]
        omega
    have hrest := ih (g.note r)
    rw [List.foldl_cons, List.length_cons]
    omega

end Gathered

lemma lookup_fallbacks (remarks : List Remark) (line : Nat) :
    ((remarks.filter (·.rank == .fallback)).map fun r => (r.line, r.text)).lookup line =
      (remarks.find? (Remark.isOf line .fallback)).map (·.text) := by
  induction remarks with
  | nil => rfl
  | cons r rest ih =>
    obtain ⟨line', rank, text⟩ := r
    cases rank with
    | primary => simpa [Remark.isOf] using ih
    | fallback =>
      by_cases heq : line = line'
      · subst heq
        simp [Remark.isOf]
      · have hne : ¬ line' = line := fun h => heq h.symm
        simpa [Remark.isOf, List.lookup_cons, beq_false_of_ne heq, hne] using ih

/-- A remark of the lower rank counts if there is none of the higher one. -/
lemma commentOn_eq_or (remarks : List Remark) (line : Nat) :
    commentOn remarks line = ((remarks.find? (Remark.isOf line .primary)).map (·.text)).or
      ((remarks.find? (Remark.isOf line .fallback)).map (·.text)) := by
  have hboth (rank : Rank) : (fun remark : Remark =>
      decide ((remark.line == line) = true ∧ (remark.rank == rank) = true)) =
        Remark.isOf line rank := by
    funext remark
    rw [Remark.isOf, Bool.decide_and, Bool.decide_eq_true, Bool.decide_eq_true]
  rw [commentOn, List.find?_filter, hboth, List.head?_filter, Option.map_or]
  cases hnone : remarks.find? (Remark.isOf line .primary) with
  | some remark => rfl
  | none =>
    rw [Option.map_none, Option.none_or, Option.none_or]
    rw [← List.head?_filter, ← List.head?_filter]
    congr 2
    apply List.filter_congr
    intro remark hmem
    have hnot := List.find?_eq_none.mp hnone remark hmem
    obtain ⟨line', rank, text⟩ := remark
    cases rank with
    | primary => simpa [Remark.isOf] using hnot
    | fallback => simp [Remark.isOf]

/-! ## The comments in the end -/

/-- What is built for a line is the comment on it that the remarks give. -/
lemma get?_buildAnnotations (l : Language) (v : Verbosity) (o : Outline) (line : Nat) :
    (buildAnnotations l v o).get? line = commentOn (remarks l v o) line := by
  rw [buildAnnotations, finish, AnnotationMap.get?_foldl_orInsert, gather_eq, get?_foldl_note,
    fallbacks_foldl_note, commentOn_eq_or, ← lookup_fallbacks]
  rfl

lemma length_buildAnnotations_le (l : Language) (v : Verbosity) (o : Outline) :
    (buildAnnotations l v o).entries.length ≤ (remarks l v o).length := by
  have hfinish := AnnotationMap.length_foldl_orInsert_le (gather l v o).map (gather l v o).fallbacks
  have hgather := length_foldl_note_le .start (remarks l v o)
  rw [← gather_eq] at hgather
  exact (hfinish.trans hgather).trans_eq (Nat.zero_add _)

end Commentary

open Commentary

/-- A commented source is the source with the comments that the remarks about it give. -/
lemma annotateBy_eq (grammar : Text → Indented.ParseTree) (l : Language) (v : Verbosity)
    (source : Text) :
    annotateBy grammar l v source = (outlineBy grammar l source).map fun o =>
      written l (place l (commentOn (remarks l v o)) source.lines) := by
  simp only [annotateBy, funext (get?_buildAnnotations l v _)]

lemma annotate_eq (l : Language) (v : Verbosity) (source : Text) :
    annotate l v source = (outline l source).map fun o =>
      written l (place l (commentOn (remarks l v o)) source.lines) :=
  annotateBy_eq Indented.grammar l v source

end Marginalia
