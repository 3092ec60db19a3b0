import Marginalia.Commentary.Remark

/-!
# Building the comments

The parts of an outline are visited one after the other, outer parts first. Each is described in the
scope it is defined in. The first primary description of a line is entered right away and stays;
fallbacks are put off to the end, where they only fill lines that have nothing yet.
-/

namespace Marginalia.Commentary

/-- Comments by the lines they are for, counted from zero. -/
structure AnnotationMap where
  entries : List (Nat × Text)
  ascending : entries.Pairwise fun x y => x.1 < y.1

/-- A comment put into its place among others, unless its line has one. -/
def insertEntry (line : Nat) (text : Text) : List (Nat × Text) → List (Nat × Text)
  | [] => [(line, text)]
  | entry :: rest =>
    if line < entry.1 then (line, text) :: entry :: rest
    else if line = entry.1 then entry :: rest
    else entry :: insertEntry line text rest

theorem mem_insertEntry {line : Nat} {text : Text} {entries : List (Nat × Text)}
    {entry : Nat × Text} (h : entry ∈ insertEntry line text entries) :
    entry = (line, text) ∨ entry ∈ entries := by
  induction entries with
  | nil => exact .inl (List.mem_singleton.mp h)
  | cons first rest ih =>
    rw [insertEntry] at h
    split at h
    · exact List.mem_cons.mp h
    · split at h
      · exact .inr h
      · rcases List.mem_cons.mp h with rfl | h
        · exact .inr List.mem_cons_self
        · exact (ih h).imp_right (List.mem_cons_of_mem first)

theorem pairwise_insertEntry (line : Nat) (text : Text) {entries : List (Nat × Text)}
    (h : entries.Pairwise fun x y => x.1 < y.1) :
    (insertEntry line text entries).Pairwise fun x y => x.1 < y.1 := by
  induction entries with
  | nil => exact List.pairwise_singleton _ _
  | cons entry rest ih =>
    obtain ⟨hentry, hrest⟩ := List.pairwise_cons.mp h
    rw [insertEntry]
    split
    · next hlt =>
      refine List.pairwise_cons.mpr ⟨fun other hother => ?_, h⟩
      rcases List.mem_cons.mp hother with rfl | hother
      · exact hlt
      · exact Nat.lt_trans hlt (hentry other hother)
    · next hle =>
      split
      · exact h
      · next hne =>
        refine List.pairwise_cons.mpr ⟨fun other hother => ?_, ih hrest⟩
        rcases mem_insertEntry hother with rfl | hother
        · exact Nat.lt_of_le_of_ne (Nat.not_lt.mp hle) (Ne.symm hne)
        · exact hentry other hother

namespace AnnotationMap

def empty : AnnotationMap := ⟨[], .nil⟩

/-- The comment for a line. -/
def get? (m : AnnotationMap) (line : Nat) : Option Text := m.entries.lookup line

/-- Enters a comment for a line that has none. -/
def orInsert (m : AnnotationMap) (line : Nat) (text : Text) : AnnotationMap :=
  ⟨insertEntry line text m.entries, pairwise_insertEntry line text m.ascending⟩

end AnnotationMap

/-- The names of the definitions around a part. -/
structure Scope where
  owner : Option Text
  function : Option Text
deriving Repr, DecidableEq

namespace Scope

def outermost : Scope := ⟨none, none⟩

/-- The scope inside a part. A class hides the functions around it. -/
def enter (scope : Scope) : NodeKind → Scope
  | .classDef name .. => ⟨some name, none⟩
  | .function c => ⟨c.owner.or scope.owner, some c.name⟩
  | _ => scope

end Scope

/-- What was gathered from the parts so far. -/
structure Gathered where
  map : AnnotationMap
  /-- The comments that give way to others, in the order of their parts. -/
  fallbacks : List (Nat × Text)

namespace Gathered

def start : Gathered := ⟨.empty, []⟩

/-- Gathers what there is to say about one part. -/
def record (g : Gathered) (l : Language) (v : Verbosity) (scope : Scope) (node : Node) :
    Gathered :=
  match node.line with
  | 0 => g
  | line + 1 =>
    match sentence? l v scope.function node.kind with
    | some (.primary, text) => { g with map := g.map.orInsert line text }
    | some (.fallback, text) => { g with fallbacks := g.fallbacks ++ [(line, text)] }
    | none => g

/-- The comments in the end: fallbacks are entered for lines without one. -/
def finish (g : Gathered) : AnnotationMap :=
  g.fallbacks.foldl (fun map entry => map.orInsert entry.1 entry.2) g.map

end Gathered

mutual

/-- Gathers from a part, in the scope it is defined in, and from the parts inside it. -/
def visit (l : Language) (v : Verbosity) (scope : Scope) : Node → Gathered → Gathered
  | .mk kind line children, g =>
    visitAll l v (scope.enter kind) children (g.record l v scope (.mk kind line children))

/-- Gathers from parts in order. -/
def visitAll (l : Language) (v : Verbosity) (scope : Scope) : List Node → Gathered → Gathered
  | [], g => g
  | node :: nodes, g => visitAll l v scope nodes (visit l v scope node g)

end

/-- What is gathered from an outline. A part of a flat outline stands alone, in its own scope. -/
def gather (l : Language) (v : Verbosity) : Outline → Gathered
  | .tree root => visitAll l v .outermost root.children .start
  | .flat nodes =>
    nodes.foldl (fun g node => g.record l v (Scope.outermost.enter node.kind) node) .start

/-- The comments on an outline by their lines. -/
def buildAnnotations (l : Language) (v : Verbosity) (o : Outline) : AnnotationMap :=
  (gather l v o).finish

end Marginalia.Commentary
