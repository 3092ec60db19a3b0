import Mathlib.Data.List.Induction
import Mathlib.Data.List.Sort
import Marginalia.Proofs.Spacing

/-!
# The order of remarks

A part of a source is found by its path, the numbers of the parts on the way to it. The parts are
visited in the lexicographic order of their paths, outer parts first. A line gets the sentence about
the first part on it that has one of the better rank. What is said about a part depends on the
functions and classes around it, not on what was visited before it.
-/

namespace Marginalia.Commentary

/-! ## Paths -/

/-- A part stands at a path below a list of parts. `around` are the parts around it, the outermost
one first. -/
inductive StandsAt : List Node → List Nat → List Node → Node → Prop
  | here {nodes : List Node} {i : Nat} {node : Node} (h : nodes[i]? = some node) :
    StandsAt nodes [i] [] node
  | inside {nodes around : List Node} {i : Nat} {path : List Nat} {outer node : Node}
    (h : nodes[i]? = some outer) (hinside : StandsAt outer.children path around node) :
    StandsAt nodes (i :: path) (outer :: around) node

/-- Functions and classes decide which function the parts inside them are in. -/
def opensScope : NodeKind → Bool
  | .function _ => true
  | .classDef .. => true
  | _ => false

def functionName? : NodeKind → Option Text
  | .function c => some c.name
  | _ => none

/-- The function that is the innermost function or class of some parts, the outermost one being the
first. There is none if that is a class. -/
def enclosingFunction (around : List Node) : Option Text :=
  ((around.map Node.kind).reverse.find? opensScope).bind functionName?

/-- A part of an outline at its path, with the function that its sentence may name. Parts of a flat
outline stand alone, and a function among them is its own. -/
def StandsIn : Outline → List Nat → Option Text → Node → Prop
  | .tree root, path, function, node =>
    ∃ around, StandsAt root.children path around node ∧ function = enclosingFunction around
  | .flat nodes, path, function, node =>
    ∃ i, path = [i] ∧ nodes[i]? = some node ∧ function = enclosingFunction [node]

lemma functionInside_eq (function : Option Text) (kind : NodeKind) :
    functionInside function kind = if opensScope kind then functionName? kind else function := by
  cases kind <;> rfl

lemma foldl_functionInside (function : Option Text) (around : List Node) :
    around.foldl (fun function outer => functionInside function outer.kind) function =
      ((around.map Node.kind).reverse.find? opensScope).elim function functionName? := by
  induction around using List.reverseRecOn with
  | nil => rfl
  | append_singleton around outer ih =>
    rw [List.foldl_concat, ih, functionInside_eq, List.map_append, List.reverse_append,
      List.map_singleton, List.reverse_singleton, List.singleton_append, List.find?_cons]
    cases opensScope outer.kind <;> rfl

lemma enclosingFunction_eq_foldl (around : List Node) :
    enclosingFunction around =
      around.foldl (fun function outer => functionInside function outer.kind) none := by
  rw [foldl_functionInside, enclosingFunction]
  cases (around.map Node.kind).reverse.find? opensScope <;> rfl

lemma enclosingFunction_singleton (node : Node) :
    enclosingFunction [node] = functionInside none node.kind := by
  rw [enclosingFunction_eq_foldl]
  rfl

/-! ## Parts with their paths -/

mutual

/-- A part and the parts inside it with their paths. -/
def placesIn (function : Option Text) : Node → List (List Nat × Part)
  | .mk kind line children =>
    ([], ⟨function, .mk kind line children⟩) ::
      placesInAll 0 (functionInside function kind) children

/-- The parts of a list, numbered from `start`, and the parts inside them with their paths. -/
def placesInAll (start : Nat) (function : Option Text) : List Node → List (List Nat × Part)
  | [] => []
  | node :: nodes =>
    (placesIn function node).map (fun (path, part) => (start :: path, part)) ++
      placesInAll (start + 1) function nodes

end

/-- The parts of an outline with their paths. -/
def places : Outline → List (List Nat × Part)
  | .tree root => placesInAll 0 none root.children
  | .flat nodes => nodes.zipIdx.map fun (node, i) => ([i], ⟨functionInside none node.kind, node⟩)

mutual

lemma map_snd_placesIn (function : Option Text) (node : Node) :
    (placesIn function node).map Prod.snd = partsIn function node := by
  match node with
  | .mk kind line children =>
    rw [placesIn, partsIn, List.map_cons, map_snd_placesInAll]

lemma map_snd_placesInAll (start : Nat) (function : Option Text) (nodes : List Node) :
    (placesInAll start function nodes).map Prod.snd = partsInAll function nodes := by
  match nodes with
  | [] => rfl
  | node :: nodes =>
    rw [placesInAll, partsInAll, List.map_append, List.map_map, map_snd_placesInAll]
    congr 1
    exact map_snd_placesIn function node

end

lemma map_snd_places (o : Outline) : (places o).map Prod.snd = parts o := by
  cases o with
  | tree root => exact map_snd_placesInAll 0 none root.children
  | flat nodes =>
    rw [places, parts, List.map_map]
    conv_rhs => rw [← List.zipIdx_map_fst 0 nodes, List.map_map]
    rfl

lemma mem_placesInAll {path : List Nat} {part : Part} {start : Nat} {function : Option Text}
    {nodes : List Node} :
    (path, part) ∈ placesInAll start function nodes ↔ ∃ i node tail, nodes[i]? = some node ∧
      path = (start + i) :: tail ∧ (tail, part) ∈ placesIn function node := by
  induction nodes generalizing start with
  | nil => simp [placesInAll]
  | cons first nodes ih =>
    rw [placesInAll, List.mem_append, ih, List.mem_map]
    constructor
    · rintro (⟨⟨tail, _⟩, hmem, heq⟩ | ⟨i, node, tail, hnode, rfl, hmem⟩)
      · obtain ⟨rfl, rfl⟩ := Prod.mk.inj heq
        exact ⟨0, first, tail, rfl, rfl, hmem⟩
      · refine ⟨i + 1, node, tail, hnode, ?_, hmem⟩
        rw [Nat.add_right_comm, Nat.add_assoc]
    · rintro ⟨i, node, tail, hnode, rfl, hmem⟩
      cases i with
      | zero =>
        obtain rfl : first = node := Option.some.inj hnode
        exact .inl ⟨(tail, part), hmem, rfl⟩
      | succ i =>
        refine .inr ⟨i, node, tail, hnode, ?_, hmem⟩
        rw [Nat.add_right_comm, Nat.add_assoc]

lemma mem_placesIn {path : List Nat} {part : Part} {function : Option Text} {node : Node} :
    (path, part) ∈ placesIn function node ↔ path = [] ∧ part = ⟨function, node⟩ ∨
      (path, part) ∈ placesInAll 0 (functionInside function node.kind) node.children := by
  obtain ⟨kind, line, children⟩ := node
  rw [placesIn, List.mem_cons, Prod.mk.injEq]
  rfl

/-- The parts of a list are those that stand below it, each with the function that the parts around
it make out. -/
lemma mem_placesInAll_iff_standsAt {path : List Nat} {inside function : Option Text} {node : Node}
    {nodes : List Node} :
    (path, ⟨inside, node⟩) ∈ placesInAll 0 function nodes ↔
      ∃ around, StandsAt nodes path around node ∧
        inside = around.foldl (fun function outer => functionInside function outer.kind) function := by
  -- The path goes into one part after the other, and the function changes with each of them.
  induction path generalizing nodes function with
  | nil =>
    rw [mem_placesInAll]
    constructor
    · rintro ⟨_, _, _, -, hpath, -⟩
      cases hpath
    · rintro ⟨_, hstands, -⟩
      cases hstands
  | cons i path ih =>
    rw [mem_placesInAll]
    constructor
    · rintro ⟨j, outer, tail, houter, hpath, hmem⟩
      obtain ⟨rfl, rfl⟩ := List.cons.inj hpath
      rw [Nat.zero_add]
      rcases mem_placesIn.mp hmem with ⟨rfl, hpart⟩ | hmem
      · obtain ⟨rfl, rfl⟩ := Part.mk.inj hpart
        exact ⟨[], .here houter, rfl⟩
      · obtain ⟨around, hstands, hinside⟩ := ih.mp hmem
        exact ⟨outer :: around, .inside houter hstands, hinside⟩
    · rintro ⟨around, hstands, rfl⟩
      cases hstands with
      | here h => exact ⟨i, node, [], h, by rw [Nat.zero_add], mem_placesIn.mpr (.inl ⟨rfl, rfl⟩)⟩
      | inside h hinside =>
        exact ⟨i, _, path, h, by rw [Nat.zero_add],
          mem_placesIn.mpr (.inr (ih.mpr ⟨_, hinside, rfl⟩))⟩

lemma mem_places {path : List Nat} {function : Option Text} {node : Node} {o : Outline} :
    (path, ⟨function, node⟩) ∈ places o ↔ StandsIn o path function node := by
  cases o with
  | tree root =>
    rw [places, mem_placesInAll_iff_standsAt, StandsIn]
    simp only [enclosingFunction_eq_foldl]
  | flat nodes =>
    rw [places, List.mem_map, StandsIn]
    constructor
    · rintro ⟨⟨other, i⟩, hmem, heq⟩
      obtain ⟨rfl, hpart⟩ := Prod.mk.inj heq
      obtain ⟨rfl, rfl⟩ := Part.mk.inj hpart
      exact ⟨i, rfl, List.mem_zipIdx_iff_getElem?.mp hmem, (enclosingFunction_singleton _).symm⟩
    · rintro ⟨i, rfl, hnode, rfl⟩
      refine ⟨(node, i), List.mem_zipIdx_iff_getElem?.mpr hnode, ?_⟩
      rw [enclosingFunction_singleton]

mutual

lemma pairwise_placesIn (function : Option Text) (node : Node) :
    (placesIn function node).Pairwise fun x y => x.1 < y.1 := by
  match node with
  | .mk kind line children =>
    rw [placesIn, List.pairwise_cons]
    refine ⟨?_, pairwise_placesInAll 0 _ children⟩
    rintro ⟨path, part⟩ hmem
    obtain ⟨i, node, tail, -, rfl, -⟩ := mem_placesInAll.mp hmem
    exact List.nil_lt_cons _ _

lemma pairwise_placesInAll (start : Nat) (function : Option Text) (nodes : List Node) :
    (placesInAll start function nodes).Pairwise fun x y => x.1 < y.1 := by
  match nodes with
  | [] => exact .nil
  | node :: nodes =>
    rw [placesInAll, List.pairwise_append, List.pairwise_map]
    refine ⟨?_, pairwise_placesInAll (start + 1) function nodes, ?_⟩
    · apply (pairwise_placesIn function node).imp
      intro x y hlt
      exact List.cons_lt_cons_iff.mpr (.inr ⟨rfl, hlt⟩)
    · rintro x hx ⟨path, part⟩ hy
      obtain ⟨⟨tail, part'⟩, -, rfl⟩ := List.mem_map.mp hx
      obtain ⟨i, node, tail', -, rfl, -⟩ := mem_placesInAll.mp hy
      exact List.cons_lt_cons_iff.mpr (.inl (by omega))

end

/-- Parts are visited in the order of their paths. -/
lemma pairwise_places (o : Outline) : (places o).Pairwise fun x y => x.1 < y.1 := by
  cases o with
  | tree root => exact pairwise_placesInAll 0 none root.children
  | flat nodes =>
    have hnumbers : (nodes.zipIdx.map Prod.snd).Pairwise (· < ·) := by
      rw [List.zipIdx_map_snd]
      exact List.pairwise_lt_range'
    rw [places, List.pairwise_map]
    apply (List.pairwise_map.mp hnumbers).imp
    intro x y hlt
    exact List.cons_lt_cons_iff.mpr (.inl hlt)

/-! ## First remarks -/

/-- Something is said on a line, counted from zero, about the part at a path. -/
def Says (l : Language) (v : Verbosity) (o : Outline) (line : Nat) (rank : Rank) (path : List Nat)
    (text : Text) : Prop :=
  ∃ function node, StandsIn o path function node ∧ node.line = line + 1 ∧
    sentence? l v function node.kind = some (rank, text)

/-- The first thing of a rank that is said on a line. -/
def SaysFirst (l : Language) (v : Verbosity) (o : Outline) (line : Nat) (rank : Rank)
    (text : Text) : Prop :=
  ∃ path, Says l v o line rank path text ∧
    ∀ earlier < path, ∀ other, ¬ Says l v o line rank earlier other

/-- The remarks about an outline with the paths of the parts they are about. -/
def placedRemarks (l : Language) (v : Verbosity) (o : Outline) : List (List Nat × Remark) :=
  (places o).filterMap fun place =>
    (remark? l v place.2.function place.2.node).map fun remark => (place.1, remark)

variable {l : Language} {v : Verbosity} {o : Outline}

lemma map_snd_placedRemarks (l : Language) (v : Verbosity) (o : Outline) :
    (placedRemarks l v o).map Prod.snd = remarks l v o := by
  rw [remarks_eq, ← map_snd_places, List.filterMap_map, placedRemarks, List.map_filterMap]
  congr 1
  funext place
  rw [Option.map_map]
  exact Option.map_id_apply

lemma mem_placedRemarks {path : List Nat} {remark : Remark} :
    (path, remark) ∈ placedRemarks l v o ↔ Says l v o remark.line remark.rank path remark.text := by
  rw [placedRemarks, List.mem_filterMap]
  constructor
  · rintro ⟨⟨path', function, node⟩, hmem, hfound⟩
    obtain ⟨said, hremark, heq⟩ := Option.map_eq_some_iff.mp hfound
    obtain ⟨rfl, rfl⟩ := Prod.mk.inj heq
    exact ⟨function, node, mem_places.mp hmem, remark?_eq_some_iff.mp hremark⟩
  · rintro ⟨function, node, hstands, hsays⟩
    exact ⟨(path, ⟨function, node⟩), mem_places.mpr hstands,
      Option.map_eq_some_iff.mpr ⟨remark, remark?_eq_some_iff.mpr hsays, rfl⟩⟩

lemma pairwise_placedRemarks (l : Language) (v : Verbosity) (o : Outline) :
    (placedRemarks l v o).Pairwise fun x y => x.1 < y.1 := by
  apply (pairwise_places o).filterMap
  rintro x y hlt x' hx y' hy
  obtain ⟨remark, -, rfl⟩ := Option.map_eq_some_iff.mp hx
  obtain ⟨remark', -, rfl⟩ := Option.map_eq_some_iff.mp hy
  exact hlt

/-- What is found first in the order of paths has the least path. -/
lemma find?_eq_some_iff_of_pairwise {α : Type} {xs : List (List Nat × α)}
    (hsorted : xs.Pairwise fun x y => x.1 < y.1) {p : List Nat × α → Bool} {x : List Nat × α} :
    xs.find? p = some x ↔ x ∈ xs ∧ p x = true ∧ ∀ y ∈ xs, y.1 < x.1 → p y = false := by
  rw [List.find?_eq_some_iff_append]
  constructor
  · rintro ⟨hp, before, after, rfl, hbefore⟩
    refine ⟨by simp, hp, ?_⟩
    intro y hy hlt
    rcases List.mem_append.mp hy with hy | hy
    · simpa using hbefore y hy
    · exfalso
      have hafter := (List.pairwise_cons.mp (List.pairwise_append.mp hsorted).2.1).1
      rcases List.mem_cons.mp hy with rfl | hy
      · exact List.lt_irrefl _ hlt
      · exact List.lt_asymm hlt (hafter y hy)
  · rintro ⟨hmem, hp, hleast⟩
    obtain ⟨before, after, rfl⟩ := List.append_of_mem hmem
    refine ⟨hp, before, after, rfl, ?_⟩
    intro y hy
    have hlt := (List.pairwise_append.mp hsorted).2.2 y hy x List.mem_cons_self
    simp [hleast y (List.mem_append_left _ hy) hlt]

lemma find?_remarks_eq_none_iff (line : Nat) (rank : Rank) :
    (remarks l v o).find? (Remark.isOf line rank) = none ↔
      ∀ path text, ¬ Says l v o line rank path text := by
  rw [List.find?_eq_none, ← map_snd_placedRemarks]
  constructor
  · intro hnone path text hsays
    have hmem : (path, Remark.mk line rank text) ∈ placedRemarks l v o := mem_placedRemarks.mpr hsays
    exact hnone _ (List.mem_map_of_mem hmem) (Remark.isOf_iff.mpr ⟨rfl, rfl⟩)
  · intro hsilent remark hmem hof
    obtain ⟨⟨path, said⟩, hplaced, rfl⟩ := List.mem_map.mp hmem
    obtain ⟨rfl, rfl⟩ := Remark.isOf_iff.mp hof
    exact hsilent path said.text (mem_placedRemarks.mp hplaced)

lemma find?_remarks_eq_some_iff (line : Nat) (rank : Rank) (text : Text) :
    ((remarks l v o).find? (Remark.isOf line rank)).map (·.text) = some text ↔
      SaysFirst l v o line rank text := by
  rw [← map_snd_placedRemarks, List.find?_map, Option.map_map, Option.map_eq_some_iff]
  constructor
  · rintro ⟨⟨path, remark⟩, hfound, htext⟩
    obtain ⟨hmem, hof, hleast⟩ :=
      (find?_eq_some_iff_of_pairwise (pairwise_placedRemarks l v o)).mp hfound
    obtain ⟨rfl, rfl⟩ := Remark.isOf_iff.mp hof
    cases htext
    refine ⟨path, mem_placedRemarks.mp hmem, ?_⟩
    intro earlier hlt other hsays
    have hearlier : (earlier, Remark.mk remark.line remark.rank other) ∈ placedRemarks l v o :=
      mem_placedRemarks.mpr hsays
    have hnot := hleast _ hearlier hlt
    rw [Function.comp_apply, Bool.eq_false_iff] at hnot
    exact hnot (Remark.isOf_iff.mpr ⟨rfl, rfl⟩)
  · rintro ⟨path, hsays, hleast⟩
    have hmem : (path, Remark.mk line rank text) ∈ placedRemarks l v o := mem_placedRemarks.mpr hsays
    refine ⟨(path, ⟨line, rank, text⟩), ?_, rfl⟩
    rw [find?_eq_some_iff_of_pairwise (pairwise_placedRemarks l v o)]
    refine ⟨hmem, Remark.isOf_iff.mpr ⟨rfl, rfl⟩, ?_⟩
    rintro ⟨earlier, remark⟩ hearlier hlt
    rw [Bool.eq_false_iff]
    intro hof
    obtain ⟨rfl, rfl⟩ := Remark.isOf_iff.mp hof
    exact hleast earlier hlt remark.text (mem_placedRemarks.mp hearlier)

/-! ## The comments line by line -/

lemma mem_insertNumber {m n : Nat} {ms : List Nat} : m ∈ insertNumber n ms ↔ m = n ∨ m ∈ ms := by
  induction ms with
  | nil => simp [insertNumber]
  | cons k ms ih =>
    rw [insertNumber]
    split_ifs with hlt heq
    · exact List.mem_cons
    · subst heq
      simp
    · rw [List.mem_cons, ih, List.mem_cons]
      tauto

lemma pairwise_insertNumber (n : Nat) {ms : List Nat} (h : ms.Pairwise (· < ·)) :
    (insertNumber n ms).Pairwise (· < ·) := by
  induction ms with
  | nil => exact List.pairwise_singleton _ n
  | cons m ms ih =>
    obtain ⟨hm, hms⟩ := List.pairwise_cons.mp h
    rw [insertNumber]
    split_ifs with hlt heq
    · apply List.pairwise_cons.mpr
      refine ⟨?_, h⟩
      intro k hk
      rcases List.mem_cons.mp hk with rfl | hk
      · exact hlt
      · exact hlt.trans (hm k hk)
    · exact h
    · apply List.pairwise_cons.mpr
      refine ⟨?_, ih hms⟩
      intro k hk
      rcases mem_insertNumber.mp hk with rfl | hk
      · omega
      · exact hm k hk

/-- The numbers of the lines with remarks, in ascending order. -/
def remarkedLines (remarks : List Remark) : List Nat :=
  remarks.foldr (fun r => insertNumber r.line) []

lemma mem_remarkedLines {remarks : List Remark} {line : Nat} :
    line ∈ remarkedLines remarks ↔ ∃ remark ∈ remarks, remark.line = line := by
  induction remarks with
  | nil => simp [remarkedLines]
  | cons remark remarks ih =>
    rw [remarkedLines, List.foldr_cons, mem_insertNumber, ← remarkedLines, ih]
    simp [eq_comm]

lemma pairwise_remarkedLines (remarks : List Remark) :
    (remarkedLines remarks).Pairwise (· < ·) := by
  induction remarks with
  | nil => exact .nil
  | cons remark remarks ih => exact pairwise_insertNumber remark.line ih

lemma mem_comments {remarks : List Remark} {line : Nat} {text : Text} :
    (line, text) ∈ comments remarks ↔ commentOn remarks line = some text := by
  rw [comments, ← remarkedLines, List.mem_filterMap]
  constructor
  · rintro ⟨line', -, hcomment⟩
    obtain ⟨text', htext, heq⟩ := Option.map_eq_some_iff.mp hcomment
    obtain ⟨rfl, rfl⟩ := Prod.mk.inj heq
    exact htext
  · intro h
    obtain ⟨remark, hremark, hline, -⟩ := exists_remark_of_commentOn h
    exact ⟨line, mem_remarkedLines.mpr ⟨remark, hremark, hline⟩,
      Option.map_eq_some_iff.mpr ⟨text, h, rfl⟩⟩

lemma pairwise_comments (remarks : List Remark) :
    (comments remarks).Pairwise fun x y => x.1 < y.1 := by
  rw [comments, ← remarkedLines]
  apply (pairwise_remarkedLines remarks).filterMap
  intro line line' hlt x hx y hy
  obtain ⟨text, -, rfl⟩ := Option.map_eq_some_iff.mp hx
  obtain ⟨text', -, rfl⟩ := Option.map_eq_some_iff.mp hy
  exact hlt

/-- The comments that are built are those that the remarks give, line by line. -/
lemma entries_buildAnnotations (l : Language) (v : Verbosity) (o : Outline) :
    (buildAnnotations l v o).entries = comments (remarks l v o) := by
  have hsame (entry : Nat × Text) :
      entry ∈ (buildAnnotations l v o).entries ↔ entry ∈ comments (remarks l v o) := by
    obtain ⟨line, text⟩ := entry
    rw [AnnotationMap.mem_entries_iff, get?_buildAnnotations, mem_comments]
  have hbuilt := (buildAnnotations l v o).ascending
  have hcomments := pairwise_comments (remarks l v o)
  have hperm := (List.perm_ext_iff_of_nodup (hbuilt.imp fun hlt heq => hlt.ne (congrArg Prod.fst heq))
    (hcomments.imp fun hlt heq => hlt.ne (congrArg Prod.fst heq))).mpr hsame
  exact hperm.eq_of_pairwise (fun x y _ _ hlt hlt' => absurd hlt hlt'.asymm) hbuilt hcomments

/-- In the comments that are built a line has the sentence about the first part on it that has one of
the better rank, or else of the lower one, and none if there is nothing to say about it. So there are
at most as many comments as parts. -/
theorem comments_first_in_order (l : Language) (v : Verbosity) (o : Outline) :
    (∀ line text, (buildAnnotations l v o).get? line = some text ↔
        SaysFirst l v o line .primary text ∨
          (∀ path other, ¬ Says l v o line .primary path other) ∧
            SaysFirst l v o line .fallback text) ∧
      (∀ line, (buildAnnotations l v o).get? line = none ↔
        ∀ rank path text, ¬ Says l v o line rank path text) ∧
      (∀ line text, (line, text) ∈ (buildAnnotations l v o).entries ↔
        (buildAnnotations l v o).get? line = some text) ∧
      (buildAnnotations l v o).entries.Pairwise (fun x y => x.1 < y.1) ∧
      (buildAnnotations l v o).entries.length ≤ o.nodeCount := by
  refine ⟨?_, ?_, fun _ _ => AnnotationMap.mem_entries_iff _, AnnotationMap.ascending _, ?_⟩
  · intro line text
    rw [get?_buildAnnotations, commentOn_eq_or, Option.or_eq_some_iff, Option.map_eq_none_iff,
      find?_remarks_eq_some_iff, find?_remarks_eq_some_iff, find?_remarks_eq_none_iff]
  · intro line
    rw [get?_buildAnnotations, commentOn_eq_or, Option.or_eq_none_iff, Option.map_eq_none_iff,
      Option.map_eq_none_iff, find?_remarks_eq_none_iff, find?_remarks_eq_none_iff]
    constructor
    · rintro ⟨hprimary, hfallback⟩ rank
      cases rank with
      | primary => exact hprimary
      | fallback => exact hfallback
    · intro h
      exact ⟨h .primary, h .fallback⟩
  · exact (length_buildAnnotations_le l v o).trans (length_remarks l v o)

example : (buildAnnotations .python .detailed (.flat
    [.leaf (.assignment ["x"] "f()" .call) 1, .leaf (.libraryCall "f" none) 1])).entries =
      [(0, Sentence.libraryCall "f" none)] := by decide

end Marginalia.Commentary
