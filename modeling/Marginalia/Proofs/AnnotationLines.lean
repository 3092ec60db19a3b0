import Marginalia.Proofs.BuiltComments
import Marginalia.Proofs.SentenceLines

/-!
# The lines of a commented source

A commented source is the source with the lines of comments put above some of its lines. A comment
is one line exactly when the sentence is, so a commented source has the lines that it should have
exactly when the sentences above its lines only show pieces of the source that are on one line.
-/

namespace Marginalia
namespace Commentary

/-- A part of a source with the innermost function around it. -/
structure Part where
  function : Option Text
  node : Node

mutual

/-- A part and the parts inside it, outer parts first. -/
def partsIn (function : Option Text) : Node → List Part
  | .mk kind line children =>
    ⟨function, .mk kind line children⟩ :: partsInAll (functionInside function kind) children

/-- The parts of a list and the parts inside them. -/
def partsInAll (function : Option Text) : List Node → List Part
  | [] => []
  | node :: nodes => partsIn function node ++ partsInAll function nodes

end

lemma mem_partsInAll {function : Option Text} {nodes : List Node} {part : Part} :
    part ∈ partsInAll function nodes ↔ ∃ node ∈ nodes, part ∈ partsIn function node := by
  induction nodes with
  | nil => simp [partsInAll]
  | cons node rest ih => rw [partsInAll, List.mem_append, ih, List.exists_mem_cons_iff]

/-- The parts of a source. -/
def parts : Outline → List Part
  | .tree root => partsInAll none root.children
  | .flat nodes => nodes.map fun node => ⟨functionInside none node.kind, node⟩

/-- The remark about a part is its sentence, for the line it starts on. -/
lemma remark?_eq_some_iff {l : Language} {v : Verbosity} {function : Option Text} {node : Node}
    {remark : Remark} :
    remark? l v function node = some remark ↔ node.line = remark.line + 1 ∧
      sentence? l v function node.kind = some (remark.rank, remark.text) := by
  rw [remark?]
  cases node.line with
  | zero => simp
  | succ line =>
    obtain ⟨line', rank', text'⟩ := remark
    cases sentence? l v function node.kind with
    | none => simp
    | some said => simp [Prod.ext_iff]

mutual

lemma remarksIn_eq (l : Language) (v : Verbosity) (function : Option Text) (node : Node) :
    remarksIn l v function node =
      (partsIn function node).filterMap fun part => remark? l v part.function part.node := by
  match node with
  | .mk kind line children =>
    rw [remarksIn, partsIn, List.filterMap_cons, remarksInAll_eq]
    cases remark? l v function (.mk kind line children) <;> rfl

lemma remarksInAll_eq (l : Language) (v : Verbosity) (function : Option Text) (nodes : List Node) :
    remarksInAll l v function nodes =
      (partsInAll function nodes).filterMap fun part => remark? l v part.function part.node := by
  match nodes with
  | [] => rfl
  | node :: nodes =>
    rw [remarksInAll, partsInAll, List.filterMap_append, remarksIn_eq, remarksInAll_eq]

end

lemma remarks_eq (l : Language) (v : Verbosity) (o : Outline) :
    remarks l v o = (parts o).filterMap fun part => remark? l v part.function part.node := by
  cases o with
  | tree root => exact remarksInAll_eq l v none root.children
  | flat nodes =>
    rw [remarks, parts, List.filterMap_map]
    rfl

lemma exists_remark_of_commentOn {remarks : List Remark} {line : Nat} {text : Text}
    (h : commentOn remarks line = some text) :
    ∃ remark ∈ remarks, remark.line = line ∧ remark.text = text := by
  obtain ⟨remark, hchosen, htext⟩ := Option.map_eq_some_iff.mp h
  have hhere : remark ∈ remarks.filter (·.line == line) := by
    rcases Option.or_eq_some_iff.mp hchosen with hfound | ⟨-, hhead⟩
    · exact List.mem_of_find?_eq_some hfound
    · exact List.mem_of_mem_head? hhead
  obtain ⟨hmem, hline⟩ := List.mem_filter.mp hhere
  exact ⟨remark, hmem, by simpa using hline, htext⟩

lemma exists_part_of_commentOn {l : Language} {v : Verbosity} {o : Outline} {line : Nat}
    {text : Text} (h : commentOn (remarks l v o) line = some text) :
    ∃ part ∈ parts o, ∃ remark, remark? l v part.function part.node = some remark ∧
      remark.line = line ∧ remark.text = text := by
  obtain ⟨remark, hmem, hline, htext⟩ := exists_remark_of_commentOn h
  rw [remarks_eq] at hmem
  obtain ⟨part, hpart, hremark⟩ := List.mem_filterMap.mp hmem
  exact ⟨part, hpart, remark, hremark, hline, htext⟩

/-! Placed comments. -/

lemma placeFrom_lines (l : Language) (comment : Nat → Option Text) (last : Option Nat)
    (index : Nat) (lines : List Text) :
    (placeFrom l comment last index lines).map (·.line) = lines := by
  induction lines generalizing last index with
  | nil => rfl
  | cons line rest ih => simp only [placeFrom, List.map_cons, ih]

lemma place_lines (l : Language) (comment : Nat → Option Text) (lines : List Text) :
    (place l comment lines).map (·.line) = lines :=
  placeFrom_lines l comment none 0 lines

lemma chosen_eq_some_iff {l : Language} {comment : Nat → Option Text} {last : Option Nat}
    {index : Nat} {line text : Text} :
    chosen l comment last index line = some text ↔
      (takesComment l line = true ∧ isSpaced last index = true) ∧ comment index = some text := by
  rw [chosen]
  cases comment index with
  | none => simp
  | some said => simp

lemma chosen_of_placeFrom {l : Language} {comment : Nat → Option Text} {last : Option Nat}
    {index n : Nat} {lines : List Text} {p : Placed} {text : Text}
    (hp : (placeFrom l comment last index lines)[n]? = some p) (hc : p.comment = some text) :
    takesComment l p.line = true ∧ comment (index + n) = some text := by
  induction lines generalizing last index n with
  | nil => cases hp
  | cons line rest ih =>
    cases n with
    | zero =>
      obtain rfl : Placed.mk _ line = p := Option.some.inj hp
      obtain ⟨⟨htakes, -⟩, htext⟩ := chosen_eq_some_iff.mp hc
      exact ⟨htakes, htext⟩
    | succ n =>
      have hrest := ih hp
      rwa [Nat.add_right_comm] at hrest

/-- A line with a comment may have one, and the comment is what there is to say about it. -/
lemma chosen_of_place {l : Language} {comment : Nat → Option Text} {n : Nat} {lines : List Text}
    {p : Placed} {text : Text} (hp : (place l comment lines)[n]? = some p)
    (hc : p.comment = some text) : takesComment l p.line = true ∧ comment n = some text := by
  have hfrom := chosen_of_placeFrom hp hc
  rwa [Nat.zero_add] at hfrom

/-! The lines that are written. -/

lemma oneLine_commentLine {l : Language} {line comment : Text} (h : OneLine line) :
    OneLine (Placed.commentLine l line comment) ↔ OneLine comment := by
  have hmarker : OneLine l.commentMarker := by cases l <;> decide
  simp [Placed.commentLine, h.indentation, hmarker]

lemma Placed.lines_ne_nil (l : Language) (p : Placed) : p.lines l ≠ [] := by
  simp [Placed.lines]

lemma Placed.oneLine_lines {l : Language} {p : Placed} (h : OneLine p.line) :
    (∀ line ∈ p.lines l, OneLine line) ↔ ∀ comment ∈ p.comment, OneLine comment := by
  cases hc : p.comment with
  | none => simp [Placed.lines, hc, h]
  | some comment => simp [Placed.lines, hc, h, oneLine_commentLine h]

/-- The lines of a source with comments are those that were placed exactly when every comment is on
one line. -/
lemma lines_written {l : Language} {placed : List Placed} (hne : placed ≠ [])
    (hlines : ∀ p ∈ placed, OneLine p.line) :
    (written l placed).lines = placed.flatMap (Placed.lines l) ↔
      ∀ p ∈ placed, ∀ comment ∈ p.comment, OneLine comment := by
  have hflat : placed.flatMap (Placed.lines l) ≠ [] := by
    obtain ⟨p, rest, rfl⟩ := List.exists_cons_of_ne_nil hne
    rw [List.flatMap_cons]
    exact List.append_ne_nil_of_left_ne_nil (p.lines_ne_nil l) _
  have hall : (∀ line ∈ placed.flatMap (Placed.lines l), OneLine line) ↔
      ∀ p ∈ placed, ∀ comment ∈ p.comment, OneLine comment := by
    simp only [List.mem_flatMap, forall_exists_index, and_imp]
    constructor
    · intro h p hp
      exact (Placed.oneLine_lines (hlines p hp)).mp fun line hline => h line p hp hline
    · intro h line p hp hline
      exact (Placed.oneLine_lines (hlines p hp)).mpr (h p hp) line hline
  rw [← hall]
  constructor
  · intro heq line hline
    rw [← heq] at hline
    exact Text.oneLine_of_mem_lines hline
  · intro hone
    rw [written, Text.lines_unlines hflat, List.flatMap_congr fun line hline =>
      Text.lines_of_oneLine (hone line hline), List.flatMap_singleton']

/-- A source is in a commented one line by line and in order, with lines put above some of its
lines: the indentation of that line, the marker of comments, a blank and a text. -/
inductive AddsComments (l : Language) : List Text → List Text → Prop
  | nil : AddsComments l [] []
  | line (line : Text) {source out : List Text} (h : AddsComments l source out) :
    AddsComments l (line :: source) (line :: out)
  | comment (line text : Text) {source out : List Text} (h : AddsComments l (line :: source) out) :
    AddsComments l (line :: source) (Placed.commentLine l line text :: out)

lemma AddsComments.of_placed (l : Language) (placed : List Placed) :
    AddsComments l (placed.map (·.line)) (placed.flatMap (Placed.lines l)) := by
  induction placed with
  | nil => exact .nil
  | cons p rest ih =>
    obtain ⟨comment, line⟩ := p
    cases comment with
    | none => exact .line line ih
    | some text => exact .comment line text (.line line ih)

/-- A line that is in a commented source but not in the source is a comment. -/
lemma AddsComments.mem_or_comment {l : Language} {source out : List Text}
    (h : AddsComments l source out) {written : Text} (hmem : written ∈ out) :
    written ∈ source ∨ ∃ line ∈ source, ∃ text, written = Placed.commentLine l line text := by
  induction h with
  | nil => exact absurd hmem List.not_mem_nil
  | line line _ ih =>
    rcases List.mem_cons.mp hmem with rfl | hrest
    · exact .inl List.mem_cons_self
    · rcases ih hrest with hsource | ⟨below, hbelow, text, htext⟩
      · exact .inl (List.mem_cons_of_mem _ hsource)
      · exact .inr ⟨below, List.mem_cons_of_mem _ hbelow, text, htext⟩
  | comment line text _ ih =>
    rcases List.mem_cons.mp hmem with rfl | hrest
    · exact .inr ⟨line, List.mem_cons_self, text, rfl⟩
    · exact ih hrest

/-- A part is commented if the comment above its line is the sentence about it. -/
def Part.IsCommented (l : Language) (v : Verbosity) (placed : List Placed) (part : Part) : Prop :=
  ∃ remark, remark? l v part.function part.node = some remark ∧
    ∃ p, placed[remark.line]? = some p ∧ p.comment = some remark.text

/-- The pieces of the source that the sentence about a part shows. -/
def Part.shown (l : Language) (part : Part) : List Text :=
  Commentary.shown l part.function part.node.kind

lemma oneLine_remark {l : Language} {v : Verbosity} {part : Part} {remark : Remark}
    (h : remark? l v part.function part.node = some remark) :
    OneLine remark.text ↔ ∀ piece ∈ part.shown l, OneLine piece :=
  oneLine_sentence (remark?_eq_some_iff.mp h).2

/-- The parts that are commented show pieces of the source that are on one line. -/
def ShowsOneLine (l : Language) (v : Verbosity) (o : Outline) (placed : List Placed) : Prop :=
  ∀ part ∈ parts o, part.IsCommented l v placed → ∀ piece ∈ part.shown l, OneLine piece

lemma oneLine_comments {l : Language} {v : Verbosity} {o : Outline} {lines : List Text} :
    (∀ p ∈ place l (commentOn (remarks l v o)) lines, ∀ comment ∈ p.comment, OneLine comment) ↔
      ShowsOneLine l v o (place l (commentOn (remarks l v o)) lines) := by
  constructor
  · rintro h part - ⟨remark, hremark, p, hp, hcomment⟩
    exact (oneLine_remark hremark).mp (h p (List.mem_of_getElem? hp) _ hcomment)
  · intro h p hp comment hcomment
    obtain ⟨n, hn⟩ := List.mem_iff_getElem?.mp hp
    obtain ⟨part, hpart, remark, hremark, rfl, rfl⟩ :=
      exists_part_of_commentOn (chosen_of_place hn hcomment).2
    exact (oneLine_remark hremark).mpr (h part hpart ⟨remark, hremark, p, hn, hcomment⟩)

end Commentary

open Commentary

/-- A commented source is the source line by line, with one line above each line that has a comment,
exactly when the parts that are commented show pieces of the source that are on one line. If they
do, the lines that are not the source's are comments, indented like the line below. -/
theorem annotate_adds_lines_iff {v : Verbosity} {source out : Text}
    (h : annotate .python v source = .ok out) :
    ∃ o, outline .python source = .ok o ∧
      let placed := place .python (commentOn (remarks .python v o)) source.lines
      placed.map (·.line) = source.lines ∧
        (out.lines = placed.flatMap (Placed.lines .python) ↔ ShowsOneLine .python v o placed) ∧
        (ShowsOneLine .python v o placed → AddsComments .python source.lines out.lines) := by
  cases ho : outline .python source with
  | error fault =>
    rw [annotate_eq, ho] at h
    cases h
  | ok o =>
    rw [annotate_eq, ho] at h
    obtain rfl := Except.ok.inj h
    have hlines := place_lines .python (commentOn (remarks .python v o)) source.lines
    refine ⟨o, rfl, hlines, ?_⟩
    have hne : place .python (commentOn (remarks .python v o)) source.lines ≠ [] := by
      intro hnil
      rw [hnil] at hlines
      exact Text.lines_ne_nil source hlines.symm
    have hone : ∀ p ∈ place .python (commentOn (remarks .python v o)) source.lines,
        OneLine p.line := by
      intro p hp
      have hline : p.line ∈ source.lines := hlines ▸ List.mem_map_of_mem hp
      exact Text.oneLine_of_mem_lines hline
    have hexact := (lines_written (l := .python) hne hone).trans oneLine_comments
    refine ⟨hexact, fun hshown => ?_⟩
    have hadds := AddsComments.of_placed .python
      (place .python (commentOn (remarks .python v o)) source.lines)
    rw [hlines] at hadds
    exact (hexact.mpr hshown).symm ▸ hadds

lemma ok_of_toOption {ε α : Type} {x : Except ε α} {a : α} (h : x.toOption = some a) :
    x = .ok a := by
  cases x with
  | error e => cases h
  | ok b => exact congrArg Except.ok (Option.some.inj h)

/-- A source whose only sentence shows the name of a module. -/
theorem annotate_adds_lines_of_import :
    ∃ o, outline .python "import os\n" = .ok o ∧
      let placed := place .python (commentOn (remarks .python .structural o))
        (Text.lines "import os\n")
      placed.map (·.line) = Text.lines "import os\n" ∧
        (Text.lines "# Load the os library for use in this code\nimport os\n" =
            placed.flatMap (Placed.lines .python) ↔ ShowsOneLine .python .structural o placed) ∧
        (ShowsOneLine .python .structural o placed →
          AddsComments .python (Text.lines "import os\n")
            (Text.lines "# Load the os library for use in this code\nimport os\n")) :=
  annotate_adds_lines_iff (ok_of_toOption (by decide +kernel))

/-- The target of a loop that goes over two lines makes a comment of two lines. -/
theorem annotate_breaks_loop_target :
    ∃ out, annotate .python .structural "for (a,\n     b) in pairs:\n    pass\n" = .ok out ∧
      ¬ AddsComments .python (Text.lines "for (a,\n     b) in pairs:\n    pass\n") out.lines := by
  refine ⟨
    "# Loop through each (a,\n     b) and perform operations\nfor (a,\n     b) in pairs:\n    pass\n",
    ok_of_toOption (by decide +kernel), fun hadds => ?_⟩
  have hmem : ("     b) and perform operations" : Text) ∈ Text.lines
      "# Loop through each (a,\n     b) and perform operations\nfor (a,\n     b) in pairs:\n    pass\n" := by
    decide +kernel
  rcases hadds.mem_or_comment hmem with hsource | ⟨line, -, text, htext⟩
  · exact absurd hsource (by decide +kernel)
  · have hmark : '#' ∈ Placed.commentLine .python line text := by
      simp [Placed.commentLine, show Language.python.commentMarker = ['#'] from rfl]
    rw [← htext] at hmark
    exact absurd hmark (by decide)

end Marginalia
