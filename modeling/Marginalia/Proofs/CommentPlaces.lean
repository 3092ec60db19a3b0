import Marginalia.Proofs.PlainLexers
import Marginalia.Proofs.ScannedLines
import Marginalia.Proofs.StatementPlaces

/-!
# The places of comments

A comment is put above the physical line on which a statement starts, or above a line that was
classified. Whether the tokens of the source stay what they are depends on the place: where nothing
goes on from the line above nothing changes, but the start of a line can be inside a literal or behind a
backslash.
-/

namespace Marginalia

open Commentary Lexer

namespace Commentary

/-- A part of the source starts on each line with a comment. -/
lemma exists_part_of_place {l : Language} {v : Verbosity} {o : Outline} {lines : List Text}
    {n : Nat} {p : Placed} {text : Text}
    (hp : (place l (commentOn (remarks l v o)) lines)[n]? = some p) (hc : p.comment = some text) :
    ∃ part ∈ parts o, part.node.line = n + 1 := by
  obtain ⟨part, hpart, remark, hremark, rfl, -⟩ :=
    exists_part_of_commentOn (chosen_of_place hp hc).2
  exact ⟨part, hpart, (remark?_eq_some_iff.mp hremark).1⟩

/-- What holds of each line on which a part starts holds of each line with a comment. -/
lemma eachComment_place {l : Language} {v : Verbosity} {o : Outline} {lines : List Text}
    {holds : Nat → Prop} (h : ∀ part ∈ parts o, ∀ n, part.node.line = n + 1 → holds n) :
    EachComment (place l (commentOn (remarks l v o)) lines) fun n _ => holds n :=
  eachComment_iff.mpr fun n p c hp hc => by
    obtain ⟨part, hpart, hline⟩ := exists_part_of_place hp hc
    exact h part hpart n hline

end Commentary

/-! ## Scanned sources -/

/-- Where the scanner of braced sources classifies a line: outside the block comments that it
counts. -/
def Classified (l : Language) (source : Text) (n : Nat) : Prop :=
  ∃ raw kind, source.lines[n]? = some raw ∧
    (Braced.Scanner.start.after l (source.lines.take n)).inComment = false ∧
      ((Braced.Scanner.start.after l (source.lines.take n)).feed l raw).2 = some kind

lemma classified_of_part {l : Language} {source : Text} {part : Part}
    (hpart : part ∈ parts (.flat (Braced.scan l source))) {n : Nat}
    (hline : part.node.line = n + 1) : Classified l source n := by
  obtain ⟨node, hnode, rfl⟩ := List.mem_map.mp hpart
  obtain ⟨m, raw, kind, hraw, hfeed, rfl⟩ := Braced.Scanner.exists_line_of_mem_scan hnode
  obtain rfl : m = n := Nat.succ.inj hline
  exact ⟨raw, kind, hraw, Braced.Scanner.not_inComment_of_feed hfeed, hfeed⟩

/-! ## Parsed sources -/

namespace Indented

variable {source : Text} {tree : ParseTree} {n : Nat}

/-- A statement starts on a line. Where the tree is as a grammar promises and nothing but blanks stands
before the statement, no literal goes on from the line above. -/
def StatementStarts (source : Text) (tree : ParseTree) (n : Nat) : Prop :=
  ∃ s ∈ tree.nodes, s.kind.isStatement = true ∧ s.row source = n ∧
    (IsTreeOf source tree → BeginsLine source s → ¬ InsideString tree (source.above n).length)

/-- A statement starts on a line with nothing but blanks before it. -/
def StatementBegins (source : Text) (tree : ParseTree) (n : Nat) : Prop :=
  ∃ s ∈ tree.nodes, s.kind.isStatement = true ∧ s.row source = n ∧ BeginsLine source s

instance (source : Text) (t : ParseTree) : Decidable (BeginsLine source t) :=
  inferInstanceAs (Decidable (_ = true))

instance (tree : ParseTree) (offset : Nat) : Decidable (InsideString tree offset) :=
  inferInstanceAs (Decidable (∃ t ∈ tree.nodes, _ ∧ _ ∧ _))

instance (source : Text) (tree : ParseTree) (n : Nat) : Decidable (StatementBegins source tree n) :=
  inferInstanceAs (Decidable (∃ t ∈ tree.nodes, _ ∧ _ ∧ _))

lemma statementStarts_of_part {part : Commentary.Part}
    (hpart : part ∈ parts (.tree (outlineOf source tree))) (hline : part.node.line = n + 1) :
    StatementStarts source tree n := by
  obtain ⟨s, hs, hstatement, hrow⟩ := exists_statement_of_part .module tree hpart
  obtain rfl : s.row source = n := Nat.succ.inj (hrow.symm.trans hline)
  exact ⟨s, hs, hstatement, rfl, fun htree => not_insideString htree hs hstatement⟩

/-- A source with a grammar has the outline of its parse tree. -/
lemma eq_of_outlineBy {grammar : Text → ParseTree} {o : Outline}
    (h : outlineBy grammar .python source = .ok o) : o = .tree (outlineOf source (grammar source)) := by
  change (parseBy grammar source).map Outline.tree = .ok o at h
  cases hparse : parseBy grammar source with
  | error fault =>
    rw [hparse] at h
    cases h
  | ok root =>
    rw [hparse] at h
    rw [← (parseBy_eq_ok_iff.mp hparse).2]
    exact (Except.ok.inj h).symm

end Indented

open Indented

/-- A lexer finds a literal going on at the start of a line only where the tree has one. -/
def Lexer.Reads.Agrees {L : Lexer} {l : Language} (R : L.Reads l) (source : Text)
    (tree : ParseTree) : Prop :=
  ∀ n < source.lines.length, R.isInside (L.after (source.above n)) = true →
    InsideString tree (source.above n).length

instance {L : Lexer} {l : Language} (R : L.Reads l) (source : Text) (tree : ParseTree) :
    Decidable (R.Agrees source tree) :=
  inferInstanceAs (Decidable (∀ n < source.lines.length, _ → _))

/-- A comment may stand above a statement that begins its line if the line above it is not joined. -/
lemma Lexer.Reads.mayStand_of_begins {L : Lexer} {l : Language} (R : L.Reads l) {source comment : Text}
    {tree : ParseTree} {n : Nat} (htree : IsTreeOf source tree) (hagrees : R.Agrees source tree)
    (hn : n < source.lines.length) (hbegins : StatementBegins source tree n)
    (hadmits : R.Admits source n comment) : R.MayStand source n comment := by
  refine ⟨?_, hadmits⟩
  obtain ⟨s, hs, hstatement, rfl, hblanks⟩ := hbegins
  by_contra hinside
  exact not_insideString htree hs hstatement hblanks
    (hagrees _ hn (eq_true_of_ne_false hinside))

/-- A commented source is the source line by line, with comments directly above some of its lines.
Lexers of the language find the same tokens in it as in the source if no literal or comment goes on from
above where the comments stand, none is behind a backslash, and each ends with its line.

In a parsed source a statement starts on each of these lines. If it begins its line no literal goes on
there, and lexers that agree with the tree on that need not be asked. In the other sources each of these
lines was classified, outside the block comments that the scanner counts. -/
theorem annotate_comment_places (grammar : Text → ParseTree) {l : Language} {v : Verbosity}
    {source out : Text} (h : annotateBy grammar l v source = .ok out) :
    ∃ o, outlineBy grammar l source = .ok o ∧
      let placed := place l (commentOn (remarks l v o)) source.lines
      placed.map (·.line) = source.lines ∧ out = written l placed ∧
        (∀ (L : Lexer) (R : L.Reads l), EachComment placed (R.MayStand source) →
          L.tokens out = L.tokens source) ∧
        match l with
        | .python =>
          EachComment placed (fun n _ => StatementStarts source (grammar source) n) ∧
            ∀ (L : Lexer) (R : L.Reads .python), IsTreeOf source (grammar source) →
              R.Agrees source (grammar source) →
              EachComment placed (fun n c =>
                StatementBegins source (grammar source) n ∧ R.Admits source n c) →
              L.tokens out = L.tokens source
        | l => EachComment placed (fun n _ => Classified l source n) := by
  rw [annotateBy_eq] at h
  cases ho : outlineBy grammar l source with
  | error fault =>
    rw [ho] at h
    cases h
  | ok o =>
    rw [ho] at h
    obtain rfl := Except.ok.inj h
    refine ⟨o, rfl, ?_⟩
    intro placed
    have hlines : placed.map (·.line) = source.lines := place_lines _ _ _
    refine ⟨hlines, rfl, fun L R => R.tokens_written hlines, ?_⟩
    cases l with
    | python =>
      obtain rfl := eq_of_outlineBy ho
      refine ⟨?_, fun L R htree hagrees hplaces => ?_⟩
      · exact eachComment_place fun part hpart n hline => statementStarts_of_part hpart hline
      · refine R.tokens_written hlines (eachComment_iff.mpr fun n p c hp hc => ?_)
        have hn : n < source.lines.length := by
          rw [← hlines, List.length_map]
          exact (List.getElem?_eq_some_iff.mp hp).1
        obtain ⟨hbegins, hadmits⟩ := eachComment_iff.mp hplaces n p c hp hc
        exact R.mayStand_of_begins htree hagrees hn hbegins hadmits
    | javascript =>
      obtain rfl := Except.ok.inj ho
      exact eachComment_place fun part hpart n hline => classified_of_part hpart hline
    | c =>
      obtain rfl := Except.ok.inj ho
      exact eachComment_place fun part hpart n hline => classified_of_part hpart hline

/-- A source with a literal over two lines above an import. -/
def literalSource : Text := "x = '''a\nb'''\nimport os\n"

open ParseTree in
/-- The parse tree of `literalSource`. -/
def literalTree : ParseTree :=
  let identifier (field? : Option TreeField) (span : Span) := leaf (.other "identifier") field? span
  let string := branch .string (some .right) [leaf (.other "string_start") none ⟨4, 7⟩,
    leaf (.other "string_content") none ⟨7, 10⟩, leaf (.other "string_end") none ⟨10, 13⟩]
  let assignment := branch .assignment none
    [identifier (some .left) ⟨0, 1⟩, leaf (.token "=") none ⟨2, 3⟩, string]
  let imports := branch .importStatement none [leaf (.token "import") none ⟨14, 20⟩,
    branch (.other "dotted_name") (some .name) [identifier none ⟨21, 23⟩]]
  .mk (.other "module") false none ⟨0, 24⟩
    [branch (.other "expression_statement") none [assignment], imports]

/-- Comments below literals over two lines. -/
theorem annotate_comment_places_below_literal :
    let out : Text := "x = '''a\nb'''\n# Load the os library for use in this code\nimport os\n"
    let script : Text := "log(`\n`)\nif (a) \x7b\n\x7d\n"
    let commented : Text :=
      "log(`\n`)\n// Check condition before proceeding with operation\nif (a) \x7b\n\x7d\n"
    (annotateBy (fun _ => literalTree) .python .structural literalSource = .ok out ∧
      IsTreeOf literalSource literalTree ∧ (readsPlain .python).Agrees literalSource literalTree ∧
      (plain .python).tokens out = (plain .python).tokens literalSource) ∧
    annotate .javascript .structural script = .ok commented ∧
      (plain .javascript).tokens commented = (plain .javascript).tokens script := by
  intro out script commented
  constructor
  · have hout : annotateBy (fun _ => literalTree) .python .structural literalSource = .ok out :=
      ok_of_toOption (by decide +kernel)
    have htree : IsTreeOf literalSource literalTree :=
      ⟨by decide +kernel, by decide +kernel, by decide +kernel, by decide +kernel, by decide +kernel⟩
    have hagrees : (readsPlain .python).Agrees literalSource literalTree := by decide +kernel
    obtain ⟨o, ho, -, -, -, -, htokens⟩ := annotate_comment_places (fun _ => literalTree) hout
    obtain rfl := eq_of_outlineBy ho
    exact ⟨hout, htree, hagrees,
      htokens (plain .python) (readsPlain .python) htree hagrees (by decide +kernel)⟩
  · have hout : annotate .javascript .structural script = .ok commented :=
      ok_of_toOption (by decide +kernel)
    obtain ⟨o, ho, -, -, htokens, -⟩ := annotate_comment_places Indented.grammar hout
    obtain rfl := Except.ok.inj ho
    exact ⟨hout, htokens (plain .javascript) (readsPlain .javascript) (by decide +kernel)⟩

/-- A comment can be put inside a literal and behind a backslash, and a comment that ends in a
backslash takes in the line below it. -/
theorem comments_change_tokens :
    -- a statement behind a literal that ends on its line
    (annotate .python .structural "'''doc\n'''; import os\n" =
        .ok "'''doc\n# Load the os library for use in this code\n'''; import os\n" ∧
      (plain .python).tokens
          "'''doc\n# Load the os library for use in this code\n'''; import os\n" ≠
        (plain .python).tokens "'''doc\n'''; import os\n") ∧
    -- a statement on a line that a backslash joins
    (annotate .python .structural "pass; \\\nimport os\n" =
        .ok "pass; \\\n# Load the os library for use in this code\nimport os\n" ∧
      (plain .python).tokens
          "pass; \\\n# Load the os library for use in this code\nimport os\n" ≠
        (plain .python).tokens "pass; \\\nimport os\n") ∧
    -- a line of a literal that looks like a branch
    (annotate .javascript .structural "log(`\nif (a) \x7b\n`)\n" =
        .ok "log(`\n// Check condition before proceeding with operation\nif (a) \x7b\n`)\n" ∧
      (plain .javascript).tokens
          "log(`\n// Check condition before proceeding with operation\nif (a) \x7b\n`)\n" ≠
        (plain .javascript).tokens "log(`\nif (a) \x7b\n`)\n") ∧
    -- the second line of a macro
    (annotate .c .structural "#include <a.h>\n#define LOOP \\\nfor (;;)\n" =
        .ok ("// Include the system header a.h\n#include <a.h>\n#define LOOP \\\n" ++
          "// Repeat with a loop counter: ;;\nfor (;;)\n") ∧
      (plain .c).tokens ("// Include the system header a.h\n#include <a.h>\n#define LOOP \\\n" ++
          "// Repeat with a loop counter: ;;\nfor (;;)\n") ≠
        (plain .c).tokens "#include <a.h>\n#define LOOP \\\nfor (;;)\n") ∧
    -- a comment that ends in a backslash
    annotate .c .structural "#if A \\\n  && B\n" =
        .ok "// Compile the following only if A \\\n#if A \\\n  && B\n" ∧
      (plain .c).tokens "// Compile the following only if A \\\n#if A \\\n  && B\n" ≠
        (plain .c).tokens "#if A \\\n  && B\n" := by
  refine ⟨⟨?_, ?_⟩, ⟨?_, ?_⟩, ⟨?_, ?_⟩, ⟨?_, ?_⟩, ?_, ?_⟩
  · exact ok_of_toOption (by decide +kernel)
  · decide +kernel
  · exact ok_of_toOption (by decide +kernel)
  · decide +kernel
  · exact ok_of_toOption (by decide +kernel)
  · decide +kernel
  · exact ok_of_toOption (by decide +kernel)
  · decide +kernel
  · exact ok_of_toOption (by decide +kernel)
  · decide +kernel

end Marginalia
