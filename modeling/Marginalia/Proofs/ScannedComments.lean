import Marginalia.Proofs.ScannedTexts
import Marginalia.Proofs.Spacing

/-!
# Comments in scanned sources

A source that is read line by line is always commented, however it is written. What comes out are
its lines, with comments of one line each above some of them.
-/

namespace Marginalia

open Text

namespace Text

lemma startsWith_trim {t head : Text} (hhead : head.all (!isBlank ·) = true)
    (h : (trimStart t).startsWith head = true) : (trim t).startsWith head = true := by
  obtain ⟨rest, hrest⟩ := (startsWith_iff _ _).mp h
  have hnot : ∀ c ∈ head, isBlank c = false := by simpa using hhead
  refine (startsWith_iff _ _).mpr ⟨trimEnd rest, ?_⟩
  rw [trim, hrest, trimEnd, dropEnd_of_not hnot]
  rfl

end Text

/-- How the languages without a grammar write comments. -/
lemma Language.profile_of_ne_python {l : Language} (hl : l ≠ .python) :
    l.profile.hasGrammar = false ∧ l.commentMarker = "//" ∧
      l.profile.commentHeads = ["//", "/*", "*"] := by
  cases l with
  | python => exact absurd rfl hl
  | javascript => exact ⟨rfl, rfl, rfl⟩
  | c => exact ⟨rfl, rfl, rfl⟩

namespace Commentary

variable {l : Language}

lemma not_startsWith_of_takesComment (hl : l ≠ .python) {line : Text}
    (h : takesComment l line = true) :
    line.isAllBlank = false ∧
      ∀ head ∈ (["//", "/*", "*"] : List Text), (trimStart line).startsWith head = false := by
  obtain ⟨-, -, hheads⟩ := Language.profile_of_ne_python hl
  have hblanks : ∀ head ∈ (["//", "/*", "*"] : List Text), head.all (!isBlank ·) = true := by decide
  rw [takesComment, Language.isComment, hheads] at h
  simp only [Bool.and_eq_true, Bool.not_eq_true'] at h
  refine ⟨h.1, fun head hhead => ?_⟩
  by_contra hstarts
  have hstarts := startsWith_trim (hblanks head hhead) (eq_true_of_ne_false hstarts)
  exact List.any_eq_false.mp h.2 head hhead hstarts

lemma oneLine_functionInside {kind : NodeKind} (h : kind.OnOneLine) :
    ∀ name ∈ functionInside none kind, OneLine name := by
  cases kind with
  | function c =>
    intro name hname
    obtain rfl : c.name = name := Option.some.inj hname
    exact h c.name List.mem_cons_self
  | _ => rintro _ ⟨⟩

/-- The comments on a scanned source are on one line each. -/
lemma oneLine_comments_of_scan (v : Verbosity) (source : Text) :
    ∀ p ∈ place l (commentOn (remarks l v (.flat (Braced.scan l source)))) source.lines,
      ∀ comment ∈ p.comment, OneLine comment := by
  refine oneLine_comments.mpr ?_
  rintro part hpart -
  obtain ⟨node, hnode, rfl⟩ := List.mem_map.mp hpart
  have hkind := Braced.onOneLine_of_mem_scan hnode
  exact oneLine_shown hkind (oneLine_functionInside hkind)

end Commentary

open Commentary

/-- Sources that are read line by line are always commented. What comes out are the lines of the
source, with a comment of one line above some of them, indented like them. A comment stands above no
blank line and above no comment, there are two lines at least from one commented line to the next,
and no more comments than parts of the source. -/
theorem annotate_scanned {l : Language} (hl : l ≠ .python) (v : Verbosity) (source : Text) :
    ∃ out o placed, annotate l v source = .ok out ∧ outline l source = .ok o ∧
      placed.map (·.line) = source.lines ∧
      out.lines = placed.flatMap (fun p =>
        (p.comment.map fun text => p.line.indentation ++ "// " ++ text).toList ++ [p.line]) ∧
      (∀ p ∈ placed, ∀ text ∈ p.comment, OneLine text ∧ p.line.isAllBlank = false ∧
        ∀ head ∈ (["//", "/*", "*"] : List Text), (trimStart p.line).startsWith head = false) ∧
      (∀ m n, m < n → Commented placed m → Commented placed n → m + 2 ≤ n) ∧
      placed.countP (·.comment.isSome) ≤ o.nodeCount := by
  obtain ⟨hgrammar, hmarker, -⟩ := Language.profile_of_ne_python hl
  have ho : outline l source = .ok (.flat (Braced.scan l source)) := by
    rw [outline, outlineBy, hgrammar]
    rfl
  let o : Outline := .flat (Braced.scan l source)
  let placed := place l (commentOn (remarks l v o)) source.lines
  have hplaced : placed.map (·.line) = source.lines := place_lines l _ source.lines
  have hone : ∀ p ∈ placed, ∀ text ∈ p.comment, OneLine text := oneLine_comments_of_scan v source
  have hlines : (written l placed).lines = placed.flatMap (Placed.lines l) := by
    refine (lines_written ?_ fun p hp => ?_).mpr hone
    · intro hnil
      rw [hnil] at hplaced
      exact lines_ne_nil source hplaced.symm
    · exact oneLine_of_mem_lines (t := source) (hplaced ▸ List.mem_map_of_mem hp)
  refine ⟨written l placed, o, placed, by rw [annotate_eq, ho]; rfl, ho, hplaced, ?_, ?_,
    fun m n hlt hm hn => apart_of_place hm hn hlt, ?_⟩
  · rw [hlines]
    refine List.flatMap_congr fun p _ => ?_
    have hline : Placed.commentLine l p.line = fun text => p.line.indentation ++ "// " ++ text := by
      funext text
      rw [Placed.commentLine, hmarker, List.append_assoc p.line.indentation]
      rfl
    rw [Placed.lines, hline]
  · intro p hp text htext
    obtain ⟨n, hn⟩ := List.mem_iff_getElem?.mp hp
    have htakes : takesComment l p.line = true := (chosen_of_place hn htext).1
    exact ⟨hone p hp text htext, not_startsWith_of_takesComment hl htakes⟩
  · exact (countP_place l _ source.lines).trans (length_remarks l v o)

/-- A comment above an inclusion and one above an indented prototype. -/
theorem annotate_scanned_prototype :
    ∃ o placed, outline .c "#include <a.h>\n// b\n\tint f();\n" = .ok o ∧
      placed.map (·.line) = Text.lines "#include <a.h>\n// b\n\tint f();\n" ∧
      Text.lines ("// Include the system header a.h\n#include <a.h>\n" ++
          "// b\n\t// Declare the f function signature\n\tint f();\n") =
        placed.flatMap (fun p =>
          (p.comment.map fun text => p.line.indentation ++ "// " ++ text).toList ++ [p.line]) ∧
      (∀ p ∈ placed, ∀ text ∈ p.comment, OneLine text ∧ p.line.isAllBlank = false ∧
        ∀ head ∈ (["//", "/*", "*"] : List Text), (trimStart p.line).startsWith head = false) ∧
      (∀ m n, m < n → Commented placed m → Commented placed n → m + 2 ≤ n) ∧
      placed.countP (·.comment.isSome) ≤ o.nodeCount := by
  obtain ⟨out, o, placed, hout, ho, hlines, h⟩ :=
    annotate_scanned (l := .c) (by decide) .structural "#include <a.h>\n// b\n\tint f();\n"
  have hwritten : annotate .c .structural "#include <a.h>\n// b\n\tint f();\n" =
      .ok ("// Include the system header a.h\n#include <a.h>\n" ++
        "// b\n\t// Declare the f function signature\n\tint f();\n") :=
    ok_of_toOption (by decide +kernel)
  obtain rfl := Except.ok.inj (hout.symm.trans hwritten)
  exact ⟨o, placed, ho, hlines, h⟩

end Marginalia
