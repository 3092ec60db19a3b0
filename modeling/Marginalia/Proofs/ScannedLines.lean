import Marginalia.Proofs.AnnotationLines

/-!
# Lines that are classified

The scanner of braced sources gives each line at most one node, for what the line is where the
scanner stands. Inside block comments it gives none.
-/

namespace Marginalia.Braced.Scanner

variable {l : Language} {s : Scanner}

/-- The scanner after some lines. -/
def after (l : Language) (s : Scanner) (lines : List Text) : Scanner :=
  lines.foldl (fun s raw => (s.feed l raw).1) s

lemma steps_getElem? (l : Language) (s : Scanner) (line n : Nat) (lines : List Text) :
    (s.steps l line lines)[n]? = lines[n]?.map fun raw =>
      ((s.after l (lines.take n)).feed l raw).2.map (Node.leaf · (line + n)) := by
  induction lines generalizing s line n with
  | nil => rfl
  | cons raw rest ih =>
    cases n with
    | zero => rfl
    | succ n =>
      rw [steps, List.getElem?_cons_succ, List.getElem?_cons_succ, ih, Nat.add_right_comm]
      rfl

/-- A line that is classified is outside block comments. -/
lemma not_inComment_of_feed {raw : Text} {kind : NodeKind} (h : (s.feed l raw).2 = some kind) :
    s.inComment = false := by
  cases hs : s.inComment with
  | false => rfl
  | true =>
    rw [feed, hs] at h
    cases h

/-- What a scan finds is what some line is classified as. -/
lemma exists_line_of_mem_scan {source : Text} {node : Node} (h : node ∈ scan l source) :
    ∃ n raw kind, source.lines[n]? = some raw ∧
      ((start.after l (source.lines.take n)).feed l raw).2 = some kind ∧
        node = .leaf kind (n + 1) := by
  obtain ⟨node?, hmem, rfl⟩ := List.mem_filterMap.mp h
  obtain ⟨n, hn⟩ := List.mem_iff_getElem?.mp hmem
  rw [steps_getElem?] at hn
  obtain ⟨raw, hraw, hfeed⟩ := Option.map_eq_some_iff.mp hn
  obtain ⟨kind, hkind, rfl⟩ := Option.map_eq_some_iff.mp hfeed
  exact ⟨n, raw, kind, hraw, hkind, by rw [Nat.add_comm]⟩

end Marginalia.Braced.Scanner
