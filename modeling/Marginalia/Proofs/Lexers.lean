import Mathlib.Data.List.Induction
import Marginalia.Proofs.AnnotationLines
import Marginalia.Proofs.Margins

/-!
# Lexers and comments

A lexer reads the tokens of a text character by character. Of the lexer of a language no more is known
than how it reads the start of a line and a comment, one character at a time. That is enough for whole
comments and whole commented texts: where no literal and no joined line goes on from above, a comment
that ends with its line leaves the lexer where it was, and the tokens of the text as they are.
-/

namespace Marginalia

open Commentary

namespace Text

/-- Whether the last character of a line, blanks aside, is a backslash. -/
def endsInBackslash (t : Text) : Bool := (trimEnd t).getLast? == some '\\'

lemma trimEnd_append_singleton (t : Text) (c : Char) :
    trimEnd (t ++ [c]) = if isBlank c then trimEnd t else t ++ [c] := by
  cases hblank : isBlank c with
  | true => exact trimEnd_margin (by rw [isAllBlank, List.all_cons, hblank]; rfl) t
  | false =>
    have hlast : dropEnd isBlank [c] = [c] := by rw [dropEnd, dropEnd, hblank]; rfl
    rw [trimEnd, dropEnd_append_of_ne_nil (by rw [hlast]; exact List.cons_ne_nil _ _), hlast]
    rfl

lemma endsInBackslash_append_singleton (t : Text) (c : Char) :
    endsInBackslash (t ++ [c]) = (c == '\\' || endsInBackslash t && isBlank c) := by
  rw [endsInBackslash, trimEnd_append_singleton]
  cases hblank : isBlank c with
  | true =>
    have hne : (c == '\\') = false := beq_eq_false_iff_ne.mpr (ne_of_isBlank hblank (by decide))
    rw [if_pos rfl, hne, Bool.false_or, Bool.and_true]
    rfl
  | false =>
    rw [if_neg Bool.false_ne_true, List.getLast?_concat, Bool.and_false, Bool.or_false]
    rfl

lemma unlines_cons (line : Text) {rest : List Text} (h : rest ≠ []) :
    unlines (line :: rest) = (line ++ ['\n']) ++ unlines rest := by
  obtain ⟨next, more, rfl⟩ := List.exists_cons_of_ne_nil h
  rfl

end Text

/-- A way to read the tokens of a text, one character at a time. -/
structure Lexer where
  State : Type
  Token : Type
  start : State
  step : State → Char → State × List Token
  /-- The tokens that the end of the text completes. -/
  finish : State → List Token

namespace Lexer

section Run

variable (L : Lexer)

/-- The state after a text, and the tokens in it. -/
def run (s : L.State) : Text → L.State × List L.Token
  | [] => (s, [])
  | c :: rest =>
    let read := L.step s c
    let more := run read.1 rest
    (more.1, read.2 ++ more.2)

def after (t : Text) : L.State := (L.run L.start t).1

def tokens (t : Text) : List L.Token := (L.run L.start t).2 ++ L.finish (L.after t)

lemma run_append (s : L.State) (t u : Text) :
    L.run s (t ++ u) =
      ((L.run (L.run s t).1 u).1, (L.run s t).2 ++ (L.run (L.run s t).1 u).2) := by
  induction t generalizing s with
  | nil => rfl
  | cons c rest ih => rw [List.cons_append, run, ih, run, List.append_assoc]

/-- What gives no tokens can be read first. -/
lemma run_append_of_silent {s s' : L.State} {t : Text} (h : L.run s t = (s', [])) (u : Text) :
    L.run s (t ++ u) = L.run s' u := by
  rw [run_append, h, List.nil_append]

lemma run_append_congr {s : L.State} {t u u' : Text}
    (h : L.run (L.run s t).1 u = L.run (L.run s t).1 u') : L.run s (t ++ u) = L.run s (t ++ u') := by
  rw [run_append, run_append, h]

lemma after_concat (t : Text) (c : Char) : L.after (t ++ [c]) = (L.step (L.after t) c).1 := by
  rw [after, run_append]
  rfl

end Run

/-! ## Laws -/

/-- What is known of the lexer of a language. A lexer that passed over blanks at most on a line is at
the margin of that line, and the mark of comments takes it from there into a comment on that line. -/
structure Reads (L : Lexer) (l : Language) where
  /-- Whether a literal or comment goes on that can hold the end of a line. -/
  isInside : L.State → Bool
  /-- The blanks that can stand between tokens. -/
  isGap : Char → Bool
  endsLine : Char → Bool
  /-- The second state is at the margin of a line that began in the first. -/
  AtMargin : L.State → L.State → Prop
  /-- The second state is in a comment on a line that began in the first. The last character of the
  comment, blanks aside, is a backslash or not. -/
  InComment : L.State → Bool → L.State → Prop
  line_start (t : Text) (n : Nat) (hinside : isInside (L.after (t.above n)) = false)
    (habove : ∀ line ∈ (t.lines.take n).getLast?, line.endsInBackslash = false) :
    AtMargin (L.after (t.above n)) (L.after (t.above n))
  blank {s s' : L.State} {c : Char} (hs : AtMargin s s') (hc : isGap c = true) :
    ∃ s'', L.step s' c = (s'', []) ∧ AtMargin s s''
  mark {s s' : L.State} (hs : AtMargin s s') :
    ∃ s'', L.run s' l.commentMarker = (s'', []) ∧ InComment s false s''
  comment {s s' : L.State} {escaped : Bool} {c : Char} (hs : InComment s escaped s')
    (hc : endsLine c = false) :
    ∃ s'', L.step s' c = (s'', []) ∧ InComment s (c == '\\' || escaped && isBlank c) s''
  space : endsLine ' ' = false
  /-- The end of the line ends a comment, and the next line begins where the line of the comment
  began. Only in one language does a backslash carry a comment over the end of its line. -/
  line_end {s s' : L.State} {escaped : Bool} (hs : InComment s escaped s')
    (hescaped : l = .c → escaped = false) : L.step s' '\n' = (s, [])

namespace Reads

variable {L : Lexer} {l : Language} (R : L.Reads l)

/-- A comment that ends with its line can stand above a line of a source, as far as that and the line
above it go. -/
def Admits (source : Text) (n : Nat) (comment : Text) : Prop :=
  (∀ line ∈ (source.lines.take n).getLast?, line.endsInBackslash = false) ∧
    (∀ line ∈ source.lines[n]?, line.indentation.all R.isGap = true) ∧
    comment.any R.endsLine = false ∧ (l = .c → comment.endsInBackslash = false)

/-- A comment can stand above a line of a source, where no literal or comment goes on from above. -/
def MayStand (source : Text) (n : Nat) (comment : Text) : Prop :=
  R.isInside (L.after (source.above n)) = false ∧ R.Admits source n comment

instance (source : Text) (n : Nat) (comment : Text) : Decidable (R.Admits source n comment) :=
  inferInstanceAs (Decidable (_ ∧ _ ∧ _ ∧ _))

instance (source : Text) (n : Nat) (comment : Text) : Decidable (R.MayStand source n comment) :=
  inferInstanceAs (Decidable (_ ∧ _))

/-! ## Commented lines -/

variable {s s' : L.State}

lemma run_blanks (hs : R.AtMargin s s') {t : Text} (ht : t.all R.isGap = true) :
    ∃ s'', L.run s' t = (s'', []) ∧ R.AtMargin s s'' := by
  induction t generalizing s' with
  | nil => exact ⟨s', rfl, hs⟩
  | cons c rest ih =>
    rw [List.all_cons, Bool.and_eq_true] at ht
    obtain ⟨next, hstep, hnext⟩ := R.blank hs ht.1
    obtain ⟨last, hrun, hlast⟩ := ih hnext ht.2
    exact ⟨last, by rw [run, hstep, hrun, List.append_nil], hlast⟩

/-- All of a comment is read without tokens, up to the end of its line. -/
lemma run_comment (hs : R.InComment s false s') {t : Text} (ht : t.any R.endsLine = false) :
    ∃ s'', L.run s' t = (s'', []) ∧ R.InComment s t.endsInBackslash s'' := by
  induction t using List.reverseRecOn with
  | nil => exact ⟨s', rfl, hs⟩
  | append_singleton t c ih =>
    rw [List.any_append, Bool.or_eq_false_iff] at ht
    obtain ⟨next, hrun, hnext⟩ := ih ht.1
    obtain ⟨last, hstep, hlast⟩ := R.comment hnext (by simpa using ht.2)
    refine ⟨last, ?_, ?_⟩
    · rw [L.run_append_of_silent hrun, run, hstep]
      rfl
    · rw [Text.endsInBackslash_append_singleton]
      exact hlast

/-- A whole line of comment is read without tokens, up to the start of the line below it. -/
lemma run_commentLine {source comment line : Text} {n : Nat} (hline : source.lines[n]? = some line)
    (h : R.MayStand source n comment) :
    L.run (L.after (source.above n)) (Placed.commentLine l line comment ++ ['\n']) =
      (L.after (source.above n), []) := by
  obtain ⟨hinside, habove, hgap, hends, hescaped⟩ := h
  obtain ⟨s₁, hblanks, hmargin⟩ :=
    R.run_blanks (R.line_start source n hinside habove) (hgap line hline)
  obtain ⟨s₂, hmark, hopen⟩ := R.mark hmargin
  obtain ⟨s₃, hspace, hspaced⟩ := R.comment hopen R.space
  obtain ⟨s₄, htext, hclosed⟩ := R.run_comment hspaced hends
  have hlast := R.line_end hclosed hescaped
  have hpieces : Placed.commentLine l line comment ++ ['\n'] =
      line.indentation ++ (l.commentMarker ++ (' ' :: (comment ++ ['\n']))) := by
    simp [Placed.commentLine]
  rw [hpieces, L.run_append_of_silent hblanks, L.run_append_of_silent hmark, run, hspace,
    L.run_append_of_silent htext, run, hlast]
  rfl

end Reads

/-- What holds of each comment that was placed, its line and its text. -/
def EachComment (placed : List Placed) (holds : Nat → Text → Prop) : Prop :=
  ∀ x ∈ placed.zipIdx, ∀ c ∈ x.1.comment, holds x.2 c

instance (placed : List Placed) (holds : Nat → Text → Prop) [∀ n c, Decidable (holds n c)] :
    Decidable (EachComment placed holds) :=
  inferInstanceAs (Decidable (∀ x ∈ placed.zipIdx, ∀ c ∈ x.1.comment, holds x.2 c))

lemma eachComment_iff {placed : List Placed} {holds : Nat → Text → Prop} :
    EachComment placed holds ↔
      ∀ n p c, placed[n]? = some p → p.comment = some c → holds n c := by
  constructor
  · intro h n p c hp hc
    exact h (p, n) (List.mem_zipIdx_iff_getElem?.mpr hp) c hc
  · rintro h ⟨p, n⟩ hx c hc
    exact h n p c (List.mem_zipIdx_iff_getElem?.mp hx) hc

/-- Lines of comments that are read without tokens, each from where the lines above it lead, can be
left out. -/
lemma run_written (L : Lexer) (l : Language) (placed : List Placed) (s : L.State)
    (h : ∀ n p c, placed[n]? = some p → p.comment = some c →
      let s' := (L.run s (((placed.map (·.line)).take n).flatMap (· ++ ['\n']))).1
      L.run s' (Placed.commentLine l p.line c ++ ['\n']) = (s', [])) :
    L.run s (written l placed) = L.run s (Text.unlines (placed.map (·.line))) := by
  induction placed generalizing s with
  | nil => rfl
  | cons p rest ih =>
    have hhead : L.run s (written l (p :: rest)) =
        L.run s (Text.unlines (p.line :: rest.flatMap (Placed.lines l))) := by
      cases hc : p.comment with
      | none => rw [written, List.flatMap_cons, Placed.lines, hc]; rfl
      | some c =>
        have hcomment : L.run s (Placed.commentLine l p.line c ++ ['\n']) = (s, []) := h 0 p c rfl hc
        have hlines : written l (p :: rest) = (Placed.commentLine l p.line c ++ ['\n']) ++
            Text.unlines (p.line :: rest.flatMap (Placed.lines l)) := by
          rw [written, List.flatMap_cons, Placed.lines, hc]
          exact Text.unlines_cons _ (List.cons_ne_nil _ _)
        rw [hlines, L.run_append_of_silent hcomment]
    rw [hhead, List.map_cons]
    by_cases hrest : rest = []
    · subst hrest
      rfl
    · have hmore := ih (L.run s (p.line ++ ['\n'])).1 fun n q c hq hc => by
        have hbelow := h (n + 1) q c hq hc
        rw [List.map_cons, List.take_succ_cons, List.flatMap_cons, run_append] at hbelow
        exact hbelow
      have hne : rest.flatMap (Placed.lines l) ≠ [] := by
        obtain ⟨q, more, rfl⟩ := List.exists_cons_of_ne_nil hrest
        rw [List.flatMap_cons]
        exact List.append_ne_nil_of_left_ne_nil (q.lines_ne_nil l) _
      rw [Text.unlines_cons _ hne, Text.unlines_cons _ (by simpa using hrest)]
      exact L.run_append_congr hmore

/-- A source with comments that may stand where they do has the tokens that it has without them. -/
theorem Reads.tokens_written {L : Lexer} {l : Language} (R : L.Reads l) {source : Text}
    {placed : List Placed} (hlines : placed.map (·.line) = source.lines)
    (h : EachComment placed (R.MayStand source)) :
    L.tokens (written l placed) = L.tokens source := by
  have hrun : L.run L.start (written l placed) = L.run L.start source := by
    rw [L.run_written l placed L.start ?_, hlines, Text.unlines_lines]
    intro n p c hp hc
    have hline : source.lines[n]? = some p.line := by
      rw [← hlines, List.getElem?_map, hp]
      rfl
    rw [hlines]
    exact R.run_commentLine hline (eachComment_iff.mp h n p c hp hc)
  rw [tokens, tokens, after, after, hrun]

end Lexer
end Marginalia
