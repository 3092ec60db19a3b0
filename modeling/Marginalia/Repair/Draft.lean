import Marginalia.Repair.Change
import Marginalia.Repair.Layout
import Marginalia.Text.Substitution

/-!
# Drafts of lines

Most of repair goes through a source line by line and mends the code of statements. What stands
behind the code of a line, blanks and a comment, is never touched, nor is any other line.
-/

namespace Marginalia.Repair

/-- Code that is being mended, and what has been found about it. -/
structure Draft where
  code : Text
  findings : List Finding
deriving Repr, DecidableEq

namespace Draft

/-- Code about which nothing has been found. -/
def ofCode (code : Text) : Draft := ⟨code, []⟩

/-- Changes the code and reports it, if the revision applies. -/
def mend (d : Draft) (fix : Fix) (revision : Text → Option Text) : Draft :=
  match revision d.code with
  | some code => ⟨code, d.findings ++ [.fixed fix]⟩
  | none => d

/-- Gives advice about the code, if there is reason for it. -/
def advise (d : Draft) (advice : Advice) (reason : Text → Bool) : Draft :=
  if reason d.code then { d with findings := d.findings ++ [.advised advice] } else d

end Draft

/-- A line among the others. -/
structure Site where
  /-- Counted from one. -/
  number : Nat
  info : LineInfo
  line : Text
  /-- The lines after it. -/
  later : List (LineInfo × Text)

namespace Site

/-- The code of the line. -/
def code (s : Site) : Text := (splitComment s.line).1

/-- What stands behind the code. -/
def tail (s : Site) : Text := (splitComment s.line).2

def isStatement (s : Site) : Bool := s.info.role == .statement

/-- Whether the line is a statement that is complete at its end. -/
def isWholeStatement (s : Site) : Bool := s.isStatement && s.info.endsStatement

/-- Lines in their places, the first one having the given number. -/
def numbered (n : Nat) : List (LineInfo × Text) → List Site
  | [] => []
  | (info, line) :: rest => ⟨n, info, line, rest⟩ :: numbered (n + 1) rest

/-- The lines of a source in their places. -/
def ofLines (lines : List Text) : List Site := numbered 1 ((layout lines).zip lines)

end Site

/-- A line as it was left, and what was found about it. -/
structure Revised where
  number : Nat
  line : Text
  findings : List Finding
deriving Repr, DecidableEq

namespace Revised

/-- The line as it was. -/
def same (s : Site) : Revised := ⟨s.number, s.line, []⟩

/-- The line with its code replaced by a draft. -/
def ofDraft (s : Site) (d : Draft) : Revised := ⟨s.number, d.code ++ s.tail, d.findings⟩

/-- The text of the lines, and the report about them. -/
def outcome (lines : List Revised) : Outcome :=
  ⟨Text.unlines (lines.map (·.line)),
    lines.flatMap fun r => r.findings.map fun f => .atLine f r.number⟩

end Revised

/-- Visits sites in order with a state that is carried along. -/
def visit {σ α : Type} (step : σ → Site → σ × α) (s : σ) : List Site → List α
  | [] => []
  | site :: rest => (step s site).2 :: visit step (step s site).1 rest

/-- Revises some of the lines of a text, each on its own. -/
def reviseSites (applies : Site → Bool) (draft : Text → Draft) (text : Text) : Outcome :=
  Revised.outcome ((Site.ofLines text.lines).map fun s =>
    if applies s then .ofDraft s (draft s.code) else .same s)

end Marginalia.Repair
