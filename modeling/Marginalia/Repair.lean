import Marginalia.Repair.Headers
import Marginalia.Repair.Indentation
import Marginalia.Repair.Logic
import Marginalia.Repair.Pitfalls
import Marginalia.Repair.Printing
import Marginalia.Repair.References
import Marginalia.Repair.Spelling

/-!
# Repair

A source that may not even be one is repaired in passes. Spelling and references come first;
headers, print statements and indentation are gone through until nothing changes, but at most three
times; pitfalls and logic come last.
-/

namespace Marginalia.Repair

/-- The passes of repair. -/
inductive Pass where
  | spelling
  | references
  | headers
  | printing
  | indentation
  | pitfalls
  | logic
deriving Repr, DecidableEq

namespace Pass

def name : Pass → Text
  | spelling => "lexical"
  | references => "variables"
  | headers => "missing_colons"
  | printing => "legacy_print"
  | indentation => "reindent"
  | pitfalls => "runtime"
  | logic => "logic"

def all : List Pass := [spelling, references, headers, printing, indentation, pitfalls, logic]

/-- The pass of a name. -/
def ofName? (name : Text) : Option Pass := all.find? (·.name == name)

/-- What a pass makes of a text. Nothing if it does not come to an end. -/
def run? : Pass → Text → Option Outcome
  | spelling, text => some (Repair.spelling text)
  | references, text => some (Repair.references text)
  | headers, text => some (Repair.headers text)
  | printing, text => some (Repair.printing text)
  | indentation, text => some (Repair.reindent text)
  | pitfalls, text => Repair.pitfalls? text
  | logic, text => some (Repair.logic text)

end Pass

/-- What one step makes of an outcome and another step of the text it left. -/
def Outcome.andThen (o : Outcome) (next : Text → Outcome) : Outcome :=
  let o' := next o.text
  ⟨o'.text, o.changes ++ o'.changes⟩

/-- Headers, print statements and indentation, once each. -/
def shape (text : Text) : Outcome :=
  (headers text).andThen printing |>.andThen reindent

/-- How often the shape of a text is gone through. -/
def shapeRounds : Nat := 3

/-- Goes through the shape of a text until nothing changes, at most the given number of times. -/
def reshape : Nat → Text → Outcome
  | 0, text => ⟨text, []⟩
  | rounds + 1, text =>
    let o := shape text
    if o.text = text then o else o.andThen (reshape rounds)

/-- A text with everything mended that can be. Nothing if that does not come to an end. -/
def repair? (text : Text) : Option Outcome :=
  let shaped := (spelling text).andThen references |>.andThen (reshape shapeRounds)
  (pitfalls? shaped.text).map fun o =>
    (⟨o.text, shaped.changes ++ o.changes⟩ : Outcome).andThen logic

/-- The report on changes. -/
def report (changes : List Change) : List Text :=
  if changes.isEmpty then ["No changes needed"] else changes.map Change.message

end Marginalia.Repair
