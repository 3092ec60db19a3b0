import Marginalia.Braced.Scanner
import Marginalia.Indented.Grammar

/-!
# Outlines of sources

The outline of a source in any of the languages. Only sources that are parsed can be faulty.
-/

namespace Marginalia

/-- The outline of a source, where `grammar` parses the sources that have one. -/
def outlineBy (grammar : Text → Indented.ParseTree) (l : Language) (source : Text) :
    Except Indented.SyntaxFault Outline :=
  if l.profile.hasGrammar then (Indented.parseBy grammar source).map .tree
  else .ok (.flat (Braced.scan l source))

/-- The outline of a source. -/
def outline (l : Language) (source : Text) : Except Indented.SyntaxFault Outline :=
  outlineBy Indented.grammar l source

end Marginalia
