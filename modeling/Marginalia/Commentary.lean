import Marginalia.Commentary.Annotations
import Marginalia.Commentary.Placement
import Marginalia.Source

/-!
# Commentary

A source is commented by placing the comments on its outline above its lines. Only a source that
cannot be parsed fails.
-/

namespace Marginalia

/-- A source with comments above its lines, where `grammar` parses the sources that have one. -/
def annotateBy (grammar : Text → Indented.ParseTree) (l : Language) (v : Commentary.Verbosity)
    (source : Text) : Except Indented.SyntaxFault Text :=
  (outlineBy grammar l source).map fun o =>
    let map := Commentary.buildAnnotations l v o
    Commentary.written l (Commentary.place l map.get? source.lines)

/-- A source with comments above its lines. -/
def annotate (l : Language) (v : Commentary.Verbosity) (source : Text) :
    Except Indented.SyntaxFault Text :=
  annotateBy Indented.grammar l v source

end Marginalia
