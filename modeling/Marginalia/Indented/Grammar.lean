import Marginalia.Indented.Missing
import Marginalia.Indented.Outline

/-!
# A grammar of indented sources

The grammar with which sources are parsed. A source in which something is wrong has a tree with that
alone.
-/

namespace Marginalia.Indented

/-- What is wrong with a source where reading it stopped. -/
def problemAt (source : Text) (stop : Stop) : ParseTree :=
  match missingToken? source stop with
  | some m => .mk (.other m.called) true none ⟨m.offset, m.offset⟩ []
  | none =>
    let offset := (source.above (stop.line - 1)).length
    .mk .error false none ⟨offset, offset⟩ []

/-- The parse tree of a source. -/
def grammar (source : Text) : ParseTree :=
  let children :=
    match statementsOf source with
    | .ok statements => statements
    | .error stop => [problemAt source stop]
  .mk (.other "module") false none ⟨0, source.length⟩ children

end Marginalia.Indented
