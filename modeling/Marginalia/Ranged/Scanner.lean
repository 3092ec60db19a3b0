import Marginalia.Braced.Scanner
import Marginalia.Ranged.Text

/-!
# Scanning lines by ranges

What the scanner of braced sources cuts out of a line, written with the byte ranges. The matches of
patterns are told by the lengths of the texts in front of them and behind them.
-/

namespace Marginalia.Ranged

open Text Braced

/-- The byte offset of the first place where a mark stands. -/
def findMark? (mark t : Text) : Option Nat := (cut? mark t).map fun (head, _) => byteLength head

/-- The code of a line, and whether a block comment is left open. -/
def codeOf? (stripped : Text) : Option (Text × Bool) := do
  let code ← codePart? "//" stripped
  match findMark? "/*" code with
  | some start =>
    let behind ← from? code (start + 2)
    let front ← slice? code 0 start
    return (trimEnd front, !behind.hasPart "*/")
  | none => return (code, false)

/-- Reads the code of a line. -/
def feedCode? (l : Language) (s : Scanner) (code : Text) : Option (Scanner × Option NodeKind) := do
  let body := code.dropWhile isBeforeBody
  let leading ← slice? code 0 (byteLength code - byteLength body)
  let s := (leading.filter (· == '}')).foldl (fun s _ => s.closeBlock) s
  let classified := classify l s body (code.head? == some '}')
  let s := match classified with
    | some (.classDef name _ _, _) => { s with className := some name }
    | _ => s
  return (s.trackBraces (classified.map (·.2)) body, classified.map (·.1))

/-- Reads one line. -/
def feed? (l : Language) (s : Scanner) (raw : Text) : Option (Scanner × Option NodeKind) :=
  let stripped := trim raw
  if s.inComment then
    some (if stripped.hasPart "*/" then { s with inComment := false } else s, none)
  else if stripped.isEmpty || stripped.startsWith "//" then some (s, none)
  else if stripped.startsWith "/*" then do
    let behind ← from? stripped 2
    return (if behind.hasPart "*/" then s else { s with inComment := true }, none)
  else do
    let (code, opensComment) ← codeOf? stripped
    feedCode? l (if opensComment then { s with inComment := true } else s) code

/-- The parameters in the first parentheses. -/
def paramsOf? (code : Text) : Option (List Text) := do
  match ← firstGroup? code with
  | some inside =>
    let pieces ← splitTopLevel? ',' inside
    return pieces.filter fun p => !p.isEmpty && p != "void"
  | none => return []

/-- Whether the parameter list that starts at an offset is followed by a body. -/
def bodyFollows? (code : Text) (start : Nat) : Option Bool := do
  match ← partner? code start with
  | none => return false
  | some close =>
    let behind ← from? code (close + 1)
    let rest := trimStart behind
    return rest.startsWith "\x7b"
      || (rest.startsWith ":" && rest.hasPart "\x7b" && !rest.hasPart "=>")

/-- Whether code starts like a method that has a body. Nothing inside if it does not start like a
method at all. -/
def methodBody? (code : Text) : Option (Option Bool) :=
  match scriptMethod.matchStart? code with
  | none => some none
  | some m => (bodyFollows? code (byteLength code - byteLength m.rest - 1)).map some

/-- A call of a function anywhere in the line, with what stands in its parentheses. -/
def callArgument? (function code : Text) : Option (Option (Option Text)) :=
  match (callForm function).find? code with
  | none => some none
  | some (front, _) => do
    let call ← from? code (byteLength front)
    let group ← firstGroup? call
    return some (group.map trim)

/-- What the header of a for loop says. -/
def forHeader? (header : Text) : Option NodeKind :=
  let counting := NodeKind.countingLoop (trim header)
  if header.hasPart ";" then some counting
  else
    match ([" of ", " in "] : List Text).findSome? fun sep => cut? sep header with
    | some (target, iterable) =>
      some (.forLoop (withoutDeclaration target) (trim iterable) false)
    | none =>
      match findTopLevel? ':' header with
      | some colon => do
        let tail ← from? header colon
        if tail.startsWith "::" then return counting
        let target ← slice? header 0 colon
        let iterable ← from? header (colon + 1)
        return .forLoop (lastWord (withoutDeclaration target)) (trim iterable) false
      | none => some counting

end Marginalia.Ranged
