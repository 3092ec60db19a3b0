import Marginalia.Braced.Forms
import Marginalia.Language
import Marginalia.Outline
import Marginalia.Text.Code

/-!
# Scanning braced sources

A source whose blocks stand in braces is read line by line. The scanner remembers which blocks are
open and what opened them, whether a brace is expected on a later line, whether it is inside a
block comment, and the class that is being defined. A line that fits no form has no node.
-/

namespace Marginalia.Braced

open Pattern Text

/-- What a brace opened. -/
inductive BlockKind where
  /-- A branch, loop or switch. -/
  | control
  | classBody
  | typeBody
  | functionBody
  | other
deriving Repr, DecidableEq

/-- What the scanner remembers between lines. -/
structure Scanner where
  /-- The open blocks, innermost first. -/
  blocks : List BlockKind
  /-- The block of a header whose brace is still to come. -/
  pending : Option BlockKind
  inComment : Bool
  className : Option Text
deriving Repr, DecidableEq

/-- What a line is, and the kind of block it opens. -/
abbrev Classified := NodeKind × BlockKind

namespace Scanner

/-- At the start of a source. -/
def start : Scanner := ⟨[], none, false, none⟩

/-- Whether the innermost block is the body of a class. -/
def inClass (s : Scanner) : Bool :=
  s.className.isSome && s.blocks.head? == some .classBody

/-- Whether a branch, loop or switch is open. -/
def inControl (s : Scanner) : Bool := s.blocks.contains .control

/-- Closes the innermost block, if there is one. Outside all classes there is no class name. -/
def closeBlock (s : Scanner) : Scanner :=
  let blocks := s.blocks.drop 1
  { s with
    blocks := blocks
    className := if blocks.contains .classBody then s.className else none }

/-- Opens a block. -/
def openBlock (s : Scanner) (kind : BlockKind) : Scanner := { s with blocks := kind :: s.blocks }

/-- Goes through the braces among code characters. The first one that opens, if none did before,
opens a block of the given kind; the others open blocks of no special kind. Says whether a brace
opened. -/
def passBraces (s : Scanner) (first : Option BlockKind) (opened : Bool) :
    List CodeChar → Scanner × Bool
  | [] => (s, opened)
  | c :: rest =>
    if c.char == '{' then passBraces (s.openBlock (first.getD .other)) none true rest
    else if c.char == '}' then passBraces s.closeBlock first opened rest
    else passBraces s first opened rest

/-- Goes through the braces of a line that was classified to open `opens`. A header without brace
leaves its kind pending, unless a semicolon ends it. -/
def trackBraces (s : Scanner) (opens : Option BlockKind) (body : Text) : Scanner :=
  let first := opens.or s.pending
  let (s, opened) := passBraces { s with pending := none } first false (codeChars body)
  if !opened && !body.endsWith ";" && opens.isSome then { s with pending := opens } else s

end Scanner

/-! ## Parts of lines -/

/-- Lines that are nothing but closed and opened brackets. -/
def isTrivial (body : Text) : Bool :=
  (["", "\x7b", "\x7d", "\x7d;", ");", "];", "\x7d)", "\x7d);"] : List Text).contains body

/-- Words before a parenthesis that are no function names. -/
def notCallable : List Text :=
  ["if", "for", "while", "switch", "catch", "return", "sizeof", "function", "else", "new", "delete",
   "case", "throw", "typeof", "await"]

/-- The parameters in the first parentheses. -/
def paramsOf (code : Text) : List Text :=
  match firstGroup? code with
  | some inside => (splitTopLevel ',' inside).filter fun p => !p.isEmpty && p != "void"
  | none => []

/-- The trimmed content of the first parentheses. -/
def groupOf (code : Text) : Text := trim ((firstGroup? code).getD [])

/-- Whether the parameter list that a text starts with is followed by a body, possibly after a
return type. -/
def bodyFollows (fromParen : Text) : Bool :=
  match bracketed? fromParen with
  | none => false
  | some (_, after) =>
    let rest := trimStart after
    rest.startsWith "\x7b"
      || (rest.startsWith ":" && rest.hasPart "\x7b" && !rest.hasPart "=>")

/-- The text without the semicolons it ends with, and without blank margins. -/
def withoutSemicolons (t : Text) : Text := trim (dropEnd (· == ';') t)

/-- The name of a loop variable without the words that declare it. -/
def withoutDeclaration (t : Text) : Text :=
  let t := trim t
  let heads : List Text := ["const ", "let ", "var ", "auto& ", "auto ", "const auto& "]
  trim ((heads.findSome? fun head => after? head t).getD t)

/-- What follows the last space. -/
def lastWord (t : Text) : Text := (t.reverse.takeWhile (· != ' ')).reverse

/-- What the header of a for loop says. -/
def forHeader (header : Text) : NodeKind :=
  let counting := NodeKind.countingLoop (trim header)
  if header.hasPart ";" then counting
  else
    match ([" of ", " in "] : List Text).findSome? fun sep => cut? sep header with
    | some (target, iterable) => .forLoop (withoutDeclaration target) (trim iterable) false
    | none =>
      match splitTopLevel? ':' header with
      | some (target, tail) =>
        if tail.startsWith "::" then counting
        else .forLoop (lastWord (withoutDeclaration target)) (trim (tail.drop 1)) false
      | none => counting

/-- A qualified name cut at its last double colon. -/
def cutQualifier (name : Text) : Option Text × Text :=
  match cut? "::" name.reverse with
  | some (last, qualifier) => (some qualifier.reverse, last.reverse)
  | none => (none, name)

/-! ## Classification -/

/-- The first of several readings that applies. -/
def firstOf (readings : List (Unit → Option Classified)) : Option Classified :=
  readings.findSome? fun reading => reading ()

/-- Statements of all braced languages. `afterClose` says that the line starts with a closing
brace. -/
def classifyControl (s : Scanner) (code : Text) (afterClose : Bool) : Option Classified :=
  if elseIfForm.startsText code then some (.conditional (groupOf code) true, .control)
  else if ifForm.startsText code then some (.conditional (groupOf code) s.inControl, .control)
  else if elseForm.startsText code then some (.otherwise, .control)
  else if forForm.startsText code then some (forHeader (groupOf code), .control)
  else if whileForm.startsText code then
    -- the end of a do loop
    if afterClose && code.endsWith ";" then none
    else some (.whileLoop (groupOf code), .control)
  else if doForm.startsText code && (code.endsWith "\x7b" || code == "do") then
    some (.doWhile, .control)
  else if switchForm.startsText code then some (.switch (groupOf code) s.inControl, .control)
  else
    match caseForm.matchStart? code with
    | some m => some (.case (some (m.group 1)), .other)
    | none =>
      if defaultForm.startsText code then some (.case none, .other)
      else if tryForm.startsText code then some (.tryBlock [] false false false, .other)
      else if catchForm.startsText code then
        some (.catchClause ((firstGroup? code).map trim), .other)
      else if finallyForm.startsText code then some (.finallyClause, .other)
      else
        match returnForm.matchStart? code with
        | some m =>
          let value := withoutSemicolons (m.group 1)
          some (.returns (if value.isEmpty then none else some (value.truncate 50)), .other)
        | none =>
          (throwForm.matchStart? code).map fun m =>
            (.raises (some (withoutSemicolons (m.group 1))), .other)

/-- A callable of a script. -/
def scriptCallable (code name : Text) (isAsync : Bool) (flavor : Flavor) (owner : Option Text) :
    Classified :=
  (.function ⟨name, paramsOf code, [], isAsync, flavor, owner⟩, .functionBody)

/-- The definitions of a script. -/
def scriptDefinition (s : Scanner) (code : Text) : Option Classified :=
  firstOf [
    fun _ => (scriptClass.matchStart? code).map fun m =>
      let mixins := (m.group? 3).map (splitTopLevel ',')
      (.classDef (m.group 1) ((m.group? 2).toList ++ mixins.getD []) [], .classBody),
    fun _ => (scriptInterface.matchStart? code).map fun m =>
      (.interface (m.group 1) ((m.group? 2).map trim), .typeBody),
    fun _ => (scriptType.matchStart? code).map fun m =>
      (.typeAlias (m.group 1) ((withoutSemicolons (m.group 2)).truncate 50), .typeBody),
    fun _ => (scriptEnum.matchStart? code).map fun m => (.enumeration (m.group 1), .typeBody),
    fun _ => (scriptFunction.matchStart? code).map fun m =>
      scriptCallable code (m.group 2) (m.group? 1).isSome .function none,
    fun _ => (scriptArrow.matchStart? code).map fun m =>
      scriptCallable code (m.group 1) (m.group? 2).isSome .arrow none,
    fun _ =>
      if s.inClass && scriptConstructor.startsText code then
        some (scriptCallable code "constructor" false .constructor s.className)
      else none,
    fun _ =>
      if s.inClass then
        (scriptMethod.matchStart? code).bind fun m =>
          if bodyFollows ('(' :: m.rest) && !notCallable.contains (m.group 2) then
            some (scriptCallable code (m.group 2) (m.group? 1).isSome .method s.className)
          else none
      else none,
    fun _ => (scriptRequire.matchStart? code).map fun m =>
      (.imports (m.group 2) [m.group 1] true s.blocks.isEmpty, .other)]

/-- The imports and exports of a script. -/
def scriptModule (s : Scanner) (code : Text) : Option Classified :=
  firstOf [
    fun _ => (scriptImportFrom.matchStart? code).map fun m =>
      (.imports (m.group 2) [m.group 1] true s.blocks.isEmpty, .other),
    fun _ => (scriptImport.matchStart? code).map fun m =>
      (.imports (m.group 1) [] false s.blocks.isEmpty, .other),
    fun _ => (scriptExportDefault.matchStart? code).map fun m =>
      (.exports (withoutSemicolons (m.group 1)) true, .other),
    fun _ => (scriptExportList.matchStart? code).map fun m =>
      (.exports (trim (m.group 1)) false, .other)]

def classifyScript (s : Scanner) (code : Text) (afterClose : Bool) : Option Classified :=
  firstOf [
    fun _ => scriptDefinition s code,
    fun _ => classifyControl s code afterClose,
    fun _ => scriptModule s code]

/-- Directives and definitions of types. -/
def compiledDefinition (code : Text) : Option Classified :=
  firstOf [
    fun _ => (includeForm.matchStart? code).map fun m =>
      (.includes (m.group 2) (m.group 1 == ['<']), .other),
    fun _ => (defineForm.matchStart? code).map fun m =>
      let value := trim (m.group 4)
      (.macroDef (m.group 1) (m.group? 3)
        (if value.isEmpty then none else some (value.truncate 40)), .other),
    fun _ => (directiveForm.matchStart? code).map fun m =>
      (.preprocessor (m.group 1) (trim (m.group 2)), .other),
    fun _ => (namespaceForm.matchStart? code).map fun m =>
      (.namespaceDef (m.group 1) false, .other),
    fun _ => (usingForm.matchStart? code).map fun m => (.namespaceDef (m.group 1) true, .other),
    fun _ =>
      if code.endsWith ";" then none
      else (classForm.matchStart? code).map fun m =>
        (.classDef (m.group 1) (m.group? 2).toList [], .classBody),
    fun _ => (typedefRecordForm.matchStart? code).map fun m =>
      (.record ("typedef " ++ m.group 1) (m.group 2), .typeBody),
    fun _ => (typedefForm.matchStart? code).map fun m =>
      (.typeAlias (m.group 2) (m.group 1), .other),
    fun _ => (recordForm.matchStart? code).map fun m =>
      let isEnumeration := m.group 1 == ("enum" : Text)
      (if isEnumeration then .enumeration (m.group 2) else .record (m.group 1) (m.group 2),
        .typeBody),
    fun _ => (templateForm.matchStart? code).map fun m => (.template (trim (m.group 1)), .other)]

/-- A function with its return type. -/
def compiledFunction (code : Text) : Option Classified :=
  (functionForm.matchStart? code).bind fun m =>
    if notCallable.contains (m.group 1) || notCallable.contains (m.group 3) then none
    else
      let (owner, name) := cutQualifier (m.group 3)
      let isPrototype := m.group? 5 == some ";"
      let flavor : Flavor :=
        if isPrototype then .prototype
        else match owner with
          | none => .function
          | some o =>
            if name == o then .constructor else if name == '~' :: o then .destructor else .method
      some (.function ⟨name, paramsOf code, [], false, flavor, owner⟩,
        if isPrototype then .other else .functionBody)

/-- A constructor or destructor in the body of its class. -/
def compiledConstructor (s : Scanner) (code : Text) : Option Classified :=
  if s.inClass then
    (constructorForm.matchStart? code).bind fun m =>
      let owner := s.className.getD []
      let classified (flavor : Flavor) : Classified :=
        (.function ⟨m.group 1, paramsOf code, [], false, flavor, some owner⟩, .functionBody)
      if m.group 1 == owner then some (classified .constructor)
      else if m.group 1 == '~' :: owner then some (classified .destructor)
      else none
  else none

/-- A variable outside all blocks. -/
def compiledGlobal (s : Scanner) (code : Text) : Option Classified :=
  if s.blocks.isEmpty then
    (globalForm.matchStart? code).map fun m =>
      (.globalVariable (squash (m.group 1)) (m.group 2)
        ((m.group? 4).map fun v => (trim v).truncate 40), .other)
  else none

/-- A call of a library function anywhere in the line; functions are tried in order. -/
def compiledLibraryCall (code : Text) : Option Classified :=
  Naming.libraryCalls.findSome? fun (function, _) =>
    ((callForm function).find? code).map fun (before, _) =>
      (.libraryCall function ((firstGroup? (code.drop before.length)).map trim), .other)

def classifyCompiled (s : Scanner) (code : Text) (afterClose : Bool) : Option Classified :=
  firstOf [
    fun _ => compiledDefinition code,
    fun _ => compiledFunction code,
    fun _ => compiledConstructor s code,
    fun _ => compiledGlobal s code,
    fun _ => classifyControl s code afterClose,
    fun _ => compiledLibraryCall code]

/-- What a line of code is. -/
def classify (l : Language) (s : Scanner) (code : Text) (afterClose : Bool) : Option Classified :=
  if isTrivial code then none
  else match l with
    | .c => classifyCompiled s code afterClose
    | _ => classifyScript s code afterClose

/-! ## Feeding lines -/

/-- The code of a line: what stands before its comments, and whether a block comment is left
open. -/
def codeOf (stripped : Text) : Text × Bool :=
  let code := codePart "//" stripped
  match cut? "/*" code with
  | some (before, after) => (trimEnd before, !after.hasPart "*/")
  | none => (code, false)

/-- Whether a character may stand before the body of a line. -/
def isBeforeBody (c : Char) : Bool := c == '}' || isBlank c

namespace Scanner

/-- Reads the code of a line: closes the blocks whose braces lead it, classifies the rest, and goes
through its braces. -/
def feedCode (l : Language) (s : Scanner) (code : Text) : Scanner × Option NodeKind :=
  let leading := code.takeWhile isBeforeBody
  let body := code.dropWhile isBeforeBody
  let s := (leading.filter (· == '}')).foldl (fun s _ => s.closeBlock) s
  let classified := classify l s body (code.head? == some '}')
  let s := match classified with
    | some (.classDef name _ _, _) => { s with className := some name }
    | _ => s
  (s.trackBraces (classified.map (·.2)) body, classified.map (·.1))

/-- Reads one line. -/
def feed (l : Language) (s : Scanner) (raw : Text) : Scanner × Option NodeKind :=
  let stripped := trim raw
  if s.inComment then
    (if stripped.hasPart "*/" then { s with inComment := false } else s, none)
  else if stripped.isEmpty || stripped.startsWith "//" then (s, none)
  else if stripped.startsWith "/*" then
    (if Text.hasPart (stripped.drop 2) "*/" then s else { s with inComment := true }, none)
  else
    let (code, opensComment) := codeOf stripped
    feedCode l (if opensComment then { s with inComment := true } else s) code

/-- The nodes of lines, one or none for each. -/
def steps (l : Language) (s : Scanner) (line : Nat) : List Text → List (Option Node)
  | [] => []
  | raw :: rest =>
    let (s', kind) := s.feed l raw
    kind.map (Node.leaf · line) :: steps l s' (line + 1) rest

end Scanner

/-- The nodes of a source. -/
def scan (l : Language) (source : Text) : List Node :=
  (Scanner.start.steps l 1 source.lines).filterMap id

end Marginalia.Braced
