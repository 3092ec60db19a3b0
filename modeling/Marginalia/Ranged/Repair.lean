import Marginalia.Ranged.Text
import Marginalia.Repair.Arguments
import Marginalia.Repair.Headers
import Marginalia.Repair.Inputs
import Marginalia.Repair.KeyReads
import Marginalia.Repair.Logic
import Marginalia.Repair.Operands
import Marginalia.Repair.Spelling
import Marginalia.Text.Edit

/-!
# Mending lines by ranges

What the passes cut out of a line and put together again, written with the byte ranges. Where two
results are nested, the outer one is missing when a range cannot be cut out, and the inner one when
there is nothing to mend.
-/

namespace Marginalia.Ranged

open Text Repair

/-! ## Entities -/

/-- Whether an ampersand before a text would start an entity. -/
def completesEntity? (t : Text) : Option Bool := do
  let tails ← entities.mapM fun (entity, _) => from? entity 1
  return tails.any fun tail => t.startsWith tail

/-- Decodes the entities of what is left of a text, at most `fuel` of them. -/
def decodeWithin? : Nat → Text → Option Text
  | 0, _ => none
  | fuel + 1, rest =>
    match splitAtChar? '&' rest with
    | none => some rest
    | some (head, _) => do
      let front ← slice? rest 0 (byteLength head)
      let tail ← from? rest (byteLength head)
      match entities.find? fun (entity, _) => tail.startsWith entity with
      | some (entity, plain) =>
        let behind ← from? tail (byteLength entity)
        let kept ← if entity == "&amp;" then completesEntity? behind else some false
        let decoded ← decodeWithin? fuel behind
        return front ++ ((if kept then entity else plain) ++ decoded)
      | none =>
        let behind ← from? tail 1
        let decoded ← decodeWithin? fuel behind
        return front ++ ('&' :: decoded)

/-- A text with its entities decoded. Each of them takes at least one character. -/
def decodeEntities? (t : Text) : Option Text := decodeWithin? (t.length + 1) t

/-! ## Lines and signs -/

/-- The code of a line, and the blanks and the comment behind it. -/
def splitComment? (line : Text) : Option (Text × Text) := do
  let code ← codePart? "#" line
  let tail ← from? line (byteLength code)
  return (code, tail)

/-- Whether the first of a sign outside literals and brackets is not part of a longer one. -/
def hasPlainSign? (sign : Char) (t : Text) : Option Bool :=
  (behindTopLevel? sign t).map fun behind => behind.any fun tail => !tail.startsWith "="

/-- The character that ends at a byte offset. -/
def charBefore? (t : Text) (place : Nat) : Option Char := (upToByte? t place).bind List.getLast?

/-- The character that starts at a byte offset. -/
def charAt? (t : Text) (place : Nat) : Option Char := (fromByte? t place).bind List.head?

/-- Whether a code character of a condition is a lone equality sign outside brackets. -/
def isLone (condition : Text) (c : CodeChar) : Bool :=
  isSeparator '=' c && !(charBefore? condition c.index).any joinsEquality
    && charAt? condition (c.index + 1) != some '='

/-- The byte offsets of the lone equality signs outside literals and brackets. -/
def loneEqualities (condition : Text) : List Nat :=
  ((codeChars condition).filter (isLone condition)).map CodeChar.index

/-- The byte offset at which the condition ends that a text starts with. -/
def conditionEnd? (t : Text) : Option Nat :=
  match findTopLevel? ':' t with
  | some place => (from? t (place + 1)).map fun behind =>
    if behind.startsWith "=" then byteLength t else place
  | none => some (byteLength t)

/-- Makes the assignments in a condition comparisons. -/
def compareInCondition? (code : Text) : Option (Option Text) :=
  match afterConditionWord? code with
  | none => some none
  | some matched => do
    let head := byteLength code - byteLength matched
    let rest ← from? code head
    let stop ← conditionEnd? rest
    let condition ← slice? rest 0 stop
    let signs := loneEqualities condition
    if signs.isEmpty then return none
    let front ← slice? code 0 head
    let compared ← replaceRanges? condition 0 (signs.map fun place => ⟨place, place + 1, "=="⟩)
    let tail ← from? rest stop
    return some (front ++ compared ++ tail)

/-- Whether a function has a default that is shared between its calls. -/
def hasMutableDefault? (code : Text) : Option Bool :=
  if ((functionName? code).bind fun (_, rest) => afterBlanksAnd? "(" rest).isSome then do
    match ← firstGroup? code with
    | none => return false
    | some inside =>
      let params ← splitTopLevel? ',' inside
      params.anyM fun param =>
        (behindTopLevel? '=' param).map fun behind => behind.any fun tail => isMutable tail.trim
  else some false

/-! ## Edits at the places of a rule -/

/-- A rule that cuts ranges out of the code that it is applied to, at a byte offset. It tells how
many characters are taken, and what takes their place if they are not kept. -/
abbrev RangedRule := Text → Before → Nat → Text → Option (Option (Nat × Option Text))

/-- The edits that a rule makes in code, from an offset on. The first `skip` characters have been
taken. -/
def editsFrom? (rule : RangedRule) (code : Text) (b : Before) (start : Nat) :
    Nat → Text → Option (List Edit)
  | _, [] => some []
  | skip + 1, c :: rest => editsFrom? rule code (b.step c) (start + c.utf8Size) skip rest
  | 0, c :: rest => do
    match ← rule code b start (c :: rest) with
    | some (length, new?) =>
      let edits ← editsFrom? rule code (b.step c) (start + c.utf8Size) (length - 1) rest
      match new? with
      | some new => return ⟨start, start + byteLength ((c :: rest).take length), new⟩ :: edits
      | none => return edits
    | none => editsFrom? rule code (b.step c) (start + c.utf8Size) 0 rest

/-- Replaces a comparison with `None` outside literals. -/
def noneRule? (sign new : Text) : RangedRule := fun _ b _ t =>
  some ((noneRule sign new b t).map fun (length, new) => (length, some new))

/-- Code with its comparisons with `None` replaced, if there are any. -/
def replaceOutside? (sign new code : Text) : Option (Option Text) := do
  let edits ← editsFrom? (noneRule? sign new) code .start 0 0 code
  if edits.isEmpty then return none
  (replaceRanges? code 0 edits).map some

/-- Whether what follows a place makes it the target of an assignment. -/
def isStoreTarget? (after : Text) : Option Bool :=
  match splitAtChar? '=' after.trimStart with
  | none => some false
  | some (head, _) => do
    let value ← from? after.trimStart (byteLength head + 1)
    if value.startsWith "=" then return false
    let sign ← slice? after.trimStart 0 (byteLength head)
    return storeSigns.contains sign

/-- Asks for the value of a key. -/
def keyRule? : RangedRule := fun code b start t =>
  if b.fresh then
    match keyRead? t with
    | none => some none
    | some (name, key, after) => do
      let length := t.length - after.length
      if !Naming.isMappingName name || b.quoted then return some (length, none)
      let behind ← from? code (start + byteLength (t.take length))
      if ← isStoreTarget? behind then return some (length, none)
      return some (length, some (name ++ ".get(" ++ key ++ ")"))
  else some none

/-- Code with its reads of keys guarded, if there are any. -/
def guardKeys? (code : Text) : Option (Option Text) :=
  if code.trimStart.startsWith "del " then some none
  else do
    let edits ← editsFrom? keyRule? code .start 0 0 code
    if edits.isEmpty then return none
    (applyEdits? code edits).map some

/-! ## Printed operands -/

/-- The edits that convert the operands of an argument. The arguments start at an offset. -/
def operandEdits? (texts : List Text) (start : Nat) (argument : Nat × Text) :
    Option (List Edit) := do
  let operands ← locatedPieces? '+' argument.2
  if operands.length < 2 || !(operands.any fun o => isStringLiteral o.2) then return []
  return (operands.filter fun o => isBareOperand texts o.2).map fun o =>
    let place := start + argument.1 + o.1
    ⟨place, place + byteLength o.2, "str(" ++ (o.2 ++ ")")⟩

/-- Code with the operands of its first print call converted, if there are any to convert. -/
def convertPrinted? (texts : List Text) (code : Text) : Option (Option Text) :=
  match splitAtPlace? (fun prev t => isFresh prev && t.startsWith "print(") none code with
  | none => some none
  | some (head, _) => do
    let paren := byteLength head + 5
    match ← partner? code paren with
    | none => return none
    | some close =>
      let inside ← slice? code (paren + 1) close
      let located ← locatedPieces? ',' inside
      let edits ← located.mapM (operandEdits? texts (paren + 1))
      if edits.flatten.isEmpty then return none
      (applyEdits? code edits.flatten).map some

/-! ## Input -/

/-- Whether some place in a line, from an offset on, satisfies a condition on the character before
it and the text it starts. -/
def anyPlace? (p : Option Char → Text → Option Bool) (line : Text) (prev : Option Char)
    (start : Nat) : Text → Option Bool
  | [] => some false
  | c :: rest => do
    let here ← from? line start
    if ← p prev here then return true
    anyPlace? p line (some c) (start + c.utf8Size) rest

/-- Whether a place starts a call of an arithmetic function with a variable in its arguments. -/
def calculates? (var t : Text) : Option Bool :=
  match name? t with
  | some (name, rest) =>
    if rest.startsWith "(" then
      (firstGroup? t).map fun group =>
        Naming.isArithmeticName name && hasWord var (group.getD [])
    else some false
  | none => some false

/-- Whether a line uses a variable as a number. -/
def usesNumber? (var line : Text) : Option Bool :=
  anyPlace? (fun prev t => (calculates? var t).map fun calculates =>
    numberAfter var t
      || (isFresh prev
        && (((after? var t).any numberBefore) || rangeOver var t || calculates))) line none 0 line

/-- Whether some lines use a variable as a number that none of them converts. -/
def usedAsNumber? (var : Text) (lines : List Text) : Option Bool :=
  (lines.mapM (usesNumber? var)).map fun uses =>
    !lines.any (anyPlace (fun prev t => isFresh prev && convertsNumber var t) none)
      && uses.any id

/-- The next lines of code. -/
def lookahead? (later : List (LineInfo × Text)) : Option (List Text) :=
  ((later.filter fun (info, _) => info.role == .statement || info.role == .continuation).take
    inputLookahead).mapM fun (_, line) => (splitComment? line).map (·.1)

/-- The byte offset of the last place where a mark stands. -/
def findLastMark? (mark t : Text) : Option Nat :=
  (cut? mark.reverse t.reverse).map fun (_, front) => byteLength front

/-- Converts the input that a variable is set from, if the variable is used as a number. -/
def convertInput? (later : List (LineInfo × Text)) (code : Text) : Option (Option Text) :=
  match inputAssignment? code with
  | none => some none
  | some (name, head, _) => do
    let paren := byteLength head + 5
    match ← partner? code paren with
    | none => return none
    | some close =>
      let behind ← from? code (close + 1)
      if !behind.trim.isEmpty then return none
      let window ← lookahead? later
      if !(← usedAsNumber? name window) then return none
      let front ← slice? code 0 paren
      match findLastMark? "input" front with
      | none => return none
      | some start =>
        let before ← slice? code 0 start
        let call ← slice? code start (close + 1)
        return some (before ++ "int(" ++ call ++ ")")

/-! ## Arguments of constructors -/

/-- A call, completed, whose parenthesis stands at an offset and that requires some arguments: its
name, the number of arguments it lacks, and the code. -/
def completedCall? (code name : Text) (paren required : Nat) :
    Option (Option (Text × Nat × Text)) := do
  match ← partner? code paren with
  | none => return none
  | some close =>
    let inside ← slice? code (paren + 1) close
    let pieces ← splitTopLevel? ',' inside
    let arguments := pieces.filter fun a => !a.isEmpty
    let named ← arguments.mapM (hasPlainSign? '=')
    if arguments.any (·.startsWith "*") || named.any id then return none
    if required ≤ arguments.length then return none
    let missing := required - arguments.length
    let head ← slice? code 0 (paren + 1)
    let tail ← from? code close
    return some (name, missing,
      head ++ join ", " (arguments ++ List.replicate missing ("None" : Text)) ++ tail)

/-- The call at a place, completed, if it is one of a known class that lacks arguments. -/
def completedAt? (arities : Arities) (code : Text) (prev : Option Char) (start : Nat) (t : Text) :
    Option (Option (Text × Nat × Text)) :=
  match name? t with
  | none => some none
  | some (name, rest) =>
    if isFresh prev && rest.startsWith "(" then
      match arities.lookup name with
      | none => some none
      | some required => do
        let front ← slice? code 0 start
        if front.endsWith "." then return none
        completedCall? code name (start + byteLength name) required
    else some none

/-- The first call that lacks arguments, completed, from an offset on. -/
def completedFrom? (arities : Arities) (code : Text) (prev : Option Char) (start : Nat) :
    Text → Option (Option (Text × Nat × Text))
  | [] => some none
  | c :: rest => do
    match ← completedAt? arities code prev start (c :: rest) with
    | some completed => return some completed
    | none => completedFrom? arities code (some c) (start + c.utf8Size) rest

/-- Completes calls until none lacks arguments, at most `fuel` of them. -/
def completeCallsWithin? (arities : Arities) :
    Nat → Text → Option (Option (List (Text × Nat) × Text))
  | fuel, code => do
    match ← completedFrom? arities code none 0 code with
    | none => return some ([], code)
    | some (name, missing, completed) =>
      match fuel with
      | 0 => return none
      | fuel + 1 =>
        let more ← completeCallsWithin? arities fuel completed
        return more.map fun (added, code) => ((name, missing) :: added, code)

end Marginalia.Ranged
