import Marginalia.Text.Letters

/-!
# Socket addresses

An address of four bytes or of eight groups of sixteen bits, and the number of a socket there.
Groups of zeros may be left out once, the last two groups may be written as four bytes, and the long
form stands in brackets with an optional scope.
-/

namespace Marginalia

/-- An address and the number of a socket there. -/
inductive SocketAddress where
  | v4 (bytes : List Nat) (socket : Nat)
  | v6 (groups : List Nat) (scope socket : Nat)
deriving Repr, DecidableEq

namespace SocketAddress

/-- The value of a digit to a base of at most sixteen. -/
def digit? (base : Nat) (c : Char) : Option Nat :=
  let value :=
    if isAsciiDigit c then c.toNat - 48
    else if isAsciiLetter c then (lowerAscii c).toNat - 87
    else base
  if value < base then some value else none

/-- The number that digits spell. -/
def numberOf (base : Nat) (digits : Text) : Nat :=
  digits.foldl (fun n c => n * base + (digit? base c).getD 0) 0

/-- The digits a text starts with, at least one, and what follows them. -/
def digits? (base : Nat) (t : Text) : Option (Text × Text) :=
  match t.span fun c => (digit? base c).isSome with
  | ([], _) => none
  | (digits, rest) => some (digits, rest)

/-- A number below a limit. -/
def number? (base limit : Nat) (t : Text) : Option (Nat × Text) := do
  let (digits, rest) ← digits? base t
  let n := numberOf base digits
  if n < limit then return (n, rest) else none

/-- A byte, of at most three digits and without leading zeros. -/
def byte? (t : Text) : Option (Nat × Text) := do
  let (digits, rest) ← digits? 10 t
  let n := numberOf 10 digits
  if digits.length ≤ 3 && n < 256 && (digits.length == 1 || digits.head? != some '0') then
    return (n, rest)
  else none

/-- What follows a character. -/
def skip? (c : Char) : Text → Option Text
  | [] => none
  | d :: rest => if c = d then some rest else none

/-- Four bytes with dots between them. -/
def bytes? (t : Text) : Option (List Nat × Text) := do
  let (a, t) ← byte? t
  let (b, t) ← byte? (← skip? '.' t)
  let (c, t) ← byte? (← skip? '.' t)
  let (d, t) ← byte? (← skip? '.' t)
  return ([a, b, c, d], t)

/-- A group, of at most four digits. -/
def group? (t : Text) : Option (Nat × Text) := do
  let (digits, rest) ← digits? 16 t
  if digits.length ≤ 4 then return (numberOf 16 digits, rest) else none

/-- The two groups that four bytes make. -/
def groupsOfBytes : List Nat → List Nat
  | [a, b, c, d] => [a * 256 + b, c * 256 + d]
  | _ => []

/-- As many groups as a text starts with, at most `limit`, with colons between them, and whether
the last two were written as bytes. `first` says that no colon has to come first. -/
def groups (first : Bool) : Nat → Text → List Nat × Bool × Text
  | 0, t => ([], false, t)
  | limit + 1, t =>
    match if first then some t else skip? ':' t with
    | none => ([], false, t)
    | some start =>
      match if limit = 0 then none else bytes? start with
      | some (bytes, rest) => (groupsOfBytes bytes, true, rest)
      | none =>
        match group? start with
        | none => ([], false, t)
        | some (g, rest) =>
          let (gs, bytes, rest) := groups false limit rest
          (g :: gs, bytes, rest)

/-- Eight groups, of which a run of zeros may be left out. -/
def allGroups? (t : Text) : Option (List Nat × Text) :=
  match groups true 8 t with
  | (head, bytes, rest) =>
    if head.length = 8 then some (head, rest)
    else if bytes then none
    else do
      let rest ← skip? ':' (← skip? ':' rest)
      let (tail, _, rest) := groups true (7 - head.length) rest
      return (head ++ List.replicate (8 - head.length - tail.length) 0 ++ tail, rest)

/-- The number of a socket after its colon, at the end of a text. -/
def socket? (t : Text) : Option Nat := do
  let (socket, rest) ← number? 10 65536 (← skip? ':' t)
  if rest.isEmpty then return socket else none

/-- A scope after its sign, if there is one. -/
def scope (t : Text) : Nat × Text := (skip? '%' t |>.bind (number? 10 (1 <<< 32))).getD (0, t)

def v4? (t : Text) : Option SocketAddress := do
  let (bytes, rest) ← bytes? t
  return .v4 bytes (← socket? rest)

def v6? (t : Text) : Option SocketAddress := do
  let (groups, rest) ← allGroups? (← skip? '[' t)
  let (scope, rest) := scope rest
  return .v6 groups scope (← socket? (← skip? ']' rest))

/-- The address that a text spells. -/
def ofText? (t : Text) : Option SocketAddress := (v4? t).or (v6? t)

/-- The length of the run of zeros a list starts with. -/
def zeros (groups : List Nat) : Nat := (groups.takeWhile (· == 0)).length

/-- The start and the length of the longest run of zeros, the first of several; `index` is where
the list starts. -/
def longestZeros (index : Nat) : List Nat → Nat × Nat
  | [] => (index, 0)
  | g :: gs =>
    let here := zeros (g :: gs)
    let later := longestZeros (index + 1) gs
    if later.2 > here then later else (index, here)

/-- Groups with colons between them. -/
def spellGroups (groups : List Nat) : Text :=
  Text.join ":" (groups.map fun g => Nat.toDigits 16 g)

/-- Bytes with dots between them. -/
def spellBytes (bytes : List Nat) : Text := Text.join "." (bytes.map Text.ofNat)

/-- An address of eight groups: one that stands for four bytes shows them, in any other the longest
run of at least two zeros is left out. -/
def spellAddress (groups : List Nat) : Text :=
  match groups with
  | [0, 0, 0, 0, 0, 65535, a, b] => "::ffff:" ++ spellBytes [a / 256, a % 256, b / 256, b % 256]
  | _ =>
    let (start, length) := longestZeros 0 groups
    if length > 1 then
      spellGroups (groups.take start) ++ "::" ++ spellGroups (groups.drop (start + length))
    else spellGroups groups

/-- A scope behind its sign; zero is left out. -/
def spellScope (scope : Nat) : Text := if scope = 0 then [] else '%' :: Text.ofNat scope

/-- The text of an address. -/
def spell : SocketAddress → Text
  | v4 bytes socket => spellBytes bytes ++ ":" ++ Text.ofNat socket
  | v6 groups scope socket =>
    "[" ++ spellAddress groups ++ spellScope scope ++ "]:" ++ Text.ofNat socket

end SocketAddress
end Marginalia
