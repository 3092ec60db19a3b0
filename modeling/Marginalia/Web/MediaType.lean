import Marginalia.Text.Letters

/-!
# Media types

A media type is a type, a subtype and parameters. Only whether it announces JSON is of interest, but
one that is not well-formed to its end announces nothing.
-/

namespace Marginalia.Web

/-- A character of the names in a media type. -/
def isTokenChar (c : Char) : Bool :=
  isAsciiLetter c || isAsciiDigit c || c.toNat == 96
    || ['!', '#', '$', '%', '&', '\'', '*', '+', '-', '.', '^', '_', '|', '~'].contains c

/-- A character between the quotes of a parameter. -/
def isQuotedChar (c : Char) : Bool := 31 < c.toNat && c.toNat < 127

/-- What follows the end of a parameter: a semicolon, or nothing. -/
def afterParameter? : Text → Option Text
  | [] => some []
  | c :: rest => if c == ';' then some rest else none

/-- What follows a parameter. A value in quotes has at least one character, which may be a quote. -/
def skipParameter? (t : Text) : Option Text :=
  let name := t.takeWhile isTokenChar
  match t.dropWhile isTokenChar with
  | '=' :: '"' :: first :: rest =>
    if name.isEmpty || !isQuotedChar first then none
    else
      match rest.dropWhile fun c => isQuotedChar c && c != '"' with
      | '"' :: rest => afterParameter? (rest.dropWhile (· == ' '))
      | _ => none
  | '=' :: rest =>
    if name.isEmpty then none
    else
      match rest.dropWhile isTokenChar with
      | ';' :: more => if (rest.takeWhile isTokenChar).isEmpty then none else some more
      | [] => some []
      | _ => none
  | _ => none

/-- Whether a text is a list of parameters, of which there are at most `fuel`. -/
def areParameters : Nat → Text → Bool
  | 0, t => t.isEmpty
  | fuel + 1, t =>
    match t.dropWhile (· == ' ') with
    | [] => true
    | t =>
      match skipParameter? t with
      | some rest => areParameters fuel rest
      | none => false

/-- A subtype without its suffix, and the suffix: what follows the last plus sign that is not the
first character. -/
def splitSuffix : Text → Text × Option Text
  | [] => ([], none)
  | c :: rest =>
    match rest.reverse.span (· != '+') with
    | (suffix, _ :: stem) => (c :: stem.reverse, some suffix.reverse)
    | (_, []) => (c :: rest, none)

/-- Whether a media type announces JSON, by its subtype or by the suffix of it. -/
def announcesJson (mediaType : Text) : Bool :=
  let t := mediaType.lowerAsciiText
  match t.takeWhile isTokenChar, t.dropWhile isTokenChar with
  | type, '/' :: rest =>
    let (subtype, suffix) := splitSuffix (rest.takeWhile isTokenChar)
    let isJson := subtype == "json" || suffix == some "json".toList
    let wellFormed :=
      match rest.dropWhile isTokenChar with
      | [] => true
      | ';' :: parameters => areParameters (parameters.length + 1) parameters
      | _ => false
    type == "application" && isJson && wellFormed
  | _, _ => false

end Marginalia.Web
