import Marginalia.Commentary.Remark
import Marginalia.Json.Decode
import Marginalia.Json.Writer
import Marginalia.Language
import Marginalia.SocketAddress
import Marginalia.Text.Shown

/-!
# Configuration

What can be set in a file: where to listen, how much input is taken, the languages that are switched
on, and how much is commented. A file that does not decode counts for nothing, and an empty list of
languages for all of them.
-/

namespace Marginalia

/-- A configuration. -/
structure Config where
  listenAddress : Text
  maxInputBytes : UInt64
  enabledLanguages : List Text
  verbosity : Commentary.Verbosity
deriving Repr, DecidableEq

namespace Config

/-- The name of the file that is looked for when no other is named. -/
def defaultPath : Text := "codenotes.json"

/-- What holds where nothing is set. -/
def standard : Config :=
  { listenAddress := "127.0.0.1:5000"
    maxInputBytes := 262144
    enabledLanguages := Language.all.map Language.name
    verbosity := .structural }

/-! ## The file -/

def verbosityName : Commentary.Verbosity → Text
  | .structural => "structural"
  | .detailed => "detailed"

def verbosityOfName? (name : Text) : Option Commentary.Verbosity :=
  [Commentary.Verbosity.structural, .detailed].find? (verbosityName · == name)

/-- A verbosity by its name, or as an object with its name for the only member. -/
def asVerbosity : Json → Except Json.DecodeError Commentary.Verbosity
  | .string name => ofName name
  | .object [(name, .null)] => ofName name
  | j => Json.unexpected j
where
  ofName (name : Text) : Except Json.DecodeError Commentary.Verbosity :=
    match verbosityOfName? name with
    | some v => .ok v
    | none => .error .mismatch

/-- What can be set about comments. -/
def commentFields : Json.Fields Commentary.Verbosity where
  names := ["verbosity"]
  put _ _ value := asVerbosity value

/-- What can be set. -/
def fields : Json.Fields Config where
  names := ["listen_addr", "max_input_bytes", "enabled_languages", "annotation"]
  put c name value :=
    if name == "listen_addr" then
      (Json.asText value).map fun t => { c with listenAddress := t }
    else if name == "max_input_bytes" then
      (Json.asWord value).map fun n => { c with maxInputBytes := n }
    else if name == "enabled_languages" then
      (Json.asTexts value).map fun ts => { c with enabledLanguages := ts }
    else (Json.decode commentFields standard.verbosity value).map fun v => { c with verbosity := v }

/-- The configuration that a value describes. -/
def ofJson (j : Json) : Except Json.DecodeError Config := Json.decode fields standard j

def toJson (c : Config) : Json :=
  .object
    [("listen_addr", .string c.listenAddress),
     ("max_input_bytes", .ofNat c.maxInputBytes.toNat),
     ("enabled_languages", .ofTexts c.enabledLanguages),
     ("annotation", .object [("verbosity", .string (verbosityName c.verbosity))])]

/-- The text of a file for a configuration. -/
def save (c : Config) : Text := c.toJson.document

/-- The configuration of a file, or of none. -/
def load : Option Text → Config
  | none => standard
  | some text =>
    match (Json.document? text).map ofJson with
    | some (.ok c) =>
      if c.enabledLanguages.isEmpty then
        { c with enabledLanguages := standard.enabledLanguages }
      else c
    | _ => standard

/-! ## What follows from it -/

/-- A fault of a configuration. -/
inductive Fault where
  | noInput
  | noLanguages
  | unsupported (language : UnsupportedLanguage)
  | address (text : Text)
deriving Repr, DecidableEq

/-- The messages about a fault, from the outcome to the cause. -/
def Fault.messages : Fault → List Text
  | noInput => ["max_input_bytes must be positive"]
  | noLanguages => ["at least one language must be enabled"]
  | unsupported e => ["enabled_languages contains " ++ e.name.shown, e.message]
  | address text => ["invalid listen_addr: " ++ text, "invalid socket address syntax"]

/-- The address to listen at. -/
def socketAddress (c : Config) : Except Fault SocketAddress :=
  match SocketAddress.ofText? c.listenAddress with
  | some a => .ok a
  | none => .error (.address c.listenAddress)

/-- The first fault of a configuration. -/
def fault? (c : Config) : Option Fault :=
  if c.maxInputBytes = 0 then some .noInput
  else if c.enabledLanguages.isEmpty then some .noLanguages
  else
    match c.enabledLanguages.find? fun name => (Language.ofName? name).isNone with
    | some name => some (.unsupported ⟨name⟩)
    | none =>
      match c.socketAddress with
      | .ok _ => none
      | .error e => some e

/-- The languages that are switched on. -/
def languages (c : Config) : List Language :=
  Language.all.filter fun l => c.enabledLanguages.any fun name => Language.ofName? name == some l

/-- The language of a name, if it is switched on. -/
def resolveLanguage (c : Config) (name : Text) : Except UnsupportedLanguage Language :=
  match Language.ofName? name with
  | some l => if c.languages.contains l then .ok l else .error ⟨name⟩
  | none => .error ⟨name⟩

/-- Whether code is short enough. -/
def withinLimit (c : Config) (code : Text) : Bool := code.byteLength ≤ c.maxInputBytes.toNat

end Config
end Marginalia
