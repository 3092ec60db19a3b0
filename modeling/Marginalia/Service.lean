import Marginalia.Commentary
import Marginalia.Config
import Marginalia.Repair

/-!
# The service

Requests to comment code and to mend it. Whatever happens there is a response; one that failed says
why and gives the code back, except where there is none or too much of it.
-/

namespace Marginalia.Service

/-- A request to comment code. -/
structure AnalyzeRequest where
  code : Text
  language : Text
  /-- Takes precedence over the configured verbosity. -/
  detailed : Option Bool
deriving Repr, DecidableEq

/-- A request to mend code. -/
structure FixRequest where
  code : Text
  language : Text
deriving Repr, DecidableEq

/-- Where a request names no language. -/
def standardLanguage : Text := Language.python.name

def analyzeFields : Json.Fields AnalyzeRequest where
  names := ["code", "language", "detailed"]
  put r name value :=
    if name == "code" then (Json.asText value).map fun t => { r with code := t }
    else if name == "language" then (Json.asText value).map fun t => { r with language := t }
    else (Json.asFlag? value).map fun d => { r with detailed := d }

def fixFields : Json.Fields FixRequest where
  names := ["code", "language"]
  put r name value :=
    if name == "code" then (Json.asText value).map fun t => { r with code := t }
    else (Json.asText value).map fun t => { r with language := t }

def AnalyzeRequest.ofJson (j : Json) : Except Json.DecodeError AnalyzeRequest :=
  Json.decode analyzeFields ⟨[], standardLanguage, none⟩ j

def FixRequest.ofJson (j : Json) : Except Json.DecodeError FixRequest :=
  Json.decode fixFields ⟨[], standardLanguage⟩ j

/-- Why a request was not carried out. -/
inductive Failure where
  | noCode
  | tooLong (limit : UInt64)
  | unsupported (language : UnsupportedLanguage)
  | syntaxFault (fault : Indented.SyntaxFault)
  | notPython
deriving Repr, DecidableEq

def Failure.message : Failure → Text
  | noCode => "No code provided"
  | tooLong limit => "Input exceeds the " ++ Text.ofNat limit.toNat ++ " byte limit"
  | unsupported e => e.message
  | syntaxFault e => e.message
  | notPython => "Only Python is supported"

/-- The members that tell how a request went. -/
def outcomeMembers : Option Failure → List (Text × Json)
  | none => [("success", .bool true)]
  | some e => [("success", .bool false), ("error", .string e.message)]

/-- The response to a request to comment code. -/
structure AnalyzeResponse where
  code : Text
  failure : Option Failure
deriving Repr, DecidableEq

def AnalyzeResponse.toJson (r : AnalyzeResponse) : Json :=
  .object (("commented_code", .string r.code) :: outcomeMembers r.failure)

/-- The response to a request to mend code. -/
structure FixResponse where
  code : Text
  fixes : List Text
  failure : Option Failure
deriving Repr, DecidableEq

def FixResponse.toJson (r : FixResponse) : Json :=
  .object
    (("fixed_code", .string r.code) :: ("fixes", .ofTexts r.fixes) :: outcomeMembers r.failure)

/-- What is wrong with the amount of code. -/
def sizeFailure? (config : Config) (code : Text) : Option Failure :=
  if code.isAllBlank then some .noCode
  else if config.withinLimit code then none
  else some (.tooLong config.maxInputBytes)

/-- How much to comment. -/
def verbosityFor (config : Config) (detailed : Option Bool) : Commentary.Verbosity :=
  match detailed with
  | some true => .detailed
  | some false => .structural
  | none => config.verbosity

/-- Comments code in a language that is switched on. -/
def analyze (config : Config) (request : AnalyzeRequest) : AnalyzeResponse :=
  match sizeFailure? config request.code with
  | some e => ⟨[], some e⟩
  | none =>
    match config.resolveLanguage request.language with
    | .error e => ⟨request.code, some (.unsupported e)⟩
    | .ok l =>
      match annotate l (verbosityFor config request.detailed) request.code with
      | .error e => ⟨request.code, some (.syntaxFault e)⟩
      | .ok text => ⟨text, none⟩

/-- Mends code. No response if mending does not come to an end. -/
def fix? (config : Config) (request : FixRequest) : Option FixResponse :=
  match sizeFailure? config request.code with
  | some e => some ⟨[], [], some e⟩
  | none =>
    if Language.ofName? request.language = some .python then
      (Repair.repair? request.code).map fun o => ⟨o.text, Repair.report o.changes, none⟩
    else some ⟨request.code, [], some .notPython⟩

end Marginalia.Service
