import Marginalia.Service

/-!
# Tools

The service as tools that are called by name with an object of arguments. A tool that is not known
and arguments that do not fit are errors of the call; that there is no code is an error of the tool.
-/

namespace Marginalia.Tools

/-- The tools. -/
inductive Tool where
  | annotateCode
  | repairCode
deriving Repr, DecidableEq

def Tool.name : Tool → Text
  | annotateCode => "annotate_code"
  | repairCode => "repair_code"

/-- All tools, by name. -/
def Tool.all : List Tool := [annotateCode, repairCode]

/-- What a tool answers. -/
structure Answer where
  isError : Bool
  text : Text
deriving Repr, DecidableEq

/-- The number of the error for calls that cannot be made. -/
def invalidParams : Int := -32602

/-- Arguments as they were given; code has to be. -/
structure Arguments where
  code : Option Text
  language : Option Text
  detailed : Option Bool
deriving Repr, DecidableEq

def annotateFields : Json.Fields Arguments where
  names := ["code", "language", "detailed"]
  put a name value :=
    if name == "code" then (Json.asText value).map fun t => { a with code := some t }
    else if name == "language" then (Json.asText? value).map fun t => { a with language := t }
    else (Json.asFlag? value).map fun d => { a with detailed := d }

def repairFields : Json.Fields Arguments where
  names := ["code"]
  put a _ value := (Json.asText value).map fun t => { a with code := some t }

/-- The fields of a tool's arguments. -/
def Tool.fields : Tool → Json.Fields Arguments
  | annotateCode => annotateFields
  | repairCode => repairFields

/-- The response of the service to a call of a tool. -/
def Tool.respond? (tool : Tool) (config : Config) (code : Text) (arguments : Arguments) :
    Option Json :=
  match tool with
  | annotateCode =>
    let language := arguments.language.getD Service.standardLanguage
    some (Service.analyze config ⟨code, language, arguments.detailed⟩).toJson
  | repairCode => (Service.fix? config ⟨code, Service.standardLanguage⟩).map (·.toJson)

/-- Calls a tool. An error if the call cannot be made, nothing if the call does not come to an
end. -/
def call (config : Config) (name : Text) (arguments : Json) : Option (Except Int Answer) :=
  match Tool.all.find? (·.name == name) with
  | none => some (.error invalidParams)
  | some tool =>
    match arguments.members?.map (Json.decodeMembers tool.fields [] ⟨none, none, none⟩) with
    | some (.ok given) =>
      match given.code with
      | none => some (.error invalidParams)
      | some code =>
        if code.isAllBlank then some (.ok ⟨true, Service.Failure.noCode.message⟩)
        else (tool.respond? config code given).map fun j => .ok ⟨false, j.document⟩
    | _ => some (.error invalidParams)

end Marginalia.Tools
