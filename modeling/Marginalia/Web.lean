import Marginalia.Service
import Marginalia.Web.MediaType

/-!
# The service on the web

Three routes: the state of health, commenting and mending. A request is answered with a status and,
if all went well, a JSON body.
-/

namespace Marginalia.Web

/-- A request. -/
structure Request where
  method : Text
  uri : Text
  contentType : Option Text
  body : Text
deriving Repr, DecidableEq

/-- A status, and the body that is sent with success. -/
structure Response where
  status : Nat
  body : Option Json

/-- The version that the state of health tells. -/
def version : Text := "0.3.0"

/-- The number of bytes up to which a body is read. -/
def bodyLimit : Nat := 2097152

/-- The routes. -/
inductive Route where
  | health
  | analyze
  | fix
deriving Repr, DecidableEq

def Route.path : Route → Text
  | health => "/health"
  | analyze => "/analyze"
  | fix => "/fix"

def Route.all : List Route := [health, analyze, fix]

/-- The path of a URI, which may name a host and end in a query. -/
def pathOf (uri : Text) : Text :=
  let uri := uri.takeWhile fun c => c != '?' && c != '#'
  if uri.head? == some '/' then uri
  else
    match Text.cut? "://" uri with
    | some (_, host) =>
      let path := host.dropWhile (· != '/')
      if path.isEmpty then "/" else path
    | none => uri

/-- The state of health. -/
def health : Json := .object [("status", .string "ok"), ("version", .string version)]

/-- A response without body. -/
def bare (status : Nat) : Response := ⟨status, none⟩

/-- The response to a body that does not decode. -/
def refusal : Json.DecodeError → Response
  | .malformed => bare 400
  | .mismatch => bare 422

/-- Decodes the body of a request and answers it. What follows the first value in a body is not
looked at. -/
def answerBody {α : Type} (request : Request) (decode : Json → Except Json.DecodeError α)
    (answer : α → Option Json) : Option Response :=
  if !request.contentType.any announcesJson then some (bare 415)
  else if request.body.byteLength > bodyLimit then some (bare 413)
  else
    match decode (Json.read request.body).1 with
    | .error e => some (refusal e)
    | .ok a => (answer a).map fun j => ⟨200, some j⟩

/-- Answers a request at a route. -/
def Route.answer (config : Config) (request : Request) : Route → Option Response
  | health =>
    if request.method == "GET" then some ⟨200, some Web.health⟩
    else some (bare (if request.method == "HEAD" then 200 else 405))
  | analyze =>
    if request.method == "POST" then
      answerBody request Service.AnalyzeRequest.ofJson fun r => (Service.analyze config r).toJson
    else some (bare 405)
  | fix =>
    if request.method == "POST" then
      answerBody request Service.FixRequest.ofJson fun r =>
        (Service.fix? config r).map Service.FixResponse.toJson
    else some (bare 405)

/-- Answers a request; a question about options is always welcome. Nothing if answering does not
come to an end. -/
def answer (config : Config) (request : Request) : Option Response :=
  if request.method == "OPTIONS" then some (bare 200)
  else
    match Route.all.find? (·.path == pathOf request.uri) with
    | some route => route.answer config request
    | none => some (bare 404)

end Marginalia.Web
