import Marginalia.Naming.Words

/-!
# The intent of a name

The verb that opens an identifier tells what the named thing is for. Openings are tried in order,
longer ones first; the words after the opening are the object of the description. Where no opening
fits, a few whole words are looked for instead.
-/

namespace Marginalia.Naming

/-- What a named thing is for. -/
inductive Intent where
  | retrieval
  | mutation
  | creation
  | deletion
  | validation
  | computation
  | search
  | ordering
  | formatting
  | caching
  | concurrency
  | errorHandling
  | logging
  | testing
  | initialization
  | cleanup
  | eventing
  | dataModeling
deriving Repr, DecidableEq

namespace Intent

def name : Intent → Text
  | retrieval => "retrieval"
  | mutation => "mutation"
  | creation => "creation"
  | deletion => "deletion"
  | validation => "validation"
  | computation => "computation"
  | search => "search"
  | ordering => "ordering"
  | formatting => "formatting"
  | caching => "caching"
  | concurrency => "concurrency"
  | errorHandling => "error_handling"
  | logging => "logging"
  | testing => "testing"
  | initialization => "initialization"
  | cleanup => "cleanup"
  | eventing => "eventing"
  | dataModeling => "data_modeling"

/-- The object of the description when the identifier is the bare verb. -/
def defaultObject : Intent → Text
  | retrieval => "the requested data"
  | mutation => "the stored state"
  | creation => "the item"
  | deletion => "the item"
  | validation => "the input"
  | computation => "the result"
  | search => "matching entries"
  | ordering => "the items"
  | formatting => "the data"
  | caching => "the result"
  | concurrency => "the work"
  | errorHandling => "the failure"
  | logging => "the message"
  | testing => "the behaviour"
  | initialization => "the component"
  | cleanup => "resources"
  | eventing => "the event"
  | dataModeling => "the data structure"

end Intent

/-- A description with room for one object, or a fixed one. -/
inductive Template where
  | around (before after : Text)
  | fixed (text : Text)
deriving Repr, DecidableEq

namespace Template

def fill : Template → Text → Text
  | around before after, object => before ++ object ++ after
  | fixed text, _ => text

/-- The template with its room written as a placeholder. -/
def spelled (t : Template) : Text := t.fill "\x7bobject\x7d"

end Template

/-- The words that open an identifier, and what they tell. -/
structure Opening where
  words : List Text
  intent : Intent
  template : Template
deriving Repr, DecidableEq

/-- The openings in the order in which they are tried. -/
def openings : List Opening :=
  [⟨["get", "or", "create"], .creation, .around "Retrieve or create " ""⟩,
   ⟨["set", "up"], .initialization, .around "Set up " ""⟩,
   ⟨["tear", "down"], .cleanup, .around "Tear down " ""⟩,
   ⟨["clean", "up"], .cleanup, .around "Clean up " ""⟩,
   ⟨["look", "up"], .search, .around "Look up " ""⟩,
   ⟨["find", "all"], .search, .around "Find all " ""⟩,
   ⟨["is", "valid"], .validation, .around "Check if " " is valid"⟩,
   ⟨["sign", "in"], .validation, .fixed "Log user in"⟩,
   ⟨["log", "in"], .validation, .fixed "Log user in"⟩,
   ⟨["sign", "out"], .cleanup, .fixed "Log user out"⟩,
   ⟨["log", "out"], .cleanup, .fixed "Log user out"⟩,
   ⟨["sign", "up"], .creation, .fixed "Register new user"⟩,
   ⟨["get"], .retrieval, .around "Retrieve " ""⟩,
   ⟨["retrieve"], .retrieval, .around "Retrieve " ""⟩,
   ⟨["fetch"], .retrieval, .around "Fetch " ""⟩,
   ⟨["load"], .retrieval, .around "Load " ""⟩,
   ⟨["read"], .retrieval, .around "Read " ""⟩,
   ⟨["receive"], .retrieval, .around "Receive " ""⟩,
   ⟨["download"], .retrieval, .around "Download " ""⟩,
   ⟨["set"], .mutation, .around "Set " ""⟩,
   ⟨["update"], .mutation, .around "Update " ""⟩,
   ⟨["modify"], .mutation, .around "Update " ""⟩,
   ⟨["change"], .mutation, .around "Update " ""⟩,
   ⟨["edit"], .mutation, .around "Update " ""⟩,
   ⟨["save"], .mutation, .around "Save " ""⟩,
   ⟨["write"], .mutation, .around "Save " ""⟩,
   ⟨["store"], .mutation, .around "Save " ""⟩,
   ⟨["persist"], .mutation, .around "Save " ""⟩,
   ⟨["export"], .mutation, .around "Export " ""⟩,
   ⟨["create"], .creation, .around "Create new " ""⟩,
   ⟨["make"], .creation, .around "Create new " ""⟩,
   ⟨["new"], .creation, .around "Create new " ""⟩,
   ⟨["add"], .creation, .around "Add " ""⟩,
   ⟨["insert"], .creation, .around "Insert " ""⟩,
   ⟨["build"], .creation, .around "Build " ""⟩,
   ⟨["generate"], .creation, .around "Build " ""⟩,
   ⟨["construct"], .creation, .around "Build " ""⟩,
   ⟨["compile"], .creation, .around "Build " ""⟩,
   ⟨["from"], .creation, .around "Construct an instance from " ""⟩,
   ⟨["delete"], .deletion, .around "Remove " ""⟩,
   ⟨["remove"], .deletion, .around "Remove " ""⟩,
   ⟨["destroy"], .deletion, .around "Remove " ""⟩,
   ⟨["drop"], .deletion, .around "Remove " ""⟩,
   ⟨["clear"], .deletion, .around "Clear " ""⟩,
   ⟨["is"], .validation, .around "Check if " ""⟩,
   ⟨["has"], .validation, .around "Check whether it has " ""⟩,
   ⟨["can"], .validation, .around "Check whether it can " ""⟩,
   ⟨["should"], .validation, .around "Decide whether to " ""⟩,
   ⟨["validate"], .validation, .around "Validate " ""⟩,
   ⟨["verify"], .validation, .around "Validate " ""⟩,
   ⟨["check"], .validation, .around "Validate " ""⟩,
   ⟨["ensure"], .validation, .around "Validate " ""⟩,
   ⟨["authenticate"], .validation, .around "Verify credentials for " ""⟩,
   ⟨["authorize"], .validation, .around "Verify permissions for " ""⟩,
   ⟨["calculate"], .computation, .around "Calculate " ""⟩,
   ⟨["compute"], .computation, .around "Calculate " ""⟩,
   ⟨["determine"], .computation, .around "Calculate " ""⟩,
   ⟨["process"], .computation, .around "Process " ""⟩,
   ⟨["manage"], .computation, .around "Process " ""⟩,
   ⟨["count"], .computation, .around "Count " ""⟩,
   ⟨["find"], .search, .around "Find " ""⟩,
   ⟨["search"], .search, .around "Find " ""⟩,
   ⟨["lookup"], .search, .around "Find " ""⟩,
   ⟨["locate"], .search, .around "Find " ""⟩,
   ⟨["filter"], .search, .around "Filter " ""⟩,
   ⟨["select"], .search, .around "Filter " ""⟩,
   ⟨["query"], .search, .around "Filter " ""⟩,
   ⟨["sort"], .ordering, .around "Sort " ""⟩,
   ⟨["order"], .ordering, .around "Sort " ""⟩,
   ⟨["arrange"], .ordering, .around "Sort " ""⟩,
   ⟨["rank"], .ordering, .around "Rank " ""⟩,
   ⟨["shuffle"], .ordering, .around "Shuffle " ""⟩,
   ⟨["parse"], .formatting, .around "Parse " ""⟩,
   ⟨["decode"], .formatting, .around "Parse " ""⟩,
   ⟨["extract"], .formatting, .around "Parse " ""⟩,
   ⟨["format"], .formatting, .around "Format " ""⟩,
   ⟨["encode"], .formatting, .around "Format " ""⟩,
   ⟨["serialize"], .formatting, .around "Format " ""⟩,
   ⟨["stringify"], .formatting, .around "Format " ""⟩,
   ⟨["convert"], .formatting, .around "Convert " ""⟩,
   ⟨["transform"], .formatting, .around "Convert " ""⟩,
   ⟨["map"], .formatting, .around "Convert " ""⟩,
   ⟨["to"], .formatting, .around "Convert to " ""⟩,
   ⟨["render"], .formatting, .around "Display " ""⟩,
   ⟨["draw"], .formatting, .around "Display " ""⟩,
   ⟨["display"], .formatting, .around "Display " ""⟩,
   ⟨["show"], .formatting, .around "Display " ""⟩,
   ⟨["print"], .formatting, .around "Display " ""⟩,
   ⟨["cache"], .caching, .around "Cache " ""⟩,
   ⟨["memoize"], .caching, .around "Cache " ""⟩,
   ⟨["invalidate"], .caching, .around "Invalidate cached " ""⟩,
   ⟨["evict"], .caching, .around "Evict " " from the cache"⟩,
   ⟨["spawn"], .concurrency, .around "Spawn " " concurrently"⟩,
   ⟨["schedule"], .concurrency, .around "Schedule " ""⟩,
   ⟨["acquire"], .concurrency, .around "Acquire " ""⟩,
   ⟨["release"], .concurrency, .around "Release " ""⟩,
   ⟨["lock"], .concurrency, .around "Lock " ""⟩,
   ⟨["unlock"], .concurrency, .around "Unlock " ""⟩,
   ⟨["wait"], .concurrency, .around "Wait for " ""⟩,
   ⟨["await"], .concurrency, .around "Wait for " ""⟩,
   ⟨["raise"], .errorHandling, .around "Raise " " error"⟩,
   ⟨["throw"], .errorHandling, .around "Raise " " error"⟩,
   ⟨["retry"], .errorHandling, .around "Retry " " after a failure"⟩,
   ⟨["recover"], .errorHandling, .around "Recover from " ""⟩,
   ⟨["log"], .logging, .around "Log " ""⟩,
   ⟨["debug"], .logging, .around "Log " " for debugging"⟩,
   ⟨["trace"], .logging, .around "Trace " ""⟩,
   ⟨["warn"], .logging, .around "Warn about " ""⟩,
   ⟨["test"], .testing, .around "Test " ""⟩,
   ⟨["mock"], .testing, .around "Mock " " for testing"⟩,
   ⟨["assert"], .testing, .around "Assert " ""⟩,
   ⟨["init"], .initialization, .around "Set up " ""⟩,
   ⟨["initialize"], .initialization, .around "Set up " ""⟩,
   ⟨["setup"], .initialization, .around "Set up " ""⟩,
   ⟨["configure"], .initialization, .around "Set up " ""⟩,
   ⟨["bootstrap"], .initialization, .around "Set up " ""⟩,
   ⟨["open"], .initialization, .around "Open " ""⟩,
   ⟨["connect"], .initialization, .around "Connect to " ""⟩,
   ⟨["start"], .initialization, .around "Start " ""⟩,
   ⟨["cleanup"], .cleanup, .around "Clean up " ""⟩,
   ⟨["dispose"], .cleanup, .around "Clean up " ""⟩,
   ⟨["teardown"], .cleanup, .around "Clean up " ""⟩,
   ⟨["reset"], .cleanup, .around "Reset " ""⟩,
   ⟨["free"], .cleanup, .around "Free " ""⟩,
   ⟨["close"], .cleanup, .around "Close " ""⟩,
   ⟨["disconnect"], .cleanup, .around "Disconnect from " ""⟩,
   ⟨["stop"], .cleanup, .around "Stop " ""⟩,
   ⟨["on"], .eventing, .around "Handle " " event"⟩,
   ⟨["handle"], .eventing, .around "Handle " ""⟩,
   ⟨["emit"], .eventing, .around "Trigger " " event"⟩,
   ⟨["trigger"], .eventing, .around "Trigger " " event"⟩,
   ⟨["fire"], .eventing, .around "Trigger " " event"⟩,
   ⟨["dispatch"], .eventing, .around "Dispatch " ""⟩,
   ⟨["notify"], .eventing, .around "Notify " ""⟩,
   ⟨["subscribe"], .eventing, .around "Subscribe to " ""⟩,
   ⟨["listen"], .eventing, .around "Listen for " ""⟩,
   ⟨["send"], .eventing, .around "Send " ""⟩,
   ⟨["post"], .eventing, .around "Send " " to server"⟩,
   ⟨["publish"], .eventing, .around "Publish " ""⟩,
   ⟨["define"], .dataModeling, .around "Define " ""⟩,
   ⟨["declare"], .dataModeling, .around "Declare " ""⟩]

/-- Words that tell the intent wherever they stand, with the description they give. -/
def keywords : List (List Text × Intent × Text) :=
  [(["sum", "total"], .computation, "Sum all values"),
   (["average", "mean", "avg"], .computation, "Calculate average"),
   (["count"], .computation, "Count the number of items"),
   (["login", "signin"], .validation, "Log user in"),
   (["logout", "signout"], .cleanup, "Log user out"),
   (["register", "signup"], .creation, "Register new user"),
   (["authentication", "authorization"], .validation, "Verify user credentials"),
   (["helper", "util", "utils"], .computation, "Helper function"),
   (["wrapper"], .computation, "Wrap function with extra logic"),
   (["decorator"], .computation, "Add functionality to function"),
   (["callback", "listener", "handler"], .eventing, "Respond to an event"),
   (["error", "errors", "exception"], .errorHandling, "Deal with errors"),
   (["logger"], .logging, "Record log output"),
   (["cache", "cached"], .caching, "Cache results for reuse"),
   (["worker", "thread", "task", "async"], .concurrency, "Run work concurrently"),
   (["model", "schema", "entity", "record"], .dataModeling, "Describe a data structure")]

/-- What follows the words of an opening. -/
def afterOpening? : List Text → List Text → Option (List Text)
  | [], words => some words
  | _ :: _, [] => none
  | o :: opening, w :: words => if o = w then afterOpening? opening words else none

/-- The first opening that fits, and the object phrase after it. -/
def opening? (words : List Text) : Option (Opening × Text) :=
  openings.findSome? fun o => (afterOpening? o.words words).map fun rest => (o, Text.join " " rest)

/-- An intent with the sentence that describes it. -/
structure Classification where
  intent : Intent
  description : Text
deriving Repr, DecidableEq

/-- What the words of an identifier tell. -/
def classifyWords? (words : List Text) : Option Classification :=
  match opening? words with
  | some (o, object) =>
    let object := if object.isEmpty then o.intent.defaultObject else object
    some ⟨o.intent, (o.template.fill object).trimEnd⟩
  | none =>
    (keywords.find? fun (hints, _, _) => words.any hints.contains).map
      fun (_, intent, description) => ⟨intent, description⟩

/-- What an identifier tells. -/
def classify? (name : Text) : Option Classification := classifyWords? (splitIdentifier name)

end Marginalia.Naming
