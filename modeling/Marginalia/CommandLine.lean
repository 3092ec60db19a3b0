import Marginalia.Commentary
import Marginalia.Config
import Marginalia.Files
import Marginalia.Repair

/-!
# The command line

Two commands: one prints a commented copy of a source, the other a mended one. Both read the
configuration first, and write a template for it where there is none in its usual place.
-/

namespace Marginalia.CommandLine

/-- What is to be done. -/
inductive Command where
  | annotate (file : Text) (language : Option Text) (detailed : Bool)
  | repair (file : Text)
deriving Repr, DecidableEq

/-- A command, and the path of the configuration if one is given. -/
structure Invocation where
  config : Option Text
  command : Command
deriving Repr, DecidableEq

/-! ## Reading arguments -/

/-- What arguments ask for. -/
inductive Asked where
  | run (invocation : Invocation)
  | help
  | version
  /-- Nothing that is understood. -/
  | unclear
deriving Repr, DecidableEq

/-- The options and the file given so far. -/
structure Given where
  config : Option Text
  language : Option Text
  detailed : Bool
  file : Option Text
deriving Repr, DecidableEq

/-- The names of the commands. -/
inductive Verb where
  | annotate
  | repair
deriving Repr, DecidableEq

def Verb.name : Verb → Text
  | annotate => "annotate"
  | repair => "repair"

def Verb.ofName? (name : Text) : Option Verb := [annotate, repair].find? (Verb.name · == name)

/-- Whether an argument is an option rather than a value. -/
def isOption (arg : Text) : Bool := arg.startsWith "-" && arg != ['-']

/-- For an option with a value, written behind an equality sign or as the next argument: the value,
and the arguments after it. -/
def optionValue? (name arg : Text) (rest : List Text) : Option (Option (Text × List Text)) :=
  if arg == name then
    match rest with
    | value :: rest => some (if isOption value then none else some (value, rest))
    | [] => some none
  else (Text.after? (name ++ "=") arg).map fun value => some (value, rest)

/-- Takes the file, of which there may be only one. -/
def takeFile? (g : Given) (arg : Text) : Option Given :=
  if g.file.isSome || arg.isEmpty then none else some { g with file := some arg }

/-- Takes arguments that are all files. -/
def takeFiles? (g : Given) : List Text → Option Given
  | [] => some g
  | arg :: rest => (takeFile? g arg).bind fun g => takeFiles? g rest

/-- Arguments that ask for help or were taken. -/
inductive Taken where
  | help
  | given (given : Given)
deriving Repr, DecidableEq

/-- Takes the arguments of a command, of which there are at most `fuel`; nothing if one is not
understood. -/
def takeArguments? (verb : Verb) : Nat → Given → List Text → Option Taken
  | _, g, [] => some (.given g)
  | 0, _, _ :: _ => none
  | fuel + 1, g, arg :: rest =>
    if arg == "--" then (takeFiles? g rest).map .given
    else if arg == "--help" || arg == "-h" then some .help
    else
      match optionValue? "--config" arg rest with
      | some none => none
      | some (some (value, rest)) =>
        if g.config.isSome then none
        else takeArguments? verb fuel { g with config := some value } rest
      | none =>
        match if verb = .annotate then optionValue? "--language" arg rest else none with
        | some none => none
        | some (some (value, rest)) =>
          if g.language.isSome then none
          else takeArguments? verb fuel { g with language := some value } rest
        | none =>
          if arg == "--detailed" && verb = .annotate then
            if g.detailed then none else takeArguments? verb fuel { g with detailed := true } rest
          else if isOption arg then none
          else (takeFile? g arg).bind fun g => takeArguments? verb fuel g rest

/-- What the arguments of a command ask for, after a path for the configuration or none. -/
def askedOf (verb : Verb) (config : Option Text) (args : List Text) : Asked :=
  match takeArguments? verb args.length ⟨none, none, false, none⟩ args with
  | none => .unclear
  | some .help => .help
  | some (.given g) =>
    match g.file with
    | none => .unclear
    | some file =>
      .run ⟨g.config.or config,
        match verb with
        | .annotate => .annotate file g.language g.detailed
        | .repair => .repair file⟩

/-- The commands that help can be asked about. -/
def explained : List Text := ["annotate", "repair", "serve", "mcp", "help"]

/-- What a request for help asks for: the program's, or that of one command. -/
def askedHelp : List Text → Asked
  | [] => .help
  | [name] => if explained.contains name then .help else .unclear
  | _ => .unclear

/-- What arguments ask for, after a path for the configuration or none. There are at most `fuel`
of them. -/
def askedAfter : Nat → Option Text → List Text → Asked
  | _, _, [] => .unclear
  | 0, _, _ :: _ => .unclear
  | fuel + 1, config, arg :: rest =>
    match Verb.ofName? arg with
    | some verb => askedOf verb config rest
    | none =>
      if arg == "--help" || arg == "-h" then .help
      else if arg == "help" then askedHelp rest
      else if arg == "--version" || arg == "-V" then .version
      else
        match optionValue? "--config" arg rest with
        | some (some (value, rest)) =>
          if config.isSome then .unclear else askedAfter fuel (some value) rest
        | _ => .unclear

/-- What arguments ask for. -/
def asked (args : List Text) : Asked := askedAfter args.length none args

/-! ## Carrying out commands -/

/-- The messages about a failure, from the outcome to the cause. -/
abbrev Failure := List Text

/-- What a run left behind. -/
structure Run where
  exitCode : Nat
  stdout : Text
  stderr : Text
  /-- The files that were written. -/
  created : List (Text × Text)
deriving Repr, DecidableEq

/-- A cause, with its number if there are several; its further lines are indented. -/
def causeLines (number : Option Nat) (message : Text) : Text :=
  let (head, margin) : Text × Text :=
    match number with
    | some n =>
      (List.replicate (5 - (Text.ofNat n).length) ' ' ++ Text.ofNat n ++ ": ", "       ")
    | none => ("    ", "    ")
  head ++ Text.join ("\n" ++ margin) message.lines

/-- The causes of a failure, numbered from `n`. -/
def numberedCauses (n : Nat) : List Text → List Text
  | [] => []
  | message :: rest => causeLines (some n) message :: numberedCauses (n + 1) rest

/-- The report about a failure. -/
def report : Failure → Text
  | [] => []
  | [message] => "Error: " ++ message ++ "\n"
  | [message, cause] => "Error: " ++ message ++ "\n\nCaused by:\n" ++ causeLines none cause ++ "\n"
  | message :: causes =>
    "Error: " ++ message ++ "\n\nCaused by:\n" ++ Text.unlines (numberedCauses 0 causes) ++ "\n"

/-- The content of a file, or a failure to read it. -/
def readFile (files : Files) (purpose path : Text) : Except Failure Text :=
  match files path with
  | .ok content => .ok content
  | .error e => .error [purpose ++ path, e.message]

/-- The configuration at a path, and the files that were written because there was none. -/
def configAt (files : Files) (path : Text) : Except Failure (Config × List (Text × Text)) :=
  match files path with
  | .error .missing | .error .notDirectory =>
    .ok (Config.standard,
      if path = Config.defaultPath then [(path, Config.standard.save)] else [])
  | found =>
    match readFile (fun _ => found) "failed to read config: " path with
    | .ok content => .ok (Config.load (some content), [])
    | .error e => .error ("Failed to load config" :: e)

/-- The language of a source: the one that is asked for, if it is switched on, or else the one that
goes with the extension of its path. -/
def languageFor (config : Config) (path : Text) : Option Text → Except Failure Language
  | some name =>
    match config.resolveLanguage name with
    | .ok l => .ok l
    | .error e => .error [e.message]
  | none =>
    match Files.extension? path with
    | none => .error ["Cannot guess the language of " ++ path ++ "; pass --language"]
    | some extension =>
      match Language.ofExtension? extension with
      | some l => .ok l
      | none => .error ["Unsupported file extension: ." ++ extension]

/-- The commented copy of a source. -/
def annotated (config : Config) (files : Files) (path : Text) (language : Option Text)
    (detailed : Bool) : Except Failure Text :=
  match readFile files "Failed to read " path with
  | .error e => .error e
  | .ok source =>
    match languageFor config path language with
    | .error e => .error e
    | .ok l =>
      match annotate l (if detailed then .detailed else config.verbosity) source with
      | .ok text => .ok text
      | .error e => .error ["Failed to annotate " ++ path, e.message]

/-- Carries out a command: what it prints to its two outputs. Nothing if it does not come to an
end. -/
def perform (config : Config) (files : Files) : Command → Option (Except Failure (Text × Text))
  | .annotate path language detailed =>
    some ((annotated config files path language detailed).map fun text => (text, []))
  | .repair path =>
    match readFile files "Failed to read " path with
    | .error e => some (.error e)
    | .ok source =>
      (Repair.repair? source).map fun o =>
        .ok (o.text, (Repair.report o.changes).flatMap fun change => change ++ "\n")

/-- The path of the configuration. -/
def Invocation.configPath (i : Invocation) : Text :=
  match i.config with
  | none | some [] => Config.defaultPath
  | some path => path

/-- The path of the source. -/
def Invocation.sourcePath (i : Invocation) : Text :=
  match i.command with
  | .annotate path _ _ => path
  | .repair path => path

/-- Runs an invocation on files. Nothing if it does not come to an end. -/
def run? (files : Files) (i : Invocation) : Option Run :=
  match configAt files i.configPath with
  | .error e => some ⟨1, [], report e, []⟩
  | .ok (config, created) =>
    match config.fault? with
    | some fault => some ⟨1, [], report ("Invalid configuration" :: fault.messages), created⟩
    | none =>
      let files := created.foldl (fun files (path, content) => files.written path content) files
      (perform config files i.command).map fun
        | .ok (stdout, stderr) => ⟨0, stdout, stderr, created⟩
        | .error e => ⟨1, [], report e, created⟩

end Marginalia.CommandLine
