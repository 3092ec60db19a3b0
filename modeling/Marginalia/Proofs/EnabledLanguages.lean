import Marginalia.CommandLine
import Marginalia.Proofs.AnnotationLines
import Marginalia.Proofs.WrittenStrings
import Marginalia.Tools
import Marginalia.Web

/-!
# Languages that are switched off

Code is commented on the web, by a tool and on the command line. Wherever the language is named, it
has to be switched on. Only the command line comments code in a language that is switched off: the
one that goes with the extension of a path is not looked up in the configuration.
-/

namespace Marginalia

/-! ## Where a language is named -/

lemma Config.resolveLanguage_eq_ok {config : Config} {name : Text} {l : Language}
    (h : config.resolveLanguage name = .ok l) :
    Language.ofName? name = some l ∧ l ∈ config.languages := by
  unfold Config.resolveLanguage at h
  split at h
  · next hname =>
    split at h
    · next hcontains =>
      obtain rfl := Except.ok.inj h
      exact ⟨hname, List.contains_iff_mem.mp hcontains⟩
    · cases h
  · cases h

/-- Objects differ whose first members have different keys. -/
lemma Json.object_ne_of_key {key key' : Text} {value value' : Json} {rest rest' : List (Text × Json)}
    (hkey : key ≠ key') : object ((key, value) :: rest) ≠ object ((key', value') :: rest') :=
  fun h => hkey (Prod.mk.inj (List.cons.inj (object.inj h)).1).1

namespace Service

/-- Code that was commented is in a language that is switched on. -/
lemma analyze_eq_commented {config : Config} {request : AnalyzeRequest} {text : Text}
    (h : analyze config request = ⟨text, none⟩) :
    ∃ l, Language.ofName? request.language = some l ∧ l ∈ config.languages ∧
      annotate l (verbosityFor config request.detailed) request.code = .ok text := by
  unfold analyze at h
  split at h
  · cases h
  · split at h
    · cases h
    · next l hresolve =>
      split at h
      · cases h
      · next text' hannotate =>
        obtain ⟨rfl, -⟩ := AnalyzeResponse.mk.inj h
        obtain ⟨hname, hon⟩ := Config.resolveLanguage_eq_ok hresolve
        exact ⟨l, hname, hon, hannotate⟩

lemma commented_of_toJson {response : AnalyzeResponse} {text : Text}
    (h : response.toJson = AnalyzeResponse.toJson ⟨text, none⟩) : response = ⟨text, none⟩ := by
  obtain ⟨code, failure⟩ := response
  obtain ⟨hcode, houtcome⟩ := List.cons.inj (Json.object.inj h)
  obtain rfl := Json.string.inj (Prod.mk.inj hcode).2
  cases failure with
  | none => rfl
  | some e => cases (List.cons.inj houtcome).2

lemma document_toJson (response : AnalyzeResponse) :
    response.toJson.document = "\x7b" ++ Json.newline 1 ++ Json.quoted "commented_code" ++ ": " ++
      (Json.quoted response.code ++
        (Json.prettyMembers 0 (outcomeMembers response.failure) ++ "\x7d")) := by
  rw [← List.append_assoc, ← List.append_assoc]
  rfl

lemma prettyMembers_outcomeMembers (failure : Option Failure) :
    Json.prettyMembers 0 (outcomeMembers failure) =
      ("," ++ Json.newline 1 ++ Json.quoted "success" ++ ": " : Text) ++
        match failure with
        | none => "true" ++ Json.newline 0
        | some e => "false" ++ Json.prettyMembers 0 [("error", .string e.message)] := by
  cases failure <;> exact List.append_assoc _ _ _

lemma commented_of_document {response : AnalyzeResponse} {text : Text}
    (h : response.toJson.document = (AnalyzeResponse.toJson ⟨text, none⟩).document) :
    response = ⟨text, none⟩ := by
  obtain ⟨code, failure⟩ := response
  rw [document_toJson, document_toJson] at h
  -- The string tells where it ends, so what stands behind it can be compared.
  obtain ⟨rfl, houtcome⟩ := Json.quoted_append_inj (List.append_cancel_left h)
  cases failure with
  | none => rfl
  | some e =>
    rw [prettyMembers_outcomeMembers, prettyMembers_outcomeMembers] at houtcome
    have hvalue := List.append_cancel_left (List.append_cancel_right houtcome)
    exact absurd (List.cons.inj hvalue).1 (by decide)

end Service

namespace Web

lemma answerBody_eq_some {α : Type} {request : Request}
    {decode : Json → Except Json.DecodeError α} {answer : α → Option Json} {j : Json}
    (h : answerBody request decode answer = some ⟨200, some j⟩) :
    ∃ a, decode (Json.read request.body).1 = .ok a ∧ answer a = some j := by
  unfold answerBody at h
  split at h
  · cases h
  · split at h
    · cases h
    · split at h
      · next e _ => cases e <;> cases h
      · next a hdecode =>
        obtain ⟨j', hanswer, heq⟩ := Option.map_eq_some_iff.mp h
        obtain ⟨-, rfl⟩ : 200 = 200 ∧ j' = j := by simpa using heq
        exact ⟨a, hdecode, hanswer⟩

/-- Commented text is sent for a request to comment code, and for no other. -/
lemma answer_eq_commented {config : Config} {request : Request} {text : Text}
    (h : answer config request =
      some ⟨200, some (Service.AnalyzeResponse.toJson ⟨text, none⟩)⟩) :
    ∃ r, Service.AnalyzeRequest.ofJson (Json.read request.body).1 = .ok r ∧
      Service.analyze config r = ⟨text, none⟩ := by
  unfold answer at h
  split at h
  · cases h
  · split at h
    · next route _ =>
      unfold Route.answer at h
      split at h
      · split at h
        · have hjson := Option.some.inj (Response.mk.inj (Option.some.inj h)).2
          exact absurd hjson (Json.object_ne_of_key (by decide))
        · simp [bare] at h
      · split at h
        · obtain ⟨r, hdecode, hanswer⟩ := answerBody_eq_some h
          exact ⟨r, hdecode, Service.commented_of_toJson (Option.some.inj hanswer)⟩
        · cases h
      · split at h
        · obtain ⟨r, -, hanswer⟩ := answerBody_eq_some h
          obtain ⟨response, -, hjson⟩ := Option.map_eq_some_iff.mp hanswer
          exact absurd hjson (Json.object_ne_of_key (by decide))
        · cases h
    · cases h

end Web

namespace Tools

lemma call_eq_commented {config : Config} {arguments : Json} {text : Text}
    (h : call config "annotate_code" arguments =
      some (.ok ⟨false, (Service.AnalyzeResponse.toJson ⟨text, none⟩).document⟩)) :
    ∃ given code, arguments.members?.map (Json.decodeMembers annotateFields [] ⟨none, none, none⟩) =
        some (.ok given) ∧ given.code = some code ∧
      Service.analyze config ⟨code, given.language.getD Service.standardLanguage, given.detailed⟩ =
        ⟨text, none⟩ := by
  have hfind : Tool.all.find? (·.name == ("annotate_code" : Text)) = some .annotateCode := by decide
  unfold call at h
  rw [hfind] at h
  dsimp only at h
  split at h
  · next given hdecode =>
    split at h
    · cases h
    · next code hcode =>
      split at h
      · cases h
      · obtain ⟨j, hj, hanswer⟩ := Option.map_eq_some_iff.mp h
        obtain rfl := Option.some.inj hj
        have hdocument := (Answer.mk.inj (Except.ok.inj hanswer)).2
        exact ⟨given, code, hdecode, hcode, Service.commented_of_document hdocument⟩
  · cases h

end Tools

namespace CommandLine

lemma languageFor_eq_ok {config : Config} {path : Text} {language : Option Text} {l : Language}
    (h : languageFor config path language = .ok l) :
    (∃ name, language = some name ∧ Language.ofName? name = some l ∧ l ∈ config.languages) ∨
      language = none ∧ (Files.extension? path).bind Language.ofExtension? = some l := by
  unfold languageFor at h
  split at h
  · next name =>
    split at h
    · next l' hresolve =>
      obtain rfl := Except.ok.inj h
      obtain ⟨hname, hon⟩ := Config.resolveLanguage_eq_ok hresolve
      exact .inl ⟨name, rfl, hname, hon⟩
    · cases h
  · split at h
    · cases h
    · next extension hextension =>
      split at h
      · next l' hl =>
        obtain rfl := Except.ok.inj h
        exact .inr ⟨rfl, by rw [hextension]; exact hl⟩
      · cases h

lemma languageFor_none {config : Config} {path : Text} {l : Language}
    (h : (Files.extension? path).bind Language.ofExtension? = some l) :
    languageFor config path none = .ok l := by
  obtain ⟨extension, hextension, hl⟩ := Option.bind_eq_some_iff.mp h
  simp only [languageFor, hextension, hl]

lemma content_of_readFile {files : Files} {purpose path content : Text}
    (h : readFile files purpose path = .ok content) : files path = .ok content := by
  unfold readFile at h
  split at h
  · next hfile => rwa [Except.ok.inj h] at hfile
  · cases h

lemma annotated_eq_ok {config : Config} {files : Files} {path text : Text}
    {language : Option Text} {detailed : Bool} :
    annotated config files path language detailed = .ok text ↔
      ∃ source l, files path = .ok source ∧ languageFor config path language = .ok l ∧
        annotate l (if detailed then .detailed else config.verbosity) source = .ok text := by
  constructor
  · intro h
    unfold annotated at h
    split at h
    · cases h
    · next source hread =>
      split at h
      · cases h
      · next l hlanguage =>
        split at h
        · next text' hannotate =>
          obtain rfl := Except.ok.inj h
          exact ⟨source, l, content_of_readFile hread, hlanguage, hannotate⟩
        · cases h
  · rintro ⟨source, l, hfile, hlanguage, hannotate⟩
    simp only [annotated, readFile, hfile, hlanguage, hannotate]

lemma perform_annotate_eq {config : Config} {files : Files} {path text : Text}
    {language : Option Text} {detailed : Bool} :
    perform config files (.annotate path language detailed) = some (.ok (text, [])) ↔
      annotated config files path language detailed = .ok text := by
  have hperform : perform config files (.annotate path language detailed) =
      some ((annotated config files path language detailed).map fun text => (text, [])) := rfl
  rw [hperform]
  cases annotated config files path language detailed with
  | error e => simp [Except.map]
  | ok text' => simp [Except.map]

end CommandLine

/-! ## Where code is commented -/

/-- A way to have code commented. -/
inductive Entry where
  | web (request : Web.Request)
  | tool (arguments : Json)
  | commandLine (files : Files) (path : Text) (language : Option Text) (detailed : Bool)

namespace Entry

/-- Whether a text is given back as the commented code. -/
def Gives (config : Config) (text : Text) : Entry → Prop
  | web request => Web.answer config request =
      some ⟨200, some (Service.AnalyzeResponse.toJson ⟨text, none⟩)⟩
  | tool arguments => Tools.call config "annotate_code" arguments =
      some (.ok ⟨false, (Service.AnalyzeResponse.toJson ⟨text, none⟩).document⟩)
  | commandLine files path language detailed =>
    CommandLine.perform config files (.annotate path language detailed) = some (.ok (text, []))

/-- The request to comment code that a request on the web or a call of a tool makes. -/
def request? : Entry → Option Service.AnalyzeRequest
  | web request => (Service.AnalyzeRequest.ofJson (Json.read request.body).1).toOption
  | tool arguments =>
    match arguments.members?.map (Json.decodeMembers Tools.annotateFields [] ⟨none, none, none⟩) with
    | some (.ok given) => given.code.map fun code =>
        ⟨code, given.language.getD Service.standardLanguage, given.detailed⟩
    | _ => none
  | commandLine .. => none

/-- Whether it is asked for some code to be commented in a language that is named, in whatever
spelling, or goes with the extension of a path. -/
def Asks (config : Config) (l : Language) (v : Commentary.Verbosity) (source : Text)
    (entry : Entry) : Prop :=
  match entry with
  | commandLine files path language detailed =>
    (match language with
      | some name => Language.ofName? name
      | none => (Files.extension? path).bind Language.ofExtension?) = some l ∧
    (if detailed then .detailed else config.verbosity) = v ∧ files path = .ok source
  | _ => ∃ r, entry.request? = some r ∧ Language.ofName? r.language = some l ∧
    Service.verbosityFor config r.detailed = v ∧ r.code = source

/-- Whether the language is guessed from the extension of a path. -/
def Guesses : Entry → Prop
  | commandLine _ _ none _ => True
  | _ => False

variable {config : Config} {entry : Entry} {text : Text}

/-- What is given back is the code that was to be commented, commented in the language that was asked
for. Unless that was guessed, it is switched on. -/
lemma asks_of_gives (h : entry.Gives config text) :
    ∃ l v source, entry.Asks config l v source ∧ annotate l v source = .ok text ∧
      (l ∈ config.languages ∨ entry.Guesses) := by
  cases entry with
  | web request =>
    obtain ⟨r, hdecode, hanalyze⟩ := Web.answer_eq_commented h
    obtain ⟨l, hname, hon, hannotate⟩ := Service.analyze_eq_commented hanalyze
    exact ⟨l, _, _, ⟨r, by rw [request?, hdecode]; rfl, hname, rfl, rfl⟩, hannotate, .inl hon⟩
  | tool arguments =>
    obtain ⟨given, code, hdecode, hcode, hanalyze⟩ := Tools.call_eq_commented h
    obtain ⟨l, hname, hon, hannotate⟩ := Service.analyze_eq_commented hanalyze
    refine ⟨l, _, _, ⟨_, ?_, hname, rfl, rfl⟩, hannotate, .inl hon⟩
    rw [request?, hdecode]
    simp only [hcode, Option.map_some]
  | commandLine files path language detailed =>
    obtain ⟨source, l, hfile, hlanguage, hannotate⟩ :=
      CommandLine.annotated_eq_ok.mp (CommandLine.perform_annotate_eq.mp h)
    rcases CommandLine.languageFor_eq_ok hlanguage with ⟨name, rfl, hname, hon⟩ | ⟨rfl, hextension⟩
    · exact ⟨l, _, source, ⟨hname, rfl, hfile⟩, hannotate, .inl hon⟩
    -- Nothing tells here whether the language is switched on.
    · exact ⟨l, _, source, ⟨hextension, rfl, hfile⟩, hannotate, .inr trivial⟩

lemma asks_unique {l l' : Language} {v v' : Commentary.Verbosity} {source source' : Text}
    (h : entry.Asks config l v source) (h' : entry.Asks config l' v' source') :
    l = l' ∧ v = v' ∧ source = source' := by
  cases entry with
  | commandLine files path language detailed =>
    obtain ⟨hl, rfl, hfile⟩ := h
    obtain ⟨hl', rfl, hfile'⟩ := h'
    exact ⟨Option.some.inj (hl.symm.trans hl'), rfl, Except.ok.inj (hfile.symm.trans hfile')⟩
  | web request =>
    obtain ⟨r, hr, hl, rfl, rfl⟩ := h
    obtain ⟨r', hr', hl', rfl, rfl⟩ := h'
    obtain rfl := Option.some.inj (hr.symm.trans hr')
    exact ⟨Option.some.inj (hl.symm.trans hl'), rfl, rfl⟩
  | tool arguments =>
    obtain ⟨r, hr, hl, rfl, rfl⟩ := h
    obtain ⟨r', hr', hl', rfl, rfl⟩ := h'
    obtain rfl := Option.some.inj (hr.symm.trans hr')
    exact ⟨Option.some.inj (hl.symm.trans hl'), rfl, rfl⟩

/-- A guessed language is as good as any. -/
lemma gives_of_guesses {l : Language} {v : Commentary.Verbosity} {source : Text}
    (hguesses : entry.Guesses) (hasks : entry.Asks config l v source)
    (hannotate : annotate l v source = .ok text) : entry.Gives config text := by
  cases entry with
  | web request => exact hguesses.elim
  | tool arguments => exact hguesses.elim
  | commandLine files path language detailed =>
    cases language with
    | some name => exact hguesses.elim
    | none =>
      obtain ⟨hextension, rfl, hfile⟩ := hasks
      refine CommandLine.perform_annotate_eq.mpr (CommandLine.annotated_eq_ok.mpr ?_)
      exact ⟨source, l, hfile, CommandLine.languageFor_none hextension, hannotate⟩

/-- Wherever commented code is given back, it is what was to be commented. It is in a language that
is switched off exactly where that was guessed from the extension of a path. -/
theorem gives_disabled_iff (config : Config) (entry : Entry) (text : Text) :
    (entry.Gives config text →
      ∃ l v source, entry.Asks config l v source ∧ annotate l v source = .ok text) ∧
    ∀ l v source, entry.Gives config text ∧ entry.Asks config l v source ∧ l ∉ config.languages ↔
      entry.Guesses ∧ entry.Asks config l v source ∧ annotate l v source = .ok text ∧
        l ∉ config.languages := by
  constructor
  · intro h
    obtain ⟨l, v, source, hasks, hannotate, -⟩ := asks_of_gives h
    exact ⟨l, v, source, hasks, hannotate⟩
  · intro l v source
    constructor
    · rintro ⟨h, hasks, hoff⟩
      obtain ⟨l', v', source', hasks', hannotate, hon⟩ := asks_of_gives h
      obtain ⟨rfl, rfl, rfl⟩ := asks_unique hasks hasks'
      exact ⟨hon.resolve_left hoff, hasks, hannotate, hoff⟩
    · rintro ⟨hguesses, hasks, hannotate, hoff⟩
      exact ⟨gives_of_guesses hguesses hasks hannotate, hasks, hoff⟩

end Entry

/-- A script is commented where nothing but Python is switched on. -/
theorem run_comments_disabled :
    let config : Text := "\x7b\"enabled_languages\": [\"python\"]\x7d"
    let files := Files.ofList [("codenotes.json", config), ("a.js", "import 'x';\n")]
    (Config.load (some config)).languages = [.python] ∧
      CommandLine.run? files ⟨none, .annotate "a.js" none false⟩ =
        some ⟨0, "// Load the x library for use in this code\nimport 'x';\n", [], []⟩ := by
  decide +kernel

end Marginalia
