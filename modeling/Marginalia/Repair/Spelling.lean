import Marginalia.Repair.Change
import Marginalia.Text.Substitution

/-!
# Spelling

Entities that markup left in the text are decoded, and words from a table of misspellings are
corrected, wherever they stand. An ampersand is not decoded if it would then start another entity,
so that decoding twice is decoding once.
-/

namespace Marginalia.Repair

/-- The known entities and what they stand for. -/
def entities : List (Text × Text) :=
  [("&quot;", "\""), ("&apos;", "'"), ("&#39;", "'"), ("&amp;", "&"), ("&lt;", "<"), ("&gt;", ">")]

/-- Whether an ampersand before a text would start an entity. -/
def completesEntity (t : Text) : Bool :=
  entities.any fun (entity, _) => t.startsWith (entity.drop 1)

/-- Decodes an entity, unless an ampersand came out that would start another one. -/
def entityRule : Rule := fun _ t =>
  match entities.find? fun (entity, _) => t.startsWith entity with
  | some (entity, plain) =>
    if plain == "&" && completesEntity (t.drop entity.length) then none
    else some (entity.length, plain)
  | none => none

/-- A text with its entities decoded. -/
def decodeEntities (t : Text) : Text := t.substitute entityRule

/-- Misspelt words and their corrections. -/
def typos : List (Text × Text) :=
  [("retrn", "return"), ("reutrn", "return"), ("retun", "return"), ("pirnt", "print"),
   ("prnit", "print"), ("pritn", "print"), ("__innit__", "__init__"), ("__iinit__", "__init__"),
   ("slef", "self"), ("improt", "import"), ("sqroot", "sqrt"), ("Ture", "True"),
   ("Flase", "False"), ("Nnoe", "None"), ("whlie", "while"), ("esle", "else"), ("elfi", "elif")]

/-- Corrects one misspelling. -/
def correct (o : Outcome) (typo : Text × Text) : Outcome :=
  match o.text.substitute? (.word typo.1 typo.2) with
  | some text => ⟨text, o.changes ++ [.typo typo.1 typo.2]⟩
  | none => o

/-- Decodes entities, then corrects misspellings. -/
def spelling (text : Text) : Outcome :=
  let decoded := decodeEntities text
  typos.foldl correct ⟨decoded, if decoded = text then [] else [.entities]⟩

end Marginalia.Repair
