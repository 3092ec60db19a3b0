import Marginalia.Naming.Words
import Marginalia.Text.Pattern

/-!
# Sentences about loops

A loop over a collection is described by the form of the collection or, failing that, by a word of
the loop variable. A counting loop is described by its bounds if its header has the usual three
parts.
-/

namespace Marginalia.Sentence

/-- The number of characters up to which a piece of source is quoted in a sentence. -/
def quoteLimit : Nat := 50

/-- A piece of source as sentences quote it. -/
def quoted (t : Text) : Text := t.truncate quoteLimit

/-- The forms of collections that sentences tell apart. -/
inductive IterableForm where
  | indexRange
  | numericRange
  | keyValuePairs
  | keys
  | values
  | enumerate
  | zip
  | reversed
  | sorted
  | fileLines
deriving Repr, DecidableEq

namespace IterableForm

def name : IterableForm → Text
  | indexRange => "index_range"
  | numericRange => "numeric_range"
  | keyValuePairs => "key_value_pairs"
  | keys => "keys"
  | values => "values"
  | enumerate => "enumerate"
  | zip => "zip"
  | reversed => "reversed"
  | sorted => "sorted"
  | fileLines => "file_lines"

/-- Pieces of source of which one has to occur. -/
def marks : IterableForm → List Text
  | indexRange => ["range("]
  | numericRange => ["range("]
  | keyValuePairs => [".items()", "Object.entries("]
  | keys => [".keys()", "Object.keys("]
  | values => [".values()", "Object.values("]
  | enumerate => ["enumerate(", ".entries()"]
  | zip => ["zip("]
  | reversed => ["reversed("]
  | sorted => ["sorted("]
  | fileLines => ["readlines", "open("]

/-- Pieces of source that all have to occur as well. -/
def furtherMarks : IterableForm → List Text
  | indexRange => ["len("]
  | _ => []

def sentence : IterableForm → Text
  | indexRange => "Loop through each index position in the collection"
  | numericRange => "Repeat operation for each number in the range"
  | keyValuePairs => "Process each key-value pair in the dictionary"
  | keys => "Iterate through all dictionary keys"
  | values => "Iterate through all dictionary values"
  | enumerate => "Loop with both index number and value for each item"
  | zip => "Process multiple lists together element by element"
  | reversed => "Loop through items in reverse order"
  | sorted => "Loop through items in sorted order"
  | fileLines => "Read and process each line from the file"

/-- All forms, in the order in which they are tried. -/
def all : List IterableForm :=
  [indexRange, numericRange, keyValuePairs, keys, values, enumerate, zip, reversed, sorted,
   fileLines]

/-- Whether a collection has a form. -/
def fits (form : IterableForm) (iterable : Text) : Bool :=
  form.marks.any iterable.hasPart && form.furtherMarks.all iterable.hasPart

/-- The first form that a collection has. -/
def ofText? (iterable : Text) : Option IterableForm := all.find? (·.fits iterable)

end IterableForm

/-- Words of loop variables and the sentence each of them selects. -/
def targetSentences : List (List Text × Text) :=
  [(["user"], "Process each user in the collection"),
   (["item"], "Process each item one by one"),
   (["row"], "Process each row of data"),
   (["file"], "Process each file in the directory"),
   (["char", "letter"], "Process each character in the string"),
   (["word"], "Process each word in the text"),
   (["line"], "Process each line of text"),
   (["element", "elem"], "Process each element in the collection")]

/-- A word without the `s` of its plural. -/
def singular (word : Text) : Text := if word.endsWith "s" then word.dropLast else word

/-- The sentence that the words of a loop variable select, in the singular or plural. -/
def targetSentence? (words : List Text) : Option Text :=
  (targetSentences.find? fun (stems, _) =>
    words.any fun word => stems.contains word || stems.contains (singular word)).map (·.2)

/-- A loop over a collection. -/
def forLoop (target iterable : Text) : Text :=
  match IterableForm.ofText? iterable with
  | some form => form.sentence
  | none =>
    match targetSentence? (Naming.splitIdentifier target) with
    | some sentence => sentence
    | none => "Loop through each " ++ target.trim ++ " and perform operations"

/-- A loop with a condition. -/
def whileLoop (condition : Text) : Text :=
  if (["True", "true", "1"] : List Text).contains condition.trim then
    "Run continuously until explicitly stopped"
  else "Keep repeating until the condition becomes false"

section

open Pattern

/-- A variable and its start value at the end of a text. -/
def countingStart : Pattern :=
  group 1 word ++ blanks ++ "=" ++ blanks ++ group 2 (run1 fun c => c != ',' && c != ';') ++ finish

/-- A variable, a comparison and a bound that make up a text. -/
def countingBound : Pattern :=
  blanks ++ group 1 word ++ blanks ++ group 2 (oneOf ["<=", "<", ">=", ">", "!="]) ++ blanks
    ++ group 3 (shortRun1 isLineChar) ++ blanks ++ finish

/-- A counting loop whose start and condition speak of one variable. -/
def boundedCount? (header : Text) : Option Text :=
  match Text.splitOn ';' header with
  | [start, condition, _] =>
    match countingStart.find? start.trim, countingBound.matchStart? condition with
    | some (_, s), some c =>
      if s.group 1 == c.group 1 then
        let direction : Text := if (c.group 2).startsWith ">" then "down" else "up"
        some ("Count " ++ s.group 1 ++ " from " ++ (s.group 2).trim ++ " " ++ direction ++ " to "
          ++ quoted (c.group 3))
      else none
    | _, _ => none
  | _ => none

end

/-- A loop with a counter. -/
def countingLoop (header : Text) : Text :=
  (boundedCount? header).getD ("Repeat with a loop counter: " ++ quoted header)

/-- A loop that tests after its body. -/
def doWhile : Text := "Run the block once, then keep repeating while the condition holds"

end Marginalia.Sentence
