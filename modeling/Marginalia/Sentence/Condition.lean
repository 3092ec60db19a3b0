import Marginalia.Sentence.Loop
import Marginalia.Text.Substitution

/-!
# Sentences about conditions

A condition is described by the first of a list of forms that it has. Forms look at words and
calls that occur in the condition and at the comparisons it makes.
-/

namespace Marginalia.Sentence

/-- The comparisons that sentences tell apart; strict equality counts as equality. -/
inductive Comparison where
  | equal
  | unequal
  | atLeast
  | atMost
  | greater
  | less
deriving Repr, DecidableEq

/-- A comparison in a condition, with what stands to its left and to its right. -/
structure Comparing where
  comparison : Comparison
  left : Text
  right : Text
deriving Repr, DecidableEq

/-- The comparisons of a text, from the left; `passed` is what stands before it, in reverse. -/
def comparingsAfter (passed : Text) : Text → List Comparing
  | [] => []
  | '=' :: '=' :: '=' :: rest =>
    ⟨.equal, passed.reverse, rest⟩ :: comparingsAfter ('=' :: '=' :: '=' :: passed) rest
  | '!' :: '=' :: '=' :: rest =>
    ⟨.unequal, passed.reverse, rest⟩ :: comparingsAfter ('=' :: '=' :: '!' :: passed) rest
  | '=' :: '=' :: rest =>
    ⟨.equal, passed.reverse, rest⟩ :: comparingsAfter ('=' :: '=' :: passed) rest
  | '!' :: '=' :: rest =>
    ⟨.unequal, passed.reverse, rest⟩ :: comparingsAfter ('=' :: '!' :: passed) rest
  | '>' :: '=' :: rest =>
    ⟨.atLeast, passed.reverse, rest⟩ :: comparingsAfter ('=' :: '>' :: passed) rest
  | '<' :: '=' :: rest =>
    ⟨.atMost, passed.reverse, rest⟩ :: comparingsAfter ('=' :: '<' :: passed) rest
  | '>' :: rest => ⟨.greater, passed.reverse, rest⟩ :: comparingsAfter ('>' :: passed) rest
  | '<' :: rest => ⟨.less, passed.reverse, rest⟩ :: comparingsAfter ('<' :: passed) rest
  | c :: rest => comparingsAfter (c :: passed) rest

/-- A condition as it is looked at: as written, without margins and with plain dots for member
access, and the same in lower case. -/
structure Condition where
  raw : Text
  plain : Text
  lower : Text
  comparings : List Comparing

namespace Condition

def ofText (raw : Text) : Condition :=
  let plain := raw.trim.substitute (.literal "->" ".")
  ⟨raw, plain, plain.lower, comparingsAfter [] plain⟩

/-- Whether a comparison is made. -/
def compares (c : Condition) (comparison : Comparison) : Bool :=
  c.comparings.any (·.comparison == comparison)

/-- Whether one of some pieces occurs. -/
def mentions (c : Condition) (parts : List Text) : Bool := parts.any c.plain.hasPart

/-- Whether one of some pieces occurs, in whatever case. -/
def mentionsLower (c : Condition) (parts : List Text) : Bool := parts.any c.lower.hasPart

/-- Whether one of some words occurs as a whole. -/
def hasWord (c : Condition) (words : List Text) : Bool :=
  (Text.fields (fun ch => !isWordChar ch) c.plain).any words.contains

/-- The sides of a comparison that is made once. -/
def sides? (c : Condition) (comparison : Comparison) : Option (Text × Text) :=
  match c.comparings.filter (·.comparison == comparison) with
  | [found] =>
    let isMark (ch : Char) : Bool := ch == '"' || ch == '\''
    some (quoted found.left.trim,
      quoted (Text.dropEnd isMark (found.right.trim.dropWhile isMark)))
  | _ => none

end Condition

/-- The forms of conditions that sentences tell apart. -/
inductive ConditionForm where
  | mainGuard
  | nullCheck
  | length
  | typeCheck
  | attributeCheck
  | existence
  | validity
  | errorFlag
  | successFlag
  | authenticated
  | authorized
  | equality
  | inequality
  | atLeast
  | atMost
  | greater
  | less
  | conjunction
  | disjunction
  | negation
  | boolLiteral
deriving Repr, DecidableEq

namespace ConditionForm

def name : ConditionForm → Text
  | mainGuard => "main_guard"
  | nullCheck => "null_check"
  | length => "length"
  | typeCheck => "type_check"
  | attributeCheck => "attribute_check"
  | existence => "exists"
  | validity => "valid"
  | errorFlag => "error_flag"
  | successFlag => "success_flag"
  | authenticated => "authenticated"
  | authorized => "authorized"
  | equality => "equality"
  | inequality => "inequality"
  | atLeast => "at_least"
  | atMost => "at_most"
  | greater => "greater"
  | less => "less"
  | conjunction => "conjunction"
  | disjunction => "disjunction"
  | negation => "negation"
  | boolLiteral => "bool_literal"

/-- All forms, in the order in which they are tried. -/
def all : List ConditionForm :=
  [mainGuard, nullCheck, length, typeCheck, attributeCheck, existence, validity, errorFlag,
   successFlag, authenticated, authorized, equality, inequality, atLeast, atMost, greater, less,
   conjunction, disjunction, negation, boolLiteral]

/-- A sentence, on a condition. -/
def when (holds : Bool) (sentence : Text) : Option Text := if holds then some sentence else none

/-- The sentence for a condition that has a form. -/
def sentence? (form : ConditionForm) (c : Condition) : Option Text :=
  match form with
  | mainGuard =>
    when (c.raw.hasPart "__name__" && c.raw.hasPart "__main__")
      "Execute this code only when script runs directly, not when imported as module"
  | nullCheck =>
    if c.hasWord ["None", "null", "NULL", "nullptr", "undefined"] then
      if c.mentionsLower ["is not"] || c.compares .unequal then
        some "Proceed only if value exists and is not empty"
      else some "Handle case when value is empty or not set"
    else none
  | length =>
    if c.mentions ["len(", ".length", ".size()", "strlen("] then
      if c.compares .greater || c.compares .atLeast then
        some "Check if collection has items before processing"
      else if c.compares .equal && c.plain.contains '0' then some "Check if collection is empty"
      else some "Check the size of the collection before continuing"
    else none
  | typeCheck =>
    when (c.mentions ["isinstance(", "typeof ", " instanceof "])
      "Verify object is of correct type before using"
  | attributeCheck =>
    when (c.mentions ["hasattr(", "hasOwnProperty("]) "Check if object has required attribute"
  | existence =>
    when (c.mentionsLower [".exists()", "exists("])
      "Check if file or resource exists before accessing"
  | validity =>
    when (c.mentionsLower ["is_valid", "isvalid"]) "Verify data passes validation rules"
  | errorFlag =>
    when (c.mentionsLower ["error", "exception"]) "Handle error condition if it occurred"
  | successFlag =>
    when (c.mentionsLower ["success"]) "Proceed if operation completed successfully"
  | authenticated =>
    when (c.mentionsLower ["authenticated", "logged_in", "loggedin"])
      "Check if user is logged in before allowing access"
  | authorized =>
    when (c.mentionsLower ["authorized", "permission"])
      "Verify user has permission to perform action"
  | equality =>
    (c.sides? .equal).map fun (left, right) =>
      "Check if " ++ left ++ " matches expected value " ++ right
  | inequality =>
    (c.sides? .unequal).map fun (left, right) =>
      "Check if " ++ left ++ " is different from " ++ right
  | atLeast => when (c.compares .atLeast) "Proceed if value meets or exceeds minimum"
  | atMost => when (c.compares .atMost) "Proceed if value is at or below maximum"
  | greater => when (c.compares .greater) "Proceed if value exceeds threshold"
  | less => when (c.compares .less) "Proceed if value is below threshold"
  | conjunction =>
    when (c.mentionsLower [" and "] || c.mentions ["&&"])
      "Proceed only if all conditions are satisfied"
  | disjunction =>
    when (c.mentionsLower [" or "] || c.mentions ["||"])
      "Proceed if any of the conditions is true"
  | negation =>
    when (c.plain.startsWith "not " || c.plain.startsWith "!") "Proceed if condition is false"
  | boolLiteral =>
    if c.plain == "True" || c.plain == "true" then
      some "Always execute this block"
    else if c.plain == "False" || c.plain == "false" then
      some "Always skip this block"
    else none

/-- The first form that a condition has, with its sentence. -/
def first? (c : Condition) : Option (ConditionForm × Text) :=
  all.findSome? fun form => (form.sentence? c).map fun s => (form, s)

/-- The first form that a condition has. -/
def ofText? (condition : Text) : Option ConditionForm :=
  (first? (.ofText condition)).map (·.1)

end ConditionForm

/-- A branch on a condition. -/
def conditional (condition : Text) : Text :=
  match ConditionForm.first? (.ofText condition) with
  | some (_, sentence) => sentence
  | none => "Check condition before proceeding with operation"

/-- A choice between labelled branches. -/
def switch (subject : Text) : Text := "Choose a branch based on the value of " ++ quoted subject

/-- A labelled branch. -/
def case (label : Option Text) : Text :=
  match label with
  | some label => "Handle the case where the value is " ++ quoted label
  | none => "Handle any value not matched by the cases above"

end Marginalia.Sentence
