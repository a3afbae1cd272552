import Collector.Error
import Collector.Text.Character

/-!
# Calling conventions

A collector runs a function either once for all subjects or once for each subject. Which of the
two a function is written for is read off its text: the words `subjects` and `subject` between
its first parenthesis and the one that balances it. The scan is lexical: it knows of no comments
and no strings.
-/

namespace Collector

/-! ## Balanced parentheses -/

/-- Splits the text behind `depth + 1` open parentheses at the one that closes them all: what
stands before it and what stands behind it. -/
def splitBalanced : Nat → List Char → Option (List Char × List Char)
  | _, [] => none
  | depth, '(' :: rest =>
    (splitBalanced (depth + 1) rest).map fun (inside, after) => ('(' :: inside, after)
  | 0, ')' :: rest => some ([], rest)
  | depth + 1, ')' :: rest =>
    (splitBalanced depth rest).map fun (inside, after) => (')' :: inside, after)
  | depth, c :: rest =>
    (splitBalanced depth rest).map fun (inside, after) => (c :: inside, after)

/-- The number of bytes of a text in UTF-8. -/
def byteLength : List Char → Nat
  | [] => 0
  | c :: rest => c.utf8Size + byteLength rest

/-- The text from a byte offset on; `none` inside a character or beyond the end. -/
def dropBytes : List Char → Nat → Option (List Char)
  | text, 0 => some text
  | [], _ + 1 => none
  | c :: rest, n => if c.utf8Size ≤ n then dropBytes rest (n - c.utf8Size) else none

/-- The byte offset of the parenthesis that closes the one at byte `start`. -/
def closingParenthesis (text : List Char) (start : Nat) : Option Nat :=
  match dropBytes text start with
  | some ('(' :: rest) =>
    (splitBalanced 0 rest).map fun (inside, _) => start + 1 + byteLength inside
  | _ => none

/-- The text between the first parenthesis and the one that closes it. -/
def parameterList (text : List Char) : Option (List Char) :=
  match text.dropWhile (· != '(') with
  | '(' :: rest => (splitBalanced 0 rest).map Prod.fst
  | _ => none

/-! ## Words -/

/-- The words of a text: its longest runs of word characters, in order. -/
def words (text : List Char) : List (List Char) :=
  (text.splitBy fun a b => Text.isWordly a == Text.isWordly b).filter fun run =>
    run.all Text.isWordly

/-- The word for one subject. -/
def subjectWord : List Char := ['s', 'u', 'b', 'j', 'e', 'c', 't']

/-- The word for all subjects. -/
def subjectsWord : List Char := ['s', 'u', 'b', 'j', 'e', 'c', 't', 's']

/-! ## The convention -/

/-- How a collector runs a function. -/
inductive Convention where
  /-- Once, with all subjects. -/
  | batch
  /-- Once for each subject. -/
  | singleItem
  deriving DecidableEq

/-- Whether a function takes all subjects at once. -/
def Convention.isBulk : Convention → Bool
  | .batch => true
  | .singleItem => false

/-- Reads the convention off a parameter list: exactly one of the two words stands in it. -/
def Convention.ofParameters (parameters : List Char) : Outcome Convention :=
  let found := words parameters
  match found.contains subjectsWord, found.contains subjectWord with
  | true, false => .ok .batch
  | false, true => .ok .singleItem
  | true, true => .error .bothSubjects
  | false, false => .error .neitherSubject

/-- Reads the convention off the text of a function. -/
def classify (code : String) : Outcome Convention :=
  match parameterList code.toList with
  | some parameters => Convention.ofParameters parameters
  | none => .error .noParameterList

end Collector
