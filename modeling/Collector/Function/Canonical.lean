import Collector.Error
import Collector.Function.Convention
import Collector.Function.Name
import Collector.Script.Reader

/-!
# The canonical form of functions

Authors write functions as methods, as function expressions and as arrow functions. Everything
that is done with a function later starts from one form, `function name(params)body`.
-/

namespace Collector

open Script

/-- A function in canonical form, by its parts. The body has its braces. -/
structure Canonical where
  name : String
  params : String
  body : String

namespace Canonical

/-- The text of a function in canonical form. -/
def text (c : Canonical) : String :=
  "function " ++ c.name ++ "(" ++ c.params ++ ")" ++ c.body

/-! ## Parts -/

/-- A text without blanks around it. -/
def trimmed (text : String) : String := String.ofList (Text.trim text.toList)

/-- A parameter list without blanks around it and without the parentheses around all of it. -/
def bareParameters (params : String) : String :=
  let text := Text.trim params.toList
  match text with
  | '(' :: rest =>
    match splitBalanced 0 rest with
    | some (inside, []) => String.ofList inside
    | _ => String.ofList text
  | _ => String.ofList text

/-- The parts of a function that is not an arrow function. -/
def ofFunction (name : String) (f : Function) : Outcome Canonical :=
  if f.isAsync || f.isGenerator then .error (.asyncOrGenerator name)
  else .ok ⟨name, bareParameters f.paramsText, f.body.block⟩

/-- A body that answers the value of an expression. -/
def answering (valueText : String) : String := "\x7breturn (" ++ valueText ++ ");\x7d"

/-- The parts of an arrow function. -/
def ofArrow (name : String) (valueText : Option String) (f : Function) : Outcome Canonical :=
  if f.isAsync then .error (.asyncArrow name)
  else
    let body := match valueText with
      | some text => answering text
      | none => f.body.block
    .ok ⟨name, bareParameters f.paramsText, body⟩

/-- The parts of a function expression or an arrow function, perhaps in parentheses. -/
def ofExpr? (name : String) (e : Expr) : Option (Outcome Canonical) :=
  match e.withoutParens with
  | .function f => some (ofFunction name f)
  | .arrow valueText f => some (ofArrow name valueText f)
  | _ => none

/-- The function of an object that holds nothing but one method. -/
def soleMethod? (e : Expr) : Option Function :=
  match e.withoutParens with
  | .object [.method _ f _] _ => some f
  | _ => none

/-- The parts of the function that a text without blanks around it is: an expression, or else a
method, which can stand in an object only. -/
def ofSource (name : String) (source : String) : Outcome Canonical :=
  match (parseExpression? source).bind (ofExpr? name) with
  | some parts => parts
  | none =>
    match (parseExpression? ("\x7b" ++ source ++ "\x7d")).bind soleMethod? with
    | some f => ofFunction name f
    | none => .error (.notAFunctionForm name)

end Canonical

/-! ## The canonical form -/

/-- Whether a text reads as one declaration of a function with a given name. -/
def isDeclarationOf (name text : String) : Bool :=
  match (parseScript? text).map Body.statements with
  | some [.function f] => f.name == some name
  | _ => false

/-- Brings a function into canonical form under a name. What comes out is read again, since a
parenthesis in a string or a comment may have misled the cut of the parameter list. -/
def normalize (code name : String) : Outcome String :=
  if !isPlainName name then .error (.invalidName name)
  else do
    let canonical ← Canonical.ofSource name (Canonical.trimmed code)
    if isDeclarationOf name canonical.text then .ok canonical.text
    else .error (.notAFunctionForm name)

end Collector
