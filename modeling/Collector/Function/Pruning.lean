import Collector.Error
import Collector.Script.Reader

/-!
# Pruning

Of the functions that are declared directly in the body of a function, pruning keeps those that
something alive refers to. What stands in the body besides declarations is alive; so is a
declaration whose name is referred to from something alive. Names are compared as they stand, so
a name that is bound anew further inside counts as well.
-/

namespace Collector

open Script

/-- The name of the function that a statement declares. -/
def Script.Statement.declared? : Statement → Option String
  | .function f => f.name
  | _ => none

/-- The function that a script declares, if it holds nothing else. -/
def soleFunction (body : Body) : Outcome Function :=
  match body.statements with
  | [.function f] => .ok f
  | _ => .error .notOneDeclaration

/-- The names that statements other than declarations refer to. -/
def rootNames (statements : List Statement) : List String :=
  (statements.filter fun s => s.declared?.isNone).flatMap fun s => s.tree.references

/-- The declared names with what their declarations refer to. -/
def declarationLinks (statements : List Statement) : List (String × List String) :=
  statements.filterMap fun s => s.declared?.map fun name => (name, s.tree.references)

/-- One step: the names that are live already, and those that their declarations refer to. -/
def spread (links : List (String × List String)) (live : List String) : List String :=
  (links.map Prod.fst).filter fun name =>
    live.contains name || links.any fun (other, names) => live.contains other && names.contains name

/-- Repeats the step from live names to those behind them. -/
def closure (links : List (String × List String)) : Nat → List String → List String
  | 0, live => live
  | rounds + 1, live => closure links rounds (spread links live)

/-- The declared names that are alive. Each round but the last adds a name, so there are rounds
enough. -/
def liveNames (statements : List Statement) : List String :=
  let links := declarationLinks statements
  let roots := rootNames statements
  closure links links.length ((links.map Prod.fst).filter roots.contains)

/-- The text of a statement of a body in which only some declarations are kept. -/
def keptText (live : List String) (item : Item) : String :=
  match item.statement.declared? with
  | some name => if live.contains name then item.source else item.lead
  | none => item.source

/-- The text of a body in which only some declarations are kept. -/
def Script.Body.keptSource (live : List String) (body : Body) : String :=
  String.join (body.items.map (keptText live)) ++ body.tail

/-- The text of a function in which only live declarations are kept. -/
def Script.Function.prunedSource (f : Function) : String :=
  let live := liveNames f.body.statements
  f.head ++ f.paramsText ++ f.gap ++ "\x7b" ++ f.body.keptSource live ++ "\x7d"

/-- A script with the text of each function declaration changed. -/
def Script.Body.mapFunctions (change : Function → String) (body : Body) : String :=
  let text (item : Item) : String :=
    match item.statement with
    | .function f => item.lead ++ change f
    | _ => item.source
  String.join (body.items.map text) ++ body.tail

/-- Prunes the only function of a script. -/
def prune (source : String) : Outcome String :=
  match parseScript? source with
  | none => .error (.compressionSyntax .bundle)
  | some body => do
    let _ ← soleFunction body
    .ok (body.mapFunctions Function.prunedSource)

end Collector
