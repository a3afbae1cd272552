import Collector.Context.Schema
import Collector.Script.Reader

/-!
# Uses of context variables

A function reads context variables as properties of `ctx`. The names that it reads are found in
its syntax tree, as far as they stand there.
-/

namespace Collector

open Script

/-- The name that context variables are read from. -/
def contextName : String := "ctx"

/-- Whether a tree is the bare name `ctx`. -/
def isContext (tree : Tree) : Bool := tree.label == .reference contextName

/-- The name that a value in brackets stands for: of a text the text, of a name that name. -/
def bracketName? : Tree → Option String
  | .node (.text value) _ => some value
  | .node (.reference id) _ => some id
  | .node .paren [inner] => bracketName? inner
  | _ => none

/-- The context variable that a node reads, if its own label says so. -/
def Script.Tree.usage? : Tree → Option String
  | .node (.member property) [object] => if isContext object then some property else none
  | .node .index [object, key] => if isContext object then bracketName? key else none
  | _ => none

/-- The context variables that a tree reads, in order and with repetitions. -/
def Script.Tree.usages (tree : Tree) : List String := tree.nodes.filterMap Tree.usage?

/-- The context variables that a script reads. -/
def contextUsages (code : String) : Outcome (List String) :=
  match parseScript? code with
  | some body => .ok body.tree.usages
  | none => .error .usageSyntax

/-- Fails if a list of used names, in which each stands once, is not empty. -/
def reportUndeclared (label : String) : List String → Outcome Unit
  | [] => .ok ()
  | first :: others => .error (.undeclared first others label)

/-- Fails if a script reads context variables that a schema does not declare. The label names
the script in the message. -/
def checkUsages (code : String) (schema : Schema) (label : String) : Outcome Unit := do
  let used ← contextUsages code
  reportUndeclared label (used.filter fun name => !Entries.has schema name).eraseDups

end Collector
