import Collector.Project.Build

/-!
# The command line

`[build|transform|connection|check] [DIRECTORY]`: what to do, and the project to do it in. Both
may be left out.
-/

namespace Collector

/-- What a command does. -/
inductive Action where
  | build
  | transform
  | connection
  | check
  deriving DecidableEq

/-- A command for a project. -/
structure Command where
  action : Action
  directory : String

namespace Command

/-- The action that a word names. -/
def action? : String → Option Action
  | "build" => some .build
  | "transform" => some .transform
  | "connection" => some .connection
  | "check" => some .check
  | _ => none

/-- The directory that the words behind an action name. A word that begins with a dash is an
option, unless two dashes stand before it. -/
def directory? : List String → Option String
  | [] => some "."
  | ["--"] => some "."
  | ["--", word] => if word.isEmpty then none else some word
  | [word] => if word.isEmpty || (word.startsWith "-" && word != "-") then none else some word
  | _ => none

/-- Reads the words of a command. -/
def ofWords : List String → Option Command
  | [] => some ⟨.build, "."⟩
  | word :: words => do
    let action ← action? word
    let directory ← directory? words
    some ⟨action, directory⟩

variable {m : Type → Type} [Monad m]

/-- Builds the transform group and reports it. -/
def transform (host : Host m) (compressor : Compressor) (layout : Layout) : Work m Unit := do
  let _ ← layout.buildTransform host compressor
  host.report .transformDone

/-- Builds the connection group and reports it. -/
def connection (host : Host m) (compressor : Compressor) (layout : Layout) : Work m Unit := do
  let _ ← layout.buildConnection host compressor
  host.report .connectionDone

/-- Runs a command on a host. -/
def run (host : Host m) (compressor : Compressor) (command : Command) : Work m Unit := do
  let layout ← Layout.ofDirectory host command.directory
  match command.action with
  | .build =>
    layout.checkConflicts host
    transform host compressor layout
    connection host compressor layout
  | .transform => transform host compressor layout
  | .connection => connection host compressor layout
  | .check =>
    layout.checkConflicts host
    host.report .consistent

end Command

end Collector
