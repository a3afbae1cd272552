import Collector.Error

/-!
# Hosts

What a build needs of the machine that it runs on. A build is written for any host.
-/

namespace Collector

/-- What a command tells about its progress. -/
inductive Report where
  | transformDone
  | connectionDone
  | consistent
  deriving DecidableEq

/-- The line for a report. Builds tell how many milliseconds they took. -/
def Report.line (milliseconds : String) : Report → String
  | .transformDone => "Done building transform (" ++ milliseconds ++ "ms)"
  | .connectionDone => "Done building connection (" ++ milliseconds ++ "ms)"
  | .consistent => "Context definitions are consistent"

/-- The operations of a machine. Paths are texts, as users write them. -/
structure Host (m : Type → Type) where
  /-- The last name of the real path of something that exists; the root of all has none. -/
  realName : String → m (Except FileFault (Option String))
  readText : String → m (Except FileFault String)
  writeText : String → String → m (Except FileFault Unit)
  report : Report → m Unit

/-- A step of a build on a host. -/
abbrev Work (m : Type → Type) (α : Type) := ExceptT Error m α

namespace Work

variable {m : Type → Type} [Monad m] {α : Type}

/-- A step that does not use the host. -/
def ofOutcome (outcome : Outcome α) : Work m α := ExceptT.mk (pure outcome)

/-- A step that uses files. -/
def ofFile (step : m (Except FileFault α)) : Work m α :=
  ExceptT.mk ((fun result => result.mapError Error.file) <$> step)

end Work

end Collector
