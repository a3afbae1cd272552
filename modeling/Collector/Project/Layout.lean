import Collector.Project.Host

/-!
# Project layouts

A project is a directory. Its template is named after it, and the sources of its two groups stand
at fixed places inside.
-/

namespace Collector

/-- A project directory, with the name of its template. -/
structure Layout where
  directory : String
  name : String

namespace Layout

/-- The steps of a path: its names, without those that stay in place. -/
def pathSteps (path : String) : List String :=
  (path.splitOn "/").filter fun step => step != "" && step != "."

/-- The name that a path ends with. A path that ends by going up has none, and neither has one
without names. -/
def lastName? (path : String) : Option String :=
  (pathSteps path).getLast?.filter fun step => step != ".."

/-- The path of something inside a directory. -/
def inside (directory path : String) : String :=
  if directory.endsWith "/" then directory ++ path else directory ++ "/" ++ path

/-- The source of the transform group. -/
def transformPath (layout : Layout) : String := inside layout.directory "transform/transform.js"

/-- The source of the connection group. -/
def connectionPath (layout : Layout) : String :=
  inside layout.directory "connection/connection.js"

/-- The template. -/
def templatePath (layout : Layout) : String := inside layout.directory (layout.name ++ ".json")

/-- The layout of a directory, given the name that its real path ends with. -/
def ofRealName (directory : String) : Option String → Outcome Layout
  | some name => .ok ⟨directory, name⟩
  | none => .error (.unnamed directory)

/-- The layout of a project directory. The host is asked only if the path does not end with a
name. -/
def ofDirectory {m : Type → Type} [Monad m] (host : Host m) (directory : String) :
    Work m Layout :=
  match lastName? directory with
  | some name => pure ⟨directory, name⟩
  | none => do
    let name ← Work.ofFile (host.realName directory)
    Work.ofOutcome (ofRealName directory name)

end Layout

end Collector
