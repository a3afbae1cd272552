import Collector.Export.Reader
import Collector.Project.Layout
import Collector.Template.Document

/-!
# Builds

A build reads the sources of a project, compiles them, and writes the result into the template.
The template is written once for each group, after everything that can fail for that group.
-/

namespace Collector

namespace Layout

variable {m : Type → Type} [Monad m]

/-- Names the file in the error of a module. -/
def locate (path : String) : Error → Error
  | .moduleFault none fault => .moduleFault (some path) fault
  | error => error

/-- Reads the exports of a source file. -/
def readExports (host : Host m) (path : String) : Work m Exports := do
  let source ← Work.ofFile (host.readText path)
  Work.ofOutcome ((Exports.ofSource source).mapError (locate path))

/-- Changes the template. A change that fails leaves the file as it is. -/
def editTemplate (host : Host m) (layout : Layout) (edit : Edit) : Work m Unit := do
  let text ← Work.ofFile (host.readText layout.templatePath)
  let document ← Work.ofOutcome (Document.ofText layout.templatePath text)
  let (outcome, document) := edit.apply document
  Work.ofOutcome outcome
  Work.ofFile (host.writeText layout.templatePath document.text)

/-- Builds the transform group. -/
def buildTransform (host : Host m) (compressor : Compressor) (layout : Layout) :
    Work m TransformArtifacts := do
  let exports ← readExports host layout.transformPath
  let artifacts ← Work.ofOutcome (compileTransform compressor exports).outcome
  editTemplate host layout artifacts.apply
  pure artifacts

/-- Builds the connection group. -/
def buildConnection (host : Host m) (compressor : Compressor) (layout : Layout) :
    Work m ConnectionArtifacts := do
  let exports ← readExports host layout.connectionPath
  let artifacts ← Work.ofOutcome (compileConnection compressor exports).outcome
  editTemplate host layout artifacts.apply
  pure artifacts

/-- Fails if the two groups define a context variable differently. Nothing is compiled. -/
def checkConflicts (host : Host m) (layout : Layout) : Work m Unit := do
  let transform ← readExports host layout.transformPath
  let connection ← readExports host layout.connectionPath
  let first ← Work.ofOutcome transform.schema
  let second ← Work.ofOutcome connection.schema
  Work.ofOutcome (Schema.checkConflicts first second)

/-- Builds both groups, after the check for conflicts. -/
def build (host : Host m) (compressor : Compressor) (layout : Layout) :
    Work m (TransformArtifacts × ConnectionArtifacts) := do
  checkConflicts host layout
  let transform ← buildTransform host compressor layout
  let connection ← buildConnection host compressor layout
  pure (transform, connection)

end Layout

end Collector
