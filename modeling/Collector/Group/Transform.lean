import Collector.Context.Usage
import Collector.Group.Compile
import Collector.Group.Context

/-!
# The transform group

A transform group turns the response of a request into samples. It exports one function for the
regular response, under one of two names, and functions for responses with an error. All of them
follow one calling convention. The group is checked as a whole before anything is compiled.
-/

namespace Collector

/-- The name under which a group exports the function for regular responses. -/
def Convention.exportName : Convention → String
  | .batch => "transformBulk"
  | .singleItem => "transformBySubject"

/-- The parameter that tells a convention. -/
def Convention.parameter : Convention → String
  | .batch => "subjects"
  | .singleItem => "subject"

/-- The name that handlers have in canonical form. -/
def handlerName : String := "errorHandler"

/-- What a compiled transform group adds to a template. -/
structure TransformArtifacts where
  default : Option String
  errorHandlers : Entries String
  /-- How all functions of the group are called; nothing for a group without functions. -/
  convention : Option Convention
  schema : Schema

namespace Transform

/-! ## Exports -/

/-- The function for regular responses: its source, and the convention that its name demands. -/
def primary (exports : Exports) : Outcome (Option (Convention × String)) :=
  let functionOf (convention : Convention) (value : Export) :
      Outcome (Option (Convention × String)) :=
    match value.function? with
    | some code => .ok (some (convention, code))
    | none => .error (.transformNotFunction convention.exportName)
  match exports.defined? Convention.batch.exportName,
    exports.defined? Convention.singleItem.exportName with
  | some _, some _ => .error .multipleTransforms
  | some value, none => functionOf .batch value
  | none, some value => functionOf .singleItem value
  | none, none => .ok none

/-- The sources of handlers. -/
def handlerSources : Entries Export → Outcome (Entries String)
  | [] => .ok []
  | (key, handler) :: rest =>
    match handler.function? with
    | none => .error .handlersNotFunctions
    | some code => (handlerSources rest).map fun sources => (key, code) :: sources

/-- The functions for responses with an error, by status patterns. -/
def handlers (exports : Exports) : Outcome (Entries String) :=
  match exports.defined? "errorHandlers" with
  | none => .ok []
  | some (.object entries) => handlerSources entries
  | some _ => .error .handlersNotFunctions

/-! ## Checking -/

/-- The canonical form of a function that reads declared context variables only. -/
def checked (schema : Schema) (code name label : String) : Outcome String := do
  let canonical ← normalize code name
  checkUsages canonical schema label
  .ok canonical

/-- The canonical forms of handlers. -/
def checkedHandlers (schema : Schema) : Entries String → Outcome (Entries String)
  | [] => .ok []
  | (key, code) :: rest => do
    let canonical ← checked schema code handlerName key
    let others ← checkedHandlers schema rest
    .ok ((key, canonical) :: others)

/-- Fails unless a function follows the convention that its name demands. -/
def checkPrimary (convention : Convention) (canonical : String) : Outcome Unit :=
  if (classify canonical).toOption = some convention then .ok ()
  else .error (.parameterMissing convention.exportName convention.parameter)

/-- The convention of handlers, given the one that is settled already. Without one the first
handler settles it. -/
def handlerConvention : Option Convention → Entries String → Outcome (Option Convention)
  | settled, [] => .ok settled
  | none, (_, canonical) :: rest => do
    let convention ← classify canonical
    handlerConvention (some convention) rest
  | some convention, (key, canonical) :: rest =>
    if (classify canonical).toOption = some convention then
      handlerConvention (some convention) rest
    else .error (.signatureMismatch key)

/-- A transform group that has passed all checks. Its functions are in canonical form. -/
structure Plan where
  schema : Schema
  helpers : Entries Export
  primary : Option String
  handlers : Entries String
  convention : Option Convention

/-- Checks a transform group. -/
def plan (exports : Exports) : Outcome Plan := do
  let schema ← exports.schema
  let primary ← primary exports
  let handlers ← handlers exports
  let helpers ← exports.helpers
  let canonical ← match primary with
    | some (convention, code) =>
      some <$> checked schema code convention.exportName convention.exportName
    | none => .ok none
  let handlers ← checkedHandlers schema handlers
  match primary, canonical with
  | some (convention, _), some canonical => checkPrimary convention canonical
  | _, _ => .ok ()
  let convention ← handlerConvention (primary.map Prod.fst) handlers
  .ok ⟨schema, helpers, canonical, handlers, convention⟩

/-! ## Compiling -/

/-- Compiles handlers in order. -/
def compileHandlers (compressor : Compressor) (helpers : Entries Export) :
    Entries String → Compile (Entries String)
  | [] => pure []
  | (key, canonical) :: rest => do
    let body ← compileCanonical compressor helpers canonical
    let bodies ← compileHandlers compressor helpers rest
    pure ((key, body) :: bodies)

/-- Compiles the functions of a checked group, the one for regular responses first. -/
def Plan.compile (compressor : Compressor) (plan : Plan) : Compile TransformArtifacts := do
  let default ← match plan.primary with
    | some canonical => some <$> compileCanonical compressor plan.helpers canonical
    | none => pure none
  let handlers ← compileHandlers compressor plan.helpers plan.handlers
  pure ⟨default, handlers, plan.convention, plan.schema⟩

end Transform

/-- Compiles a transform group. -/
def compileTransform (compressor : Compressor) (exports : Exports) :
    Compile TransformArtifacts := do
  let plan ← Compile.ofOutcome (Transform.plan exports)
  plan.compile compressor

end Collector
