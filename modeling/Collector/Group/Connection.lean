import Collector.Group.Transform

/-!
# The connection group

A connection group tells where a collector sends its requests: to a fixed address, or to one that
a function computes. It may export the headers of the requests.
-/

namespace Collector

/-- Where requests are sent. -/
inductive Endpoint where
  /-- An address in which context variables may be filled in. -/
  | url (text : String)
  /-- The statements of a function that answers the address. -/
  | toUrl (body : String)
  deriving DecidableEq

/-- What a compiled connection group adds to a template. -/
structure ConnectionArtifacts where
  endpoint : Endpoint
  headers : Option Json
  schema : Schema

namespace Connection

/-- The address that a group exports, or the source of the function for it. -/
def endpointSource (exports : Exports) : Outcome Endpoint :=
  match exports.defined? "url", exports.defined? "toUrl" with
  | some _, some _ => .error .endpointTwice
  | none, none => .error .endpointMissing
  | some (.literal (.string url)), none => .ok (.url url)
  | some _, none => .error .urlNotString
  | none, some (.function code) => .ok (.toUrl code)
  | none, some _ => .error .toUrlNotFunction

/-- A checked endpoint. The function is in canonical form and has the helpers of its group. -/
inductive Plan where
  | url (text : String)
  | toUrl (canonical : String) (helpers : Entries Export)

/-- Checks the endpoint of a group. -/
def plan (exports : Exports) (schema : Schema) : Outcome Plan := do
  match ← endpointSource exports with
  | .url text => .ok (.url text)
  | .toUrl code =>
    let canonical ← Transform.checked schema code "toUrl" "toUrl"
    let helpers ← exports.helpers
    .ok (.toUrl canonical helpers)

/-- Compiles a checked endpoint. -/
def Plan.compile (compressor : Compressor) : Plan → Compile Endpoint
  | .url text => pure (.url text)
  | .toUrl canonical helpers => Endpoint.toUrl <$> compileCanonical compressor helpers canonical

/-- The headers that a group exports: an object of constants. -/
def headers (exports : Exports) : Outcome (Option Json) :=
  match exports.defined? "headers" with
  | none => .ok none
  | some value =>
    match value.json? with
    | some (.object fields) => .ok (some (.object fields))
    | _ => .error .headersNotObject

end Connection

/-- Compiles a connection group. Its headers are looked at last. -/
def compileConnection (compressor : Compressor) (exports : Exports) :
    Compile ConnectionArtifacts := do
  let schema ← Compile.ofOutcome exports.schema
  let plan ← Compile.ofOutcome (Connection.plan exports schema)
  let endpoint ← plan.compile compressor
  let headers ← Compile.ofOutcome (Connection.headers exports)
  pure ⟨endpoint, headers, schema⟩

end Collector
