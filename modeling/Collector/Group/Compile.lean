import Collector.Function.Artifact
import Collector.Function.Bundle

/-!
# Compiling a function

A function is brought into canonical form, bundled with the helpers of its group, compressed, and
stored as the statements of its body. Compilation records the texts that it hands to the
compressor.
-/

namespace Collector

/-- Makes the text of a function smaller, or fails. -/
abbrev Compressor := String → Outcome String

/-- A compilation: it hands texts to a compressor, and then succeeds or fails. -/
abbrev Compile (α : Type) := ExceptT Error (StateM (List String)) α

namespace Compile

/-- A step that hands nothing to the compressor. -/
def ofOutcome {α : Type} (outcome : Outcome α) : Compile α := ExceptT.mk (pure outcome)

/-- Hands a text to the compressor. -/
def compress (compressor : Compressor) (text : String) : Compile String := do
  modify fun seen => seen ++ [text]
  ofOutcome (compressor text)

/-- Runs a compilation: what it answers, and the texts that the compressor saw, in order. -/
def trace {α : Type} (compile : Compile α) : Outcome α × List String := (ExceptT.run compile).run []

/-- What a compilation answers. -/
def outcome {α : Type} (compile : Compile α) : Outcome α := compile.trace.1

end Compile

/-- Compiles a function in canonical form. -/
def compileCanonical (compressor : Compressor) (helpers : Entries Export) (canonical : String) :
    Compile String := do
  let bundled ← Compile.ofOutcome (bundle canonical helpers)
  let compressed ← Compile.compress compressor bundled
  Compile.ofOutcome (extractBody compressed)

/-- Compiles a function under a name. -/
def compileFunction (compressor : Compressor) (helpers : Entries Export) (code name : String) :
    Compile String := do
  let canonical ← Compile.ofOutcome (normalize code name)
  compileCanonical compressor helpers canonical

end Collector
