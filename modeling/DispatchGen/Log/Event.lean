import DispatchGen.Catalog.Basic
import DispatchGen.Source.Options

/-!
# Log events

What the library tells its log while it works. An event is what happened; `Event.level`,
`Event.origin` and `Event.text` are how it appears in a log.
-/

namespace DispatchGen

/-- How much an event matters. -/
inductive Level where
  | error
  | warn
  | info
  | debug
  | trace
deriving DecidableEq, Repr

namespace Level

def name : Level → String
  | error => "error"
  | warn => "warn"
  | info => "info"
  | debug => "debug"
  | trace => "trace"

/-- The level in capitals, filled up to five places. -/
def label : Level → String
  | error => "ERROR"
  | warn => "WARN "
  | info => "INFO "
  | debug => "DEBUG"
  | trace => "TRACE"

/-- The place of the level, the gravest first. -/
def rank : Level → Nat
  | error => 0
  | warn => 1
  | info => 2
  | debug => 3
  | trace => 4

/-- A log set to `threshold` shows events of the given level. -/
def shownAt (threshold level : Level) : Bool :=
  level.rank ≤ threshold.rank

end Level

/-- Something worth telling. Paths are given as text. -/
inductive Event where
  /-- Fewer than half of a catalog's types are dispatchable. -/
  | fewTypesLeft (catalog : String) (dispatchable total : Nat)
  | catalogValidated (c : Catalog)
  | armsEmitted (catalog : String) (count : Nat)
  | stubsEmitted (catalog : String) (count : Nat)
  | artifactRendered (target : Target) (catalog : String) (routine stubs : Bool)
  | artifactGenerated (target : Target) (catalog : String) (arms handlers controls : Nat)
  | routesIndexed (catalog : String) (count : Nat)
  | controlSkipped (opcode : String)
  | keyDispatched (key : UInt64) (handler token : String)
  | fileLoaded (path : String)
  | noFileFound (name start : String)
  | artifactUpToDate (path : String)
  | artifactWritten (path : String)
  | outputWritten (bytes : Nat) (path : String)
  /-- Symbolic keys were asked for where the target has none. -/
  | symbolicKeysIgnored
deriving DecidableEq, Repr

namespace Event

def level : Event → Level
  | fewTypesLeft .. => .warn
  | symbolicKeysIgnored => .warn
  | artifactGenerated .. => .info
  | artifactUpToDate _ => .info
  | artifactWritten _ => .info
  | controlSkipped _ => .trace
  | keyDispatched .. => .trace
  | _ => .debug

/-- The part of the program that tells of the event. -/
def origin : Event → String
  | fewTypesLeft .. => "vedispatch::catalog"
  | catalogValidated _ => "vedispatch::catalog"
  | armsEmitted .. => "vedispatch::emit::dispatch"
  | stubsEmitted .. => "vedispatch::emit::stubs"
  | artifactRendered .. => "vedispatch::render"
  | artifactGenerated .. => "vedispatch::generator"
  | routesIndexed .. => "vedispatch::exec"
  | controlSkipped _ => "vedispatch::exec"
  | keyDispatched .. => "vedispatch::exec"
  | fileLoaded _ => "vedispatch::config"
  | noFileFound .. => "vedispatch::config"
  | artifactUpToDate _ => "vedispatch::build_support"
  | artifactWritten _ => "vedispatch::build_support"
  | outputWritten .. => "ve_gen"
  | symbolicKeysIgnored => "ve_gen"

def text : Event → String
  | fewTypesLeft catalog dispatchable total =>
    s!"catalog '{catalog}': exclusions leave {dispatchable} of {total} types dispatchable"
  | catalogValidated c =>
    s!"catalog '{c.name}' validated: {c.opcodes.groups.length} groups, " ++
      s!"{c.opcodes.numeric.length} numeric opcodes, " ++
      s!"{c.opcodes.controls.length} control opcodes, " ++
      s!"{c.types.types.length} types ({c.types.excluded.length} excluded), base {c.scheme.base}"
  | armsEmitted catalog count => s!"emitted {count} dispatch arms for catalog '{catalog}'"
  | stubsEmitted catalog count => s!"emitted {count} handler stubs for catalog '{catalog}'"
  | artifactRendered target catalog routine stubs =>
    s!"rendered {target.name} artifact for '{catalog}': routine={routine}, stubs={stubs}"
  | artifactGenerated target catalog arms handlers controls =>
    s!"generated {target.name} dispatch for '{catalog}': {arms} arms, {handlers} handlers, " ++
      s!"{controls} control opcodes"
  | routesIndexed catalog count => s!"dispatcher for '{catalog}' indexed {count} routes"
  | controlSkipped opcode => s!"skipping control opcode {opcode}"
  | keyDispatched key handler token => s!"key {key} -> {handler}<{token}>"
  | fileLoaded path => s!"loaded catalog file {path}"
  | noFileFound name start => s!"no {name} above {start}, using built-in catalog"
  | artifactUpToDate path => s!"{path} is up to date"
  | artifactWritten path => s!"wrote {path}"
  | outputWritten bytes path => s!"wrote {bytes} bytes to {path}"
  | symbolicKeysIgnored => "symbolic keys are not valid Rust patterns; using literal keys"

end Event

end DispatchGen
