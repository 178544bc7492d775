import DispatchGen.Fault
import DispatchGen.Source.Layout

/-!
# Rendering options

The target language, the style of keys and indentation, and the names of the engine symbols that
generated code refers to. Symbols reach the source as they stand, so `Options.validate` holds each to
an identifier or a type token. `Overrides` are what a catalog file may set; `Overrides.resolve` lays
them over a target's defaults.
-/

namespace DispatchGen

/-- The language of an artifact. -/
inductive Target where
  | cpp
  | rust
deriving DecidableEq, Repr

namespace Target

def name : Target → String
  | cpp => "cpp"
  | rust => "rust"

/-- The extension of a file in the language. -/
def extension : Target → String
  | cpp => "cpp"
  | rust => "rs"

/-- Each language has a second, customary spelling. -/
def parse : String → Except String Target
  | "cpp" => .ok cpp
  | "c++" => .ok cpp
  | "rust" => .ok rust
  | "rs" => .ok rust
  | other => .error s!"unknown target '{other}' (expected cpp or rust)"

end Target

/-- How case labels spell dispatch keys: as numbers, or in C++ by the engine's own enumerators. -/
inductive KeyStyle where
  | literal
  | symbolic
deriving DecidableEq, Repr

namespace KeyStyle

def name : KeyStyle → String
  | literal => "literal"
  | symbolic => "symbolic"

def parse : String → Except String KeyStyle
  | "literal" => .ok literal
  | "symbolic" => .ok symbolic
  | other => .error s!"unknown key style '{other}' (expected literal or symbolic)"

end KeyStyle

/-- One entry per engine symbol that generated code refers to. -/
structure Symbols (α : Type) where
  routineName : α
  instructionType : α
  /-- The integer type of the instruction count, in C++. -/
  indexType : α
  statusType : α
  successStatus : α
  unsupportedStatus : α
  /-- The function from an opcode to its printable name. -/
  opcodeText : α
  /-- Operand iterators are this followed by the arity. -/
  iteratePrefix : α
deriving DecidableEq, Repr

namespace Symbols

variable {α β γ : Type}

def zipWith (f : α → β → γ) (a : Symbols α) (b : Symbols β) : Symbols γ where
  routineName := f a.routineName b.routineName
  instructionType := f a.instructionType b.instructionType
  indexType := f a.indexType b.indexType
  statusType := f a.statusType b.statusType
  successStatus := f a.successStatus b.successStatus
  unsupportedStatus := f a.unsupportedStatus b.unsupportedStatus
  opcodeText := f a.opcodeText b.opcodeText
  iteratePrefix := f a.iteratePrefix b.iteratePrefix

/-- Fails where `f` fails for some symbol. -/
def traverse (f : α → Option β) (a : Symbols α) : Option (Symbols β) := do
  return {
    routineName := ← f a.routineName
    instructionType := ← f a.instructionType
    indexType := ← f a.indexType
    statusType := ← f a.statusType
    successStatus := ← f a.successStatus
    unsupportedStatus := ← f a.unsupportedStatus
    opcodeText := ← f a.opcodeText
    iteratePrefix := ← f a.iteratePrefix }

def toList (a : Symbols α) : List α :=
  [a.routineName, a.instructionType, a.indexType, a.statusType, a.successStatus,
    a.unsupportedStatus, a.opcodeText, a.iteratePrefix]

/-- The same entry for every symbol. -/
def const (a : α) : Symbols α where
  routineName := a
  instructionType := a
  indexType := a
  statusType := a
  successStatus := a
  unsupportedStatus := a
  opcodeText := a
  iteratePrefix := a

/-- The symbols that must be identifiers, in the order they are checked. -/
def identifiers (s : Symbols String) : List String :=
  [s.routineName, s.opcodeText, s.iteratePrefix]

/-- The symbols that may be paths or template instances, in the order they are checked. -/
def typeTokens (s : Symbols String) : List String :=
  [s.instructionType, s.indexType, s.statusType, s.successStatus, s.unsupportedStatus]

/-- The names a target's engine goes by. -/
def ofTarget : Target → Symbols String
  | .cpp =>
    { routineName := "ve_execute"
      instructionType := "ve_instruction"
      indexType := "ve_intp"
      statusType := "ve_error"
      successStatus := "VE_SUCCESS"
      unsupportedStatus := "VE_INST_NOT_SUPPORTED"
      opcodeText := "ve_opcode_text"
      iteratePrefix := "iter_" }
  | .rust =>
    { routineName := "execute"
      instructionType := "Instruction"
      indexType := "usize"
      statusType := "Status"
      successStatus := "Status::Success"
      unsupportedStatus := "Status::UnsupportedInstruction"
      opcodeText := "opcode_text"
      iteratePrefix := "iter_" }

end Symbols

/-- How an artifact is rendered. -/
structure Options where
  target : Target
  keyStyle : KeyStyle := .literal
  indent : IndentStyle := {}
  /-- Name the pair behind each literal key in a comment. -/
  comments : Bool := true
  symbols : Symbols String
deriving DecidableEq, Repr

namespace Options

/-- The defaults of a target. -/
def ofTarget (target : Target) : Options where
  target := target
  symbols := Symbols.ofTarget target

instance : Inhabited Options :=
  ⟨ofTarget .cpp⟩

/-- Refuses the first symbol that could not stand in generated source: identifiers, then tokens. -/
def validate (options : Options) : Except Fault Unit := do
  options.symbols.identifiers.forM requireIdentifier
  options.symbols.typeTokens.forM requireTypeToken

/-- The defaults of a target may appear in generated source. -/
theorem validate_ofTarget (target : Target) : (ofTarget target).validate = .ok () := by
  cases target with
  | cpp => rfl
  | rust => rfl

end Options

/-- What a catalog file sets of the options; the rest is left to the target's defaults. -/
structure Overrides where
  target : Option Target := none
  keyStyle : Option KeyStyle := none
  comments : Option Bool := none
  indent : Option UInt64 := none
  symbols : Symbols (Option String) := Symbols.const none
deriving DecidableEq, Repr

namespace Overrides

/-- Lays the overrides over the defaults of their target, or of `target` where one is given. -/
def apply (o : Overrides) (target : Option Target := none) : Options :=
  let defaults := Options.ofTarget ((target.or o.target).getD .cpp)
  { defaults with
    keyStyle := o.keyStyle.getD defaults.keyStyle
    comments := o.comments.getD defaults.comments
    indent := { defaults.indent with size := o.indent.getD defaults.indent.size }
    symbols := o.symbols.zipWith Option.getD defaults.symbols }

/-- The resulting options, if every symbol in them may appear in generated source. -/
def resolve (o : Overrides) (target : Option Target := none) : Except Fault Options := do
  let options := o.apply target
  options.validate
  return options

end Overrides

end DispatchGen
