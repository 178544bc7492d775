import DispatchGen.Catalog.Arity
import DispatchGen.Text.Symbol

/-!
# Faults

Everything that can go wrong between reading a catalog and writing an artifact, and the one place
where faults are put into words (`Fault.message`).
-/

namespace DispatchGen

/-- Where an opcode is declared. -/
inductive Place where
  | controlSet
  | group (arity : Arity)
deriving DecidableEq, Repr

def Place.text : Place → String
  | .controlSet => "the control set"
  | .group arity => s!"arity {arity.count}"

/-- An opcode and an element type by name, as a dispatch arm pairs them. -/
structure Pairing where
  opcode : String
  element : String
deriving DecidableEq, Repr

def Pairing.text (p : Pairing) : String :=
  s!"{p.opcode} x {p.element}"

inductive Fault where
  /-- A file or directory could not be read or written. -/
  | fileAccess (detail : String)
  /-- A document is not TOML, or not a catalog. -/
  | malformedDocument (detail : String)
  /-- A catalog file holds a number that TOML cannot express. -/
  | inexpressible (detail : String)
  | missingFile (path : String)
  | noTypes
  | repeatedType (name : String)
  | sharedTypeOrdinal (ordinal : UInt32) (first second : String)
  | unknownExclusion (name : String)
  | emptyGroup (arity : Nat)
  | repeatedArity (arity : Nat)
  | repeatedOpcode (name : String) (first second : Place)
  | sharedOpcodeOrdinal (ordinal : UInt32) (first second : String)
  | controlInGroup (name : String) (arity : Nat)
  | unsupportedArity (count : Int)
  | baseTooSmall (base largest : UInt32)
  | nothingToDispatch
  | sharedHandler (handler first second : String)
  | invalidSymbol (text : String)
  | sharedKey (key : UInt64) (first second : Pairing)
  | missingArm (pair : Pairing)
  | unexpectedArm (pair : Pairing)
  | undeclaredHandler (handler opcode : String)
deriving DecidableEq, Repr

namespace Fault

/-- The one-line description of a fault. -/
def message : Fault → String
  | fileAccess detail => s!"Failed to read catalog file: {detail}"
  | malformedDocument detail => s!"Failed to parse catalog: {detail}"
  | inexpressible detail => s!"Failed to serialize catalog: {detail}"
  | missingFile path => s!"Catalog file not found: {path}"
  | noTypes => "Type catalog is empty"
  | repeatedType name => s!"Element type '{name}' is declared more than once"
  | sharedTypeOrdinal ordinal first second =>
    s!"Element types '{first}' and '{second}' share ordinal {ordinal}"
  | unknownExclusion name => s!"Excluded type '{name}' is not in the type catalog"
  | emptyGroup arity => s!"Arity group {arity} has no opcodes"
  | repeatedArity arity => s!"Arity {arity} is declared by more than one group"
  | repeatedOpcode name first second =>
    s!"Opcode '{name}' appears in both {first.text} and {second.text}"
  | sharedOpcodeOrdinal ordinal first second =>
    s!"Opcodes '{first}' and '{second}' share ordinal {ordinal}"
  | controlInGroup name arity => s!"Control opcode '{name}' also appears in arity group {arity}"
  | unsupportedArity count =>
    s!"Arity {count} is not supported by the handler calling convention (expected 1..={maxArity})"
  | baseTooSmall base largest =>
    s!"Key base {base} must be greater than the largest type ordinal {largest}"
  | nothingToDispatch =>
    "No dispatch arms: every (opcode, type) pair is excluded or no numeric opcodes exist"
  | sharedHandler handler first second =>
    s!"Opcodes '{first}' and '{second}' both map to handler '{handler}'"
  | invalidSymbol text => s!"'{text}' is not a valid identifier for generated code"
  | sharedKey key first second =>
    s!"Dispatch key {key} is shared by {first.text} and {second.text}"
  | missingArm pair => s!"No dispatch arm for opcode '{pair.opcode}' with type '{pair.element}'"
  | unexpectedArm pair =>
    s!"Dispatch arm for opcode '{pair.opcode}' with type '{pair.element}' has no catalog pair"
  | undeclaredHandler handler opcode =>
    s!"Dispatch arm for opcode '{opcode}' names handler '{handler}', which is not declared"

/-- What lies behind a fault that another layer raised. -/
def detail? : Fault → Option String
  | fileAccess detail => some detail
  | malformedDocument detail => some detail
  | inexpressible detail => some detail
  | _ => none

end Fault

/-- Refuses a name that is not an identifier. -/
def requireIdentifier (name : String) : Except Fault Unit :=
  if Text.isIdentifier name then .ok () else .error (.invalidSymbol name)

/-- Refuses a text that is not a type token. -/
def requireTypeToken (text : String) : Except Fault Unit :=
  if Text.isTypeToken text then .ok () else .error (.invalidSymbol text)

theorem requireIdentifier_eq_ok_iff {name : String} :
    requireIdentifier name = .ok () ↔ Text.isIdentifier name = true := by
  simp [requireIdentifier]

theorem requireTypeToken_eq_ok_iff {text : String} :
    requireTypeToken text = .ok () ↔ Text.isTypeToken text = true := by
  simp [requireTypeToken]

end DispatchGen
