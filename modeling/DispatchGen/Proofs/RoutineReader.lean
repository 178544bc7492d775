import DispatchGen.Dispatch.Dispatcher
import DispatchGen.Proofs.LineReading

/-!
# Reading a routine back

`Routine.read?` recovers from the text of a generated Rust routine what the engine acts on: the
ordinals it passes over, the multiplier of its keys and the arms of its match, in order. It looks at
the text alone; of the options only the prefix of the iterators is known to it. `Routine.run` acts a
batch out on what was read.
-/

namespace DispatchGen

open Text

/-! ## Routines -/

/-- One arm of the match over keys. -/
structure RoutineArm where
  key : Nat
  arity : Nat
  token : String
  handler : String
deriving DecidableEq, Repr

/-- What a routine's text says. -/
structure Routine where
  controls : List Nat
  multiplier : Nat
  arms : List RoutineArm
deriving DecidableEq, Repr

/-- An arm from its line, which may end in a comment. -/
def RoutineArm.read? (iteratePrefix : String) (line : List Char) : Option RoutineArm := do
  let (key, line) ← number? line
  let line ← after? " => " line
  let line ← after? iteratePrefix line
  let (arity, line) ← number? line
  let line ← after? "::<" line
  let (token, line) ← before? '(' line
  let line ← after? "instr, " line
  let (handler, line) ← before? ')' line
  if token.getLast? = some '>' ∧ (line = ",".toList ∨ ", // ".toList <+: line) then
    some { key, arity, token := .ofList token.dropLast, handler := .ofList handler }
  else none

namespace Routine

/-- The ordinals from the line that tests for them. -/
def controls? (line : List Char) : Option (List Nat) := do
  let line ← after? "if matches!(opcode, " line
  let (ordinals, line) ← before? ')' line
  if line = " \x7b".toList then
    (splitAt '|' (ordinals.filter (· ≠ ' '))).mapM wholeNumber?
  else none

/-- The multiplier from the line that makes the key. -/
def multiplier? (line : List Char) : Option Nat := do
  let line ← after? "let key = u64::from(opcode) * " line
  let (multiplier, line) ← number? line
  if line = " + u64::from(element);".toList then some multiplier else none

/-! The lines the reader goes by. -/

def testsControls (line : List Char) : Bool :=
  "if matches!(".toList.isPrefixOf line

def makesKey (line : List Char) : Bool :=
  "let key ".toList.isPrefixOf line

def opensMatch (line : List Char) : Bool :=
  line == "match key \x7b".toList

/-- The last line of the match takes every other key. -/
def endsMatch (line : List Char) : Bool :=
  "_ => ".toList.isPrefixOf line

/-- The lines of the match in front of its last one. -/
def armLines (lines : List (List Char)) : List (List Char) :=
  (lines.dropWhile (!opensMatch ·)).tail.takeWhile (!endsMatch ·)

/-- What the text of a routine says, if it can be told without doubt: no second line tests for
ordinals or makes a key, and every line of the match is an arm. -/
def read? (iteratePrefix text : String) : Option Routine := do
  let lines := bareLines text
  let controls ←
    match lines.filter testsControls with
    | [] => some []
    | [line] => controls? line
    | _ => none
  let multiplier ←
    match lines.filter makesKey with
    | [line] => multiplier? line
    | _ => none
  let arms ← (armLines lines).mapM (RoutineArm.read? iteratePrefix)
  return { controls, multiplier, arms }

end Routine

/-! ## Acting a routine out -/

/-- A call the routine makes: a handler by its name, for an element type by its token, with operands
iterated by arity. -/
structure RoutineCall where
  handler : String
  token : String
  arity : Nat
  instruction : Instruction
deriving DecidableEq, Repr

/-- What the routine does with one instruction. -/
inductive RoutineStep where
  | passed
  | called (call : RoutineCall)
  | refused
deriving DecidableEq, Repr

/-- What a batch did in the routine. -/
structure RoutineOutcome where
  calls : List RoutineCall
  status : Status
deriving DecidableEq, Repr

namespace Routine

variable (r : Routine)

/-- The first arm with the given key. -/
def arm? (key : Nat) : Option RoutineArm :=
  r.arms.find? (·.key == key)

def step (instruction : Instruction) : RoutineStep :=
  if r.controls.contains instruction.opcode.toNat then .passed
  else
    match instruction.operands with
    | [] => .refused
    | element :: _ =>
      match r.arm? (instruction.opcode.toNat * r.multiplier + element.toNat) with
      | none => .refused
      | some arm =>
        .called { handler := arm.handler, token := arm.token, arity := arm.arity, instruction }

/-- Runs a batch in an engine that puts opcodes in words by `opcodeText`. -/
def run (opcodeText : UInt32 → String) : List Instruction → RoutineOutcome
  | [] => { calls := [], status := .success }
  | instruction :: rest =>
    match r.step instruction with
    | .passed => run opcodeText rest
    | .called call =>
      let outcome := run opcodeText rest
      { outcome with calls := call :: outcome.calls }
    | .refused => { calls := [], status := .unsupported (opcodeText instruction.opcode) }

end Routine

end DispatchGen
