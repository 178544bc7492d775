import DispatchGen.Dispatch.Stub
import DispatchGen.Dispatch.Table

/-!
# Dispatching in process

A dispatcher holds a verified table's routes (key to handler and element type) and runs batches of
instructions through them, as the generated routine does: control opcodes are passed over, and the
first instruction without an operand or without a route ends the batch. `Dispatcher.history` is the
whole run, instruction by instruction; `Dispatcher.execute` is what its callers see of it.
-/

namespace DispatchGen

/-- An instruction at run time: its opcode and the type ordinals of its operands. -/
structure Instruction where
  opcode : UInt32
  operands : List UInt32
deriving DecidableEq, Repr

/-- A handler, specialized for an element type, run on an instruction. -/
structure Call where
  handler : Stub
  element : ElementType
  instruction : Instruction
deriving DecidableEq, Repr

/-- How a batch ends. -/
inductive Status where
  | success
  /-- No handler for an opcode and operand type; the opcode is given in words. -/
  | unsupported (opcode : String)
deriving DecidableEq, Repr

/-- What a batch did: the calls it made, in order, and how it ended. -/
structure Outcome where
  calls : List Call
  status : Status
deriving DecidableEq, Repr

/-- Where a key leads. -/
structure Route where
  key : UInt64
  handler : Stub
  element : ElementType
deriving DecidableEq, Repr

namespace Route

/-- The route of an arm: the handler of the name it calls, and the catalog's type of the name it
carries. -/
def find (c : Catalog) (byName : Index String Stub) (arm : Arm) : Except Fault Route :=
  match byName.get? arm.handler, c.types.get? arm.element with
  | none, _ => .error (.undeclaredHandler arm.handler arm.opcode)
  | some _, none => .error (.unexpectedArm arm.pairing)
  | some handler, some element => .ok { key := arm.key, handler, element }

/-- The route of an arm, among handlers of which the last counts where several have the same name. -/
@[inline] def ofArm (c : Catalog) (handlers : List Stub) : Arm → Except Fault Route :=
  find c (.ofValues (·.name) handlers)

end Route

/-- Routes and names, indexed from a catalog, a table and a list of handlers. -/
structure Dispatcher where
  scheme : KeyScheme
  controls : List UInt32
  names : Index UInt32 String
  routes : Index UInt64 Route
deriving DecidableEq, Repr

/-- What became of one instruction. -/
inductive Disposition where
  | skipped (opcode : String)
  | called (key : UInt64) (call : Call)
  | refused (opcode : String)
deriving DecidableEq, Repr

namespace Disposition

def call? : Disposition → Option Call
  | called _ call => some call
  | _ => none

def refusal? : Disposition → Option String
  | refused opcode => some opcode
  | _ => none

end Disposition

/-- The calls of a run, and its end: the refusal in it, if there is one. -/
def Outcome.ofHistory (history : List Disposition) : Outcome where
  calls := history.filterMap Disposition.call?
  status := ((history.findSome? Disposition.refusal?).map Status.unsupported).getD .success

namespace Dispatcher

/-- Indexes a table that passes `Table.verify` and whose arms all call one of `handlers`. -/
def ofParts (c : Catalog) (t : Table) (handlers : List Stub) : Except Fault Dispatcher := do
  t.verify c
  let routes ← t.arms.mapM (Route.ofArm c handlers)
  return {
    scheme := c.scheme
    controls := t.controls.map (·.ordinal)
    names := .ofList (c.opcodes.all.map fun op => (op.ordinal, op.name))
    routes := .ofValues (·.key) routes }

/-- The dispatcher of a catalog's own table and stubs. -/
def ofCatalog (c : Catalog) : Except Fault Dispatcher := do
  let t ← c.emitTable
  ofParts c t c.stubs

variable (d : Dispatcher)

def isControl (opcode : UInt32) : Bool :=
  d.controls.contains opcode

/-- The opcode's name, or its ordinal where no opcode has it. -/
def opcodeText (opcode : UInt32) : String :=
  (d.names.get? opcode).getD s!"opcode #{opcode}"

/-- The handler and element type a key leads to. -/
def route? (key : UInt64) : Option Route :=
  d.routes.get? key

/-- What becomes of one instruction; a control opcode needs no operand. -/
def step (instruction : Instruction) : Disposition :=
  let text := d.opcodeText instruction.opcode
  if d.isControl instruction.opcode then .skipped text
  else
    match instruction.operands with
    | [] => .refused text
    | element :: _ =>
      match d.route? (d.scheme.derive instruction.opcode element) with
      | none => .refused text
      | some route =>
        .called route.key { handler := route.handler, element := route.element, instruction }

/-- The dispositions of a batch, up to and with the first refusal. -/
def history : List Instruction → List Disposition
  | [] => []
  | instruction :: rest =>
    match d.step instruction with
    | .refused opcode => [.refused opcode]
    | disposition => disposition :: history rest

def execute (batch : List Instruction) : Outcome :=
  Outcome.ofHistory (d.history batch)

/-! ## Running a batch, one instruction at a time -/

theorem execute_nil : d.execute [] = { calls := [], status := .success } :=
  rfl

theorem execute_skipped {instruction : Instruction} {opcode : String} (rest : List Instruction)
    (h : d.step instruction = .skipped opcode) :
    d.execute (instruction :: rest) = d.execute rest := by
  simp only [execute, history, h]
  rfl

theorem execute_called {instruction : Instruction} {key : UInt64} {call : Call}
    (rest : List Instruction) (h : d.step instruction = .called key call) :
    d.execute (instruction :: rest) =
      { d.execute rest with calls := call :: (d.execute rest).calls } := by
  simp only [execute, history, h]
  rfl

theorem execute_refused {instruction : Instruction} {opcode : String} (rest : List Instruction)
    (h : d.step instruction = .refused opcode) :
    d.execute (instruction :: rest) = { calls := [], status := .unsupported opcode } := by
  simp only [execute, history, h]
  rfl

end Dispatcher

end DispatchGen
