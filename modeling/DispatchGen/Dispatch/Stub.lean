import DispatchGen.Catalog.Basic

/-!
# Handler stubs

One type-parameterized handler declaration per numeric opcode. Name and operand count come from the
catalog; the body is left to a kernel author.
-/

namespace DispatchGen

/-- The declaration of one handler; its first operand is the output. -/
structure Stub where
  name : String
  opcode : String
  arity : Nat
  operands : List String
deriving DecidableEq, Repr

def Stub.operandCount (stub : Stub) : Nat :=
  stub.operands.length

/-- The operand names `op1`, `op2`, … of a handler. -/
def operandNames (count : Nat) : List String :=
  (List.range count).map fun i => s!"op{i + 1}"

theorem length_operandNames (count : Nat) : (operandNames count).length = count := by
  simp [operandNames]

theorem getElem?_operandNames {count i : Nat} (h : i < count) :
    (operandNames count)[i]? = some ("op" ++ toString (i + 1)) := by
  rw [operandNames, List.getElem?_map, List.getElem?_range h]
  rfl

namespace Catalog

variable (c : Catalog)

/-- The stub of an opcode; a control opcode, which has no handler, would get no operands. -/
def stub (op : Opcode) : Stub :=
  let arity := (op.arity?.map Arity.count).getD 0
  { name := c.handlerName op, opcode := op.name, arity, operands := operandNames arity }

/-- The stubs of the numeric opcodes, in declaration order. -/
def stubs : List Stub :=
  c.opcodes.numeric.map c.stub

variable {c}

theorem operandCount_stub (op : Opcode) :
    (c.stub op).operandCount = (op.arity?.map Arity.count).getD 0 :=
  length_operandNames _

end Catalog

end DispatchGen
