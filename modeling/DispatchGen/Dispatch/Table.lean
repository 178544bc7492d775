import DispatchGen.Catalog.Basic
import DispatchGen.Index

/-!
# Dispatch tables

A table lists one arm per (numeric opcode, dispatchable type) pair, in the order of `Catalog.pairs`,
and the control opcodes beside them. `Catalog.emitTable` expands a catalog into its table and checks
the result with `Table.verify`, which also judges tables that came from elsewhere: no key may repeat,
every pair must have its own arm under its own key, and no arm may be left over.
-/

namespace DispatchGen

/-- One case of the numeric switch. -/
structure Arm where
  key : UInt64
  opcode : String
  opcodeOrdinal : UInt32
  element : String
  elementOrdinal : UInt32
  token : String
  arity : Nat
  handler : String
deriving DecidableEq, Repr

/-- The opcode and type an arm names. -/
def Arm.pairing (arm : Arm) : Pairing :=
  { opcode := arm.opcode, element := arm.element }

/-- A control opcode as the routine's first branch sees it. -/
structure ControlEntry where
  name : String
  ordinal : UInt32
deriving DecidableEq, Repr

/-- What the routine is laid out from. -/
structure Table where
  catalog : String
  base : UInt32
  controls : List ControlEntry
  arms : List Arm
deriving DecidableEq, Repr

namespace Catalog

variable (c : Catalog)

/-- The arm of a pair. -/
def arm (op : Opcode) (type : ElementType) : Arm where
  key := c.key op type
  opcode := op.name
  opcodeOrdinal := op.ordinal
  element := type.name
  elementOrdinal := type.ordinal
  token := type.token
  arity := (op.arity?.map Arity.count).getD 0
  handler := c.handlerName op

/-- The table of a catalog: the arms of its pairs, in their order. -/
def table : Table where
  catalog := c.name
  base := c.scheme.base
  controls := c.opcodes.controls.map fun op => { name := op.name, ordinal := op.ordinal }
  arms := c.pairs.map fun (op, type) => c.arm op type

end Catalog

namespace Table

variable (t : Table)

/-- The first arm with the given key. -/
def lookup? (key : UInt64) : Option Arm :=
  t.arms.find? (·.key == key)

def isControl (ordinal : UInt32) : Bool :=
  t.controls.any (·.ordinal == ordinal)

/-- Puts an arm under its key, which must be free. -/
def enter (index : Index UInt64 Arm) (arm : Arm) : Except Fault (Index UInt64 Arm) :=
  match index.get? arm.key with
  | some first => .error (.sharedKey arm.key first.pairing arm.pairing)
  | none => .ok (index.insert arm.key arm)

/-- Takes the arm under the key of a pair out, which must name the pair. -/
def withdraw (c : Catalog) (index : Index UInt64 Arm) (pair : Opcode × ElementType) :
    Except Fault (Index UInt64 Arm) :=
  let key := c.key pair.1 pair.2
  let expected : Pairing := { opcode := pair.1.name, element := pair.2.name }
  if (index.get? key).map Arm.pairing = some expected then .ok (index.erase key)
  else .error (.missingArm expected)

/-- Checks the table against a catalog: an index of the arms is filled, and then emptied pair by pair
in catalog order. What is left belongs to no pair. -/
def verify (c : Catalog) : Except Fault Unit := do
  let filled ← t.arms.foldlM enter .empty
  let left ← c.pairs.foldlM (withdraw c) filled
  match t.arms.find? fun arm => left.contains arm.key with
  | some arm => throw (.unexpectedArm arm.pairing)
  | none => return ()

end Table

/-- Expands a catalog into its verified table. -/
def Catalog.emitTable (c : Catalog) : Except Fault Table := do
  if c.table.arms.isEmpty then
    throw .nothingToDispatch
  c.table.verify c
  return c.table

end DispatchGen
