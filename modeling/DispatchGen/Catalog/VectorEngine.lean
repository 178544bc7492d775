import DispatchGen.Catalog.Basic

/-!
# The built-in vector engine

The opcode and type table the engine ships with. Arity counts every operand a handler touches, output
included: `VE_ADD` reads two inputs and writes one output, so it takes three.
-/

namespace DispatchGen.VectorEngine

private def opcodes (names : List String) : List OpcodeDecl :=
  names.map fun name => { name }

/-- The types of the engine's type enumeration, in its order. -/
def types : List String :=
  ["VE_BOOL", "VE_INT8", "VE_INT16", "VE_INT32", "VE_INT64", "VE_UINT8", "VE_UINT16", "VE_UINT32",
    "VE_UINT64", "VE_FLOAT16", "VE_FLOAT32", "VE_FLOAT64", "VE_COMPLEX64", "VE_COMPLEX128",
    "VE_UNKNOWN"]

/-- Opcodes that bypass numeric dispatch. -/
def control : List String :=
  ["VE_NONE", "VE_DISCARD", "VE_RELEASE", "VE_SYNC"]

/-- Sources: they only write their operand. -/
def oneOperand : List String :=
  ["VE_RANDOM", "VE_RANGE"]

/-- Element-wise functions of one input, and reductions. -/
def twoOperands : List String :=
  ["VE_IDENTITY", "VE_ABSOLUTE", "VE_NEGATIVE", "VE_INVERT", "VE_LOGICAL_NOT", "VE_SQRT", "VE_EXP",
    "VE_LOG", "VE_SIN", "VE_COS", "VE_TAN", "VE_FLOOR", "VE_CEIL", "VE_ADD_REDUCE",
    "VE_MULTIPLY_REDUCE", "VE_MINIMUM_REDUCE", "VE_MAXIMUM_REDUCE"]

/-- Element-wise functions of two inputs. -/
def threeOperands : List String :=
  ["VE_ADD", "VE_SUBTRACT", "VE_MULTIPLY", "VE_DIVIDE", "VE_POWER", "VE_MOD", "VE_MAXIMUM",
    "VE_MINIMUM", "VE_ARCTAN2", "VE_EQUAL", "VE_NOT_EQUAL", "VE_GREATER", "VE_GREATER_EQUAL",
    "VE_LESS", "VE_LESS_EQUAL", "VE_LOGICAL_AND", "VE_LOGICAL_OR", "VE_BITWISE_AND",
    "VE_BITWISE_OR", "VE_BITWISE_XOR", "VE_LEFT_SHIFT", "VE_RIGHT_SHIFT"]

/-- The whole table; `VE_UNKNOWN` is a placeholder without numeric meaning. -/
def decl : CatalogDecl where
  name := "vector-engine"
  base := defaultBase
  naming := { opcodePrefix := "VE_", handlerPrefix := "ve_" }
  types := types.map fun name => { name }
  exclude := ["VE_UNKNOWN"]
  control := opcodes control
  groups := [⟨1, opcodes oneOperand⟩, ⟨2, opcodes twoOperands⟩, ⟨3, opcodes threeOperands⟩]

end DispatchGen.VectorEngine
