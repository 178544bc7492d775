import DispatchGen.Checklist
import DispatchGen.Fault

/-!
# Opcodes

Numeric opcodes are partitioned into arity groups: a group lists the opcodes whose handlers take that
many operands. Control opcodes sit outside the partition and never reach numeric dispatch. An opcode
without an explicit ordinal takes its position among all declarations, controls first.
`OpcodeCatalog.ofDecls` checks the groups' shapes, then the names, then the ordinals.
-/

namespace DispatchGen

/-- Whether an opcode reaches numeric dispatch. -/
inductive OpcodeKind where
  | numeric (arity : Arity)
  | control
deriving DecidableEq, Repr

/-- An instruction kind of the engine's bytecode. -/
structure Opcode where
  name : String
  ordinal : UInt32
  kind : OpcodeKind
deriving DecidableEq, Repr

namespace Opcode

def arity? (op : Opcode) : Option Arity :=
  match op.kind with
  | .numeric arity => some arity
  | .control => none

def isControl (op : Opcode) : Bool :=
  op.kind == .control

end Opcode

/-- An opcode as declared. -/
structure OpcodeDecl where
  name : String
  ordinal : Option UInt32 := none
deriving DecidableEq, Repr

/-- Numbers declarations of one kind from `start` on; an explicit ordinal stands, and still takes up
its position. -/
def OpcodeDecl.number (kind : OpcodeKind) (start : Nat) (decls : List OpcodeDecl) : List Opcode :=
  (decls.zipIdx start).map fun (decl, position) =>
    { name := decl.name, ordinal := decl.ordinal.getD (UInt32.ofNat position), kind }

/-- An arity group as declared; its operand count may be anything. -/
structure GroupDecl where
  arity : Int64
  opcodes : List OpcodeDecl
deriving DecidableEq, Repr

namespace GroupDecl

/-- The supported arity behind the declared operand count. -/
def requireArity (group : GroupDecl) : Except Fault Arity :=
  match Arity.ofCount? group.arity.toInt with
  | some arity => .ok arity
  | none => .error (.unsupportedArity group.arity.toInt)

/-- A group has a supported arity that no earlier group has, and at least one opcode. -/
def checkShape (before : List GroupDecl) (group : GroupDecl) : Except Fault Unit := do
  let arity ← group.requireArity
  if group.opcodes.isEmpty then
    throw (.emptyGroup arity.count)
  if before.any (·.arity == group.arity) then
    throw (.repeatedArity arity.count)

end GroupDecl

/-- All opcodes that share one arity. -/
structure OpcodeGroup where
  arity : Arity
  opcodes : List Opcode
deriving DecidableEq, Repr

/-- Numbers groups one after the other from `start` on. -/
def OpcodeGroup.number (start : Nat) : List (Arity × List OpcodeDecl) → List OpcodeGroup
  | [] => []
  | (arity, decls) :: rest =>
    { arity, opcodes := OpcodeDecl.number (.numeric arity) start decls } ::
      number (start + decls.length) rest

/-- The validated opcodes, in declaration order. -/
structure OpcodeCatalog where
  groups : List OpcodeGroup
  controls : List Opcode
deriving DecidableEq, Repr

namespace OpcodeCatalog

section
variable (c : OpcodeCatalog)

/-- The numeric opcodes, group by group. -/
def numeric : List Opcode :=
  c.groups.flatMap (·.opcodes)

/-- Every opcode, controls first. -/
def all : List Opcode :=
  c.controls ++ c.numeric

def get? (name : String) : Option Opcode :=
  c.all.find? (·.name == name)

/-- The opcode a run-time ordinal stands for. -/
def byOrdinal? (ordinal : UInt32) : Option Opcode :=
  c.all.find? (·.ordinal == ordinal)

/-- A control opcode of the catalog has the opcode's name. -/
def isControl (op : Opcode) : Bool :=
  c.controls.any (·.name == op.name)

def maxOrdinal : UInt32 :=
  c.all.foldl (fun largest op => max largest op.ordinal) 0

end

/-- The fault of declaring a second opcode with the name of `first`. -/
def clash (first second : Opcode) : Fault :=
  match first.kind, second.kind with
  | .control, .numeric arity => .controlInGroup second.name arity.count
  | .control, .control => .repeatedOpcode second.name .controlSet .controlSet
  | .numeric a, .numeric b => .repeatedOpcode second.name (.group a) (.group b)
  | .numeric a, .control => .repeatedOpcode second.name (.group a) .controlSet

/-- An opcode's name is an identifier that no earlier opcode has. -/
def checkName (before : List Opcode) (op : Opcode) : Except Fault Unit := do
  requireIdentifier op.name
  match before.find? (·.name == op.name) with
  | some first => throw (clash first op)
  | none => pure ()

/-- No earlier opcode has the opcode's ordinal. -/
def checkOrdinal (before : List Opcode) (op : Opcode) : Except Fault Unit :=
  match before.find? (·.ordinal == op.ordinal) with
  | some first => .error (.sharedOpcodeOrdinal op.ordinal first.name op.name)
  | none => .ok ()

def ofDecls (groups : List GroupDecl) (controls : List OpcodeDecl) : Except Fault OpcodeCatalog := do
  checkEach GroupDecl.checkShape [] groups
  let shaped ← groups.mapM fun group => return (← group.requireArity, group.opcodes)
  let catalog : OpcodeCatalog :=
    { controls := OpcodeDecl.number .control 0 controls,
      groups := OpcodeGroup.number controls.length shaped }
  checkEach checkName [] catalog.all
  checkEach checkOrdinal [] catalog.all
  return catalog

end OpcodeCatalog

end DispatchGen
