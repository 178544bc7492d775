import DispatchGen.Catalog.Key
import DispatchGen.Catalog.Naming
import DispatchGen.Catalog.Opcode

/-!
# Catalogs

A catalog is the generator's whole input: the element types, the opcodes with their arities, the key
base and the naming rule. A `CatalogDecl` is what someone writes down; `CatalogDecl.build` validates
it, stage by stage: types and exclusions, opcodes, base, handlers, and last that something is left to
dispatch. Everything downstream takes a built `Catalog`.
-/

namespace DispatchGen

/-- Validated generator input. -/
structure Catalog where
  name : String
  types : TypeCatalog
  opcodes : OpcodeCatalog
  scheme : KeyScheme
  naming : Naming
deriving DecidableEq, Repr

namespace Catalog

/-- The opcode's handler is an identifier, and no earlier opcode has the same handler. -/
def checkHandler (naming : Naming) (before : List Opcode) (op : Opcode) : Except Fault Unit := do
  let handler := naming.handlerName op.name
  requireIdentifier handler
  match before.find? (naming.handlerName ·.name == handler) with
  | some first => throw (.sharedHandler handler first.name op.name)
  | none => pure ()

/-- Combines validated types and opcodes. -/
def ofParts (name : String) (types : TypeCatalog) (opcodes : OpcodeCatalog) (base : UInt32)
    (naming : Naming) : Except Fault Catalog := do
  let scheme ← KeyScheme.forTypes base types
  checkEach (checkHandler naming) [] opcodes.numeric
  if types.dispatchable.isEmpty || opcodes.numeric.isEmpty then
    throw .nothingToDispatch
  return { name, types, opcodes, scheme, naming }

variable (c : Catalog)

def handlerName (op : Opcode) : String :=
  c.naming.handlerName op.name

def key (op : Opcode) (type : ElementType) : UInt64 :=
  c.scheme.derive op.ordinal type.ordinal

/-- Every numeric opcode with every dispatchable type, opcode by opcode in declaration order. -/
def pairs : List (Opcode × ElementType) :=
  c.opcodes.numeric.flatMap fun op => c.types.dispatchable.map fun type => (op, type)

/-- The number of dispatch arms the catalog gives. -/
def pairCount : Nat :=
  c.opcodes.numeric.length * c.types.dispatchable.length

end Catalog

/-- A catalog as declared. -/
structure CatalogDecl where
  name : String := "catalog"
  base : UInt32 := defaultBase
  naming : Naming := {}
  types : List TypeDecl := []
  exclude : List String := []
  control : List OpcodeDecl := []
  groups : List GroupDecl := []
deriving DecidableEq, Repr

/-- Validates a declaration; the first failing stage is reported. -/
def CatalogDecl.build (decl : CatalogDecl) : Except Fault Catalog := do
  let types ← TypeCatalog.ofTypes (TypeDecl.resolveAll decl.types) decl.exclude
  let opcodes ← OpcodeCatalog.ofDecls decl.groups decl.control
  Catalog.ofParts decl.name types opcodes decl.base decl.naming

end DispatchGen
