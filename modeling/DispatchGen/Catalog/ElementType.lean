import DispatchGen.Checklist
import DispatchGen.Fault
import DispatchGen.Text.Lowercase

/-!
# Element types

The closed, ordered set of scalar kinds an operand may hold at run time, and the exclusions: types
that are declared but never paired with an opcode. `TypeCatalog.ofTypes` is the only way in; it
reports the first fault in declaration order.
-/

namespace DispatchGen

/-- A scalar kind operands may hold: its canonical name, the token that stands for it in generated
code, and the ordinal it has at run time. -/
structure ElementType where
  name : String
  token : String
  ordinal : UInt32
deriving DecidableEq, Repr

/-- The type whose token is its lowercased name. -/
def ElementType.named (name : String) (ordinal : UInt32) : ElementType :=
  { name, token := Text.lowercase name, ordinal }

/-- A type as declared: a missing token is the lowercased name, a missing ordinal the position. -/
structure TypeDecl where
  name : String
  token : Option String := none
  ordinal : Option UInt32 := none
deriving DecidableEq, Repr

namespace TypeDecl

def resolve (decl : TypeDecl) (position : Nat) : ElementType :=
  let named := ElementType.named decl.name (decl.ordinal.getD (UInt32.ofNat position))
  { named with token := decl.token.getD named.token }

/-- The types of a list of declarations; positions count from zero. -/
def resolveAll (decls : List TypeDecl) : List ElementType :=
  decls.zipIdx.map fun (decl, position) => decl.resolve position

end TypeDecl

/-- The validated types, in declaration order, and the names that were excluded. -/
structure TypeCatalog where
  types : List ElementType
  exclusions : List String
deriving DecidableEq, Repr

namespace TypeCatalog

/-- A type's name and token fit generated code, and no earlier type has its name or ordinal. -/
def checkType (before : List ElementType) (type : ElementType) : Except Fault Unit := do
  requireIdentifier type.name
  requireTypeToken type.token
  if before.any (·.name == type.name) then
    throw (.repeatedType type.name)
  match before.find? (·.ordinal == type.ordinal) with
  | some first => throw (.sharedTypeOrdinal type.ordinal first.name type.name)
  | none => pure ()

/-- An excluded name is the name of a declared type. -/
def checkExclusion (types : List ElementType) (name : String) : Except Fault Unit :=
  if types.any (·.name == name) then .ok () else .error (.unknownExclusion name)

/-- The catalog of `types` without `exclusions`, which may repeat names and come in any order. -/
def ofTypes (types : List ElementType) (exclusions : List String) : Except Fault TypeCatalog := do
  if types.isEmpty then
    throw .noTypes
  checkEach checkType [] types
  checkEach (fun _ => checkExclusion types) [] exclusions
  return { types, exclusions }

variable (c : TypeCatalog)

/-- The type must never be paired with an opcode. -/
def isExcluded (type : ElementType) : Bool :=
  c.exclusions.contains type.name

def excluded : List ElementType :=
  c.types.filter c.isExcluded

/-- The types that receive dispatch arms. -/
def dispatchable : List ElementType :=
  c.types.filter (!c.isExcluded ·)

def get? (name : String) : Option ElementType :=
  c.types.find? (·.name == name)

def byOrdinal? (ordinal : UInt32) : Option ElementType :=
  c.types.find? (·.ordinal == ordinal)

/-- The largest ordinal, excluded types included: they still reach the generated switch. -/
def maxOrdinal : UInt32 :=
  c.types.foldl (fun largest type => max largest type.ordinal) 0

end TypeCatalog

end DispatchGen
