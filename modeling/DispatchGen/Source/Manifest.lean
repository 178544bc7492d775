import DispatchGen.Source.Artifact
import DispatchGen.Text.Json

/-!
# Manifests

The machine-readable listing of an artifact's structure: its table and its handlers.
-/

namespace DispatchGen

def ControlEntry.toJson (control : ControlEntry) : Json :=
  .object [("name", .string control.name), ("ordinal", .number control.ordinal.toNat)]

def Arm.toJson (arm : Arm) : Json :=
  .object [
    ("key", .number arm.key.toNat),
    ("opcode", .string arm.opcode),
    ("opcode_ordinal", .number arm.opcodeOrdinal.toNat),
    ("element", .string arm.element),
    ("element_ordinal", .number arm.elementOrdinal.toNat),
    ("token", .string arm.token),
    ("arity", .number arm.arity),
    ("handler", .string arm.handler)]

def Stub.toJson (stub : Stub) : Json :=
  .object [
    ("name", .string stub.name),
    ("opcode", .string stub.opcode),
    ("arity", .number stub.arity),
    ("operands", .list (stub.operands.map .string))]

namespace Artifact

variable (a : Artifact)

def manifest : Json :=
  .object [
    ("catalog", .string a.table.catalog),
    ("target", .string a.target.name),
    ("base", .number a.table.base.toNat),
    ("controls", .list (a.table.controls.map ControlEntry.toJson)),
    ("arms", .list (a.table.arms.map Arm.toJson)),
    ("handlers", .list (a.handlers.map Stub.toJson))]

def manifestText : String :=
  a.manifest.pretty 0

end Artifact

end DispatchGen
