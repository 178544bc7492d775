import DispatchGen.CatalogFile.Basic
import DispatchGen.Toml.Printer
import DispatchGen.Toml.Record

/-!
# Catalog files as TOML

`CatalogFile.toEntries` writes a file down as the entries of a TOML table and `CatalogFile.ofValue?`
reads it from a value tree; `toText` and `ofText` add the text of the document. Options that are not
set are left out, and an opcode is its name unless it has an ordinal. The only number that may be too
large for TOML is the indent.
-/

namespace DispatchGen

open Toml

/-! ## Writing -/

/-- An entry of a table that is left out where there is no value. -/
def optionalEntry (key : String) (value : Option Value) : List (String × Value) :=
  (value.map fun v => (key, v)).toList

def natural (n : Nat) : Value :=
  .integer n

def OpcodeDecl.toValue (decl : OpcodeDecl) : Value :=
  match decl.ordinal with
  | none => .string decl.name
  | some ordinal => .table [("name", .string decl.name), ("ordinal", natural ordinal.toNat)]

def TypeDecl.toValue (decl : TypeDecl) : Value :=
  .table (("name", .string decl.name) ::
    (optionalEntry "token" (decl.token.map .string) ++
      optionalEntry "ordinal" (decl.ordinal.map fun ordinal => natural ordinal.toNat)))

def GroupDecl.toValue (group : GroupDecl) : Value :=
  .table [
    ("arity", .integer group.arity.toInt),
    ("opcodes", .array (group.opcodes.map OpcodeDecl.toValue))]

def Naming.toValue (naming : Naming) : Value :=
  .table [
    ("opcode_prefix", .string naming.opcodePrefix),
    ("handler_prefix", .string naming.handlerPrefix)]

/-- The keys of the symbols in a file, and their places among the overrides. -/
def Symbols.fields : Symbols Field where
  routineName := ⟨4, "routine_name"⟩
  instructionType := ⟨5, "instruction_type"⟩
  indexType := ⟨6, "index_type"⟩
  statusType := ⟨7, "status_type"⟩
  successStatus := ⟨8, "success_status"⟩
  unsupportedStatus := ⟨9, "unsupported_status"⟩
  opcodeText := ⟨10, "opcode_text_fn"⟩
  iteratePrefix := ⟨11, "iterate_prefix"⟩

def Overrides.toValue (o : Overrides) : Value :=
  .table (
    optionalEntry "target" (o.target.map fun target => .string target.name) ++
      optionalEntry "key_style" (o.keyStyle.map fun style => .string style.name) ++
      optionalEntry "comments" (o.comments.map .boolean) ++
      optionalEntry "indent" (o.indent.map fun size => natural size.toNat) ++
      (Symbols.fields.zipWith (fun field text => optionalEntry field.key (text.map .string))
        o.symbols).toList.flatten)

namespace CatalogFile

/-- The entries of a file's table. -/
def toEntries (file : CatalogFile) : List (String × Value) :=
  [("name", .string file.decl.name),
    ("base", natural file.decl.base.toNat),
    ("exclude", .array (file.decl.exclude.map .string)),
    ("control", .array (file.decl.control.map OpcodeDecl.toValue)),
    ("naming", file.decl.naming.toValue),
    ("render", file.render.toValue),
    ("types", .array (file.decl.types.map TypeDecl.toValue)),
    ("groups", .array (file.decl.groups.map GroupDecl.toValue))]

/-- The text of a file. -/
def toText (file : CatalogFile) : Except Fault String :=
  if ((file.render.indent.getD 0).toNat : Int) ≤ maxInteger then
    .ok (Value.document file.toEntries)
  else
    .error (.inexpressible "the indent is out of range")

end CatalogFile

/-! ## Reading -/

/-- An opcode is its name, or a table with name and ordinal. -/
def OpcodeDecl.ofValue? : Value → Option OpcodeDecl
  | .string name => some { name }
  | .table entries => do
    let name ← (← entries.lookup "name").string?
    let ordinal ← (← entries.lookup "ordinal").uint32?
    return { name, ordinal := some ordinal }
  | _ => none

def TypeDecl.ofValue? (value : Value) : Option TypeDecl := do
  let record ← value.record?
  return {
    name := ← record.required ⟨0, "name"⟩ Value.string?
    token := ← record.optional ⟨1, "token"⟩ Value.string?
    ordinal := ← record.optional ⟨2, "ordinal"⟩ Value.uint32? }

def GroupDecl.ofValue? (value : Value) : Option GroupDecl := do
  let record ← value.record?
  return {
    arity := ← record.required ⟨0, "arity"⟩ Value.int64?
    opcodes := ← record.required ⟨1, "opcodes"⟩ (Value.list? OpcodeDecl.ofValue?) }

def Naming.ofValue? (value : Value) : Option Naming := do
  let record ← value.record?
  return {
    opcodePrefix := ← record.withDefault ⟨0, "opcode_prefix"⟩ "" Value.string?
    handlerPrefix := ← record.withDefault ⟨1, "handler_prefix"⟩ "" Value.string? }

def Target.choices : List (String × Target) :=
  [("cpp", .cpp), ("rust", .rust)]

def KeyStyle.choices : List (String × KeyStyle) :=
  [("literal", .literal), ("symbolic", .symbolic)]

def Overrides.ofValue? (value : Value) : Option Overrides := do
  let record ← value.record?
  return {
    target := ← record.optional ⟨0, "target"⟩ (Value.choice? Target.choices)
    keyStyle := ← record.optional ⟨1, "key_style"⟩ (Value.choice? KeyStyle.choices)
    comments := ← record.optional ⟨2, "comments"⟩ Value.boolean?
    indent := ← record.optional ⟨3, "indent"⟩ Value.uint64?
    symbols := ← Symbols.fields.traverse fun field => record.optional field Value.string? }

namespace CatalogFile

/-- The file that a value tree describes; what is left out takes its default. -/
def ofValue? (value : Value) : Option CatalogFile := do
  let record ← value.record?
  return {
    decl := {
      name := ← record.withDefault ⟨0, "name"⟩ "catalog" Value.string?
      base := ← record.withDefault ⟨1, "base"⟩ defaultBase Value.uint32?
      exclude := ← record.withDefault ⟨2, "exclude"⟩ [] (Value.list? Value.string?)
      control := ← record.withDefault ⟨3, "control"⟩ [] (Value.list? OpcodeDecl.ofValue?)
      naming := ← record.withDefault ⟨4, "naming"⟩ {} Naming.ofValue?
      types := ← record.withDefault ⟨6, "types"⟩ [] (Value.list? TypeDecl.ofValue?)
      groups := ← record.withDefault ⟨7, "groups"⟩ [] (Value.list? GroupDecl.ofValue?) }
    render := ← record.withDefault ⟨5, "render"⟩ {} Overrides.ofValue? }

/-- The file that a text describes. -/
def ofText (text : String) : Except Fault CatalogFile :=
  match Toml.parse? text with
  | none => .error (.malformedDocument "the text is not a TOML document")
  | some value =>
    match ofValue? value with
    | none => .error (.malformedDocument "the document does not describe a catalog")
    | some file => .ok file

end CatalogFile

end DispatchGen
