import DispatchGen.Dispatch.Stub
import DispatchGen.Dispatch.Table
import DispatchGen.Source.Options

/-!
# The C++ artifact

A routine with one `switch` over opcodes, which holds a second `switch` over dispatch keys, and one
function template per handler:

```text
case 1203: // VE_ADD x VE_INT32
    iter_3<ve_int32>(instr, &ve_add);
    break;
```
-/

namespace DispatchGen.Cpp

/-- The comment line that opens an artifact. -/
def header (catalog : String) : Layout :=
  [.line s!"// Generated by ve-gen from catalog '{catalog}'. Do not edit."]

/-- A case label, with a comment behind literal labels where comments are wanted. -/
def label (o : Options) (literal symbolic comment : String) : String :=
  match o.keyStyle with
  | .symbolic => s!"case {symbolic}:"
  | .literal => if o.comments then s!"case {literal}: // {comment}" else s!"case {literal}:"

def armLabel (o : Options) (base : UInt32) (arm : Arm) : String :=
  label o s!"{arm.key}" s!"{arm.opcode}*{base}+{arm.element}" arm.pairing.text

def controlLabel (o : Options) (control : ControlEntry) : String :=
  label o s!"{control.ordinal}" control.name control.name

/-- A handler's declaration: the instruction, then a pointer per operand. -/
def stub (o : Options) (stub : Stub) : Layout :=
  let params := ", ".intercalate
    (s!"{o.symbols.instructionType} *instr" :: stub.operands.map fun op => s!"T *{op}")
  [.line "template <typename T>",
    .braced s!"{o.symbols.statusType} {stub.name}({params})" [
      .line "// kernel body goes here",
      .line s!"return {o.symbols.successStatus};"]]

/-- One case of the switch over keys. -/
def arm (o : Options) (base : UInt32) (arm : Arm) : Layout :=
  [.block (armLabel o base arm) [
      .line s!"{o.symbols.iteratePrefix}{arm.arity}<{arm.token}>(instr, &{arm.handler});",
      .line "break;"]
    none]

/-- The control opcodes' labels share one `break`. -/
def controls (o : Options) (controls : List ControlEntry) : Layout :=
  if controls.isEmpty then []
  else
    controls.map (fun control => .line (controlLabel o control)) ++
      [.indent, .line "break;", .dedent, .blank]

/-- An unknown key is reported by the opcode's name and ends the routine. -/
def unknownKey (o : Options) : Layout :=
  [.block "default:" [
      .block "fprintf(" [
          .line "stderr,",
          .line ("\"" ++ o.symbols.routineName ++
            "() encountered an unsupported instruction: %s\\n\","),
          .line s!"{o.symbols.opcodeText}(instr->opcode)"]
        (some ");"),
      .line s!"return {o.symbols.unsupportedStatus};"]
    none]

/-- The dispatch over keys; they have 64 bits, which a plain `long` need not have. -/
def dispatch (o : Options) (t : Table) : Layout :=
  [.line ("const long long key = (long long)instr->opcode * " ++ s!"{t.base}" ++
      " + instr->operand[0]->type;"),
    .braced "switch (key)" (t.arms.flatMap (arm o t.base) ++ .blank :: unknownKey o),
    .line "break;"]

/-- The whole routine. -/
def routine (o : Options) (t : Table) : Layout :=
  let s := o.symbols
  [.braced (s!"{s.statusType} {s.routineName}({s.indexType} instruction_count, " ++
        s.instructionType ++ " instruction_list[])") [
      .braced s!"for ({s.indexType} i = 0; i < instruction_count; ++i)" [
        .line s!"{s.instructionType} *instr = &instruction_list[i];",
        .braced "switch (instr->opcode)" (controls o t.controls ++
          [.braced "default:" (dispatch o t)])],
      .line s!"return {s.successStatus};"]]

end DispatchGen.Cpp
