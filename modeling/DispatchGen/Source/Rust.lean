import DispatchGen.Dispatch.Stub
import DispatchGen.Dispatch.Table
import DispatchGen.Source.Options

/-!
# The Rust artifact

A routine with one `match` over dispatch keys, meant to be included into the engine's own source, and
one generic function per handler. Patterns cannot hold arithmetic, so keys are always literal:

```text
1203 => iter_3::<ve_int32>(instr, ve_add), // VE_ADD x VE_INT32
```
-/

namespace DispatchGen.Rust

/-- The comment line that opens an artifact. -/
def header (catalog : String) : Layout :=
  [.line s!"// @generated by ve-gen from catalog '{catalog}'. Do not edit."]

/-- The parameters of a handler: the first operand is the output, hence mutable. -/
def operandParams : List String → List String
  | [] => []
  | output :: inputs => s!"{output}: &mut T" :: inputs.map fun op => s!"{op}: &T"

/-- A handler's declaration, whose body uses every parameter once. -/
def stub (o : Options) (stub : Stub) : Layout :=
  let params := ", ".intercalate
    (s!"instr: &{o.symbols.instructionType}" :: operandParams stub.operands)
  let names := ", ".intercalate ("instr" :: stub.operands)
  [.braced s!"pub fn {stub.name}<T>({params}) -> {o.symbols.statusType}" [
      .line s!"let _ = ({names});",
      .line "// kernel body goes here",
      .line o.symbols.successStatus]]

/-- One arm of the match over keys. -/
def arm (o : Options) (arm : Arm) : Layout :=
  let call :=
    s!"{arm.key} => {o.symbols.iteratePrefix}{arm.arity}::<{arm.token}>(instr, {arm.handler}),"
  [.line (if o.comments then s!"{call} // {arm.pairing.text}" else call)]

/-- Ends the routine with the opcode's name. -/
def refuse (o : Options) : String :=
  s!"return {o.symbols.unsupportedStatus}({o.symbols.opcodeText}(opcode))"

/-- The test for control opcodes, under a comment that names them. -/
def controls (o : Options) (controls : List ControlEntry) : Layout :=
  if controls.isEmpty then []
  else
    let names := ", ".intercalate (controls.map (·.name))
    let ordinals := " | ".intercalate (controls.map fun control => toString control.ordinal)
    (if o.comments then [.line s!"// {names}"] else []) ++
      [.braced s!"if matches!(opcode, {ordinals})" [.line "continue;"]]

/-- The element type of the first operand; an instruction without one is refused. -/
def element (o : Options) : Layout :=
  [.block "let element = match instr.operands().first() \x7b" [
      .line "Some(operand) => operand.type_ordinal(),",
      .line s!"None => {refuse o},"]
    (some "\x7d;")]

/-- The whole routine. -/
def routine (o : Options) (t : Table) : Layout :=
  let s := o.symbols
  [.braced s!"pub fn {s.routineName}(instructions: &[{s.instructionType}]) -> {s.statusType}" [
      .braced "for instr in instructions" (
        .line "let opcode = instr.opcode();" :: controls o t.controls ++ element o ++
          [.line s!"let key = u64::from(opcode) * {t.base} + u64::from(element);",
            .braced "match key" (t.arms.flatMap (arm o) ++ [.line s!"_ => {refuse o},"])]),
      .line s.successStatus]]

end DispatchGen.Rust
