import DispatchGen.Proofs.LineReading
import DispatchGen.Source.Options

/-!
# Reading a switch back

`Switch.read?` recovers from the text of a generated C++ routine what its two switches say: the labels
of the control opcodes, the multiplier of the keys and the arms of the switch over keys, in order. It
goes by the lines of the text alone; of the options only the style of the labels and the prefix of the
iterators are known to it.
-/

namespace DispatchGen

open Text

/-- What a case label says. -/
inductive CaseLabel where
  | number (value : Nat)
  | name (opcode : String)
  /-- A key, as the sum of a multiple of an opcode's ordinal and a type's. -/
  | sum (opcode : String) (multiplier : Nat) (element : String)
deriving DecidableEq, Repr

/-- One arm of the switch over keys. -/
structure SwitchArm where
  label : CaseLabel
  arity : Nat
  token : String
  handler : String
deriving DecidableEq, Repr

/-- What the switches of a routine say. -/
structure Switch where
  controls : List CaseLabel
  multiplier : Nat
  arms : List SwitchArm
deriving DecidableEq, Repr

/-! ## Lines -/

namespace CaseLabel

/-- A label in numbers, behind which a comment may stand. -/
def number? (label : List Char) : Option CaseLabel := do
  let (value, rest) ← Text.number? label
  if rest = ":".toList ∨ ": // ".toList <+: rest then some (.number value) else none

/-- A label in names; a colon in it is the last character. -/
def names? (label : List Char) : Option CaseLabel :=
  if label.getLast? = some ':' then
    match before? '*' label.dropLast with
    | none => some (.name (.ofList label.dropLast))
    | some (opcode, rest) => do
      let (multiplier, rest) ← Text.number? rest
      let element ← after? "+" rest
      some (.sum (.ofList opcode) multiplier (.ofList element))
  else none

/-- The label in a line. -/
def read? (style : KeyStyle) (line : List Char) : Option CaseLabel := do
  let label ← after? "case " line
  match style with
  | .literal => number? label
  | .symbolic => names? label

end CaseLabel

/-- An arm from the line of its label and the line of its call. -/
def SwitchArm.read? (iteratePrefix : String) (style : KeyStyle) (labelLine callLine : List Char) :
    Option SwitchArm := do
  let label ← CaseLabel.read? style labelLine
  let line ← after? iteratePrefix callLine
  let (arity, line) ← Text.number? line
  let line ← after? "<" line
  let (token, line) ← before? '(' line
  let line ← after? "instr, &" line
  let (handler, line) ← before? ')' line
  if token.getLast? = some '>' ∧ line = ";".toList then
    some { label, arity, token := .ofList token.dropLast, handler := .ofList handler }
  else none

namespace Switch

/-- The multiplier from the line that makes the key. -/
def multiplier? (line : List Char) : Option Nat := do
  let line ← after? "const long long key = (long long)instr->opcode * " line
  let (multiplier, line) ← Text.number? line
  if line = " + instr->operand[0]->type;".toList then some multiplier else none

/-- The arms in front of the first empty line, each of a label, a call and a `break`. -/
def arms? (iteratePrefix : String) (style : KeyStyle) : List (List Char) → Option (List SwitchArm)
  | label :: call :: ending :: rest =>
    if label = [] then some []
    else if ending = "break;".toList then do
      let arm ← SwitchArm.read? iteratePrefix style label call
      let arms ← arms? iteratePrefix style rest
      some (arm :: arms)
    else none
  | _ => none

/-! ## Texts -/

def isCase (line : List Char) : Bool :=
  "case ".toList.isPrefixOf line

/-- What the text of a routine says: the labels on top of the outer switch are the control opcodes',
its default makes the key, and the inner switch holds the arms. -/
def read? (iteratePrefix : String) (style : KeyStyle) (text : String) : Option Switch := do
  let cases := behind "switch (instr->opcode) \x7b" (bareLines text)
  let controls ← (cases.takeWhile isCase).mapM (CaseLabel.read? style)
  let dispatch := behind "default: \x7b" cases
  let multiplier ← dispatch.head?.bind multiplier?
  let arms ← arms? iteratePrefix style (behind "switch (key) \x7b" dispatch)
  return { controls, multiplier, arms }

end Switch

end DispatchGen
