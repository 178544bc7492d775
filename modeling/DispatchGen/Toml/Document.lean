import DispatchGen.Toml.Assembly
import DispatchGen.Toml.Datetime

/-!
# Documents

The grammar of TOML 1.0 above strings, numbers and dates: keys, values and statements. `parse?` reads a
whole document into its value tree. Nesting is limited, so that reading a value recurses on the
levels that are left.
-/

namespace DispatchGen.Toml

open Reader

/-- Values nest fewer levels than this, and dotted keys have fewer parts. -/
def nestingLimit : Nat := 80

def isBareKeyChar (c : Char) : Bool :=
  c.isAlphanum || c == '-' || c == '_'

def bareKey : Reader String := do
  return String.ofList (← run1 isBareKeyChar)

def simpleKey : Reader String :=
  basicString <|> literalString <|> bareKey

/-- Keys with dots between them; blanks may stand around each. -/
def dottedKey : Reader DottedKey := do
  let parts ← sepBy (do blanks; let key ← simpleKey; blanks; return key) (char '.')
  guard (parts.length < nestingLimit)
  match parts.getLast? with
  | some last => return { path := parts.dropLast, last }
  | none => failure

/-- A key and, behind an equals sign, its value. -/
def assignment (value : Reader Value) : Reader (DottedKey × Value) := do
  let key ← dottedKey
  char '='
  blanks
  return (key, ← value)

/-- Items between square brackets; a comma may follow the last. -/
def array (value : Reader Value) : Reader Value := do
  char '['
  let items ← optional (sepBy (do filler; let v ← value; filler; return v) (char ','))
  if items.isSome then
    let _ ← optional (char ',')
  filler
  char ']'
  return .array (items.getD [])

/-- Assignments between braces, on one line. -/
def inlineTable (value : Reader Value) : Reader Value := do
  char '\x7b'
  let assignments ← optional
    (sepBy (do let a ← assignment value; blanks; return a) (char ','))
  blanks
  char '\x7d'
  match inlineTable? (assignments.getD []) with
  | some table => return table
  | none => failure

/-- A value without parts. -/
def scalarValue : Reader Value :=
  Value.string <$> string <|> Value.datetime <$> datetime <|> Value.float <$> float <|>
    Value.integer <$> integer <|> (do word "true"; return .boolean true) <|>
    (do word "false"; return .boolean false)

/-- A value that nests at most the given number of levels. -/
def value : Nat → Reader Value
  | 0 => scalarValue
  | levels + 1 => scalarValue <|> array (value levels) <|> inlineTable (value levels)

/-- One line, with its end: a header, an assignment, or neither. -/
def statement : Reader (Option Statement) := do
  guard (← peek).isSome
  blanks
  let found ← optional <|
    (do word "[["; let key ← dottedKey; word "]]"; return .openElement key) <|>
    (do char '['; let key ← dottedKey; char ']'; return .openTable key) <|>
    (do let (key, v) ← assignment (value (nestingLimit - 1)); return .assign key v)
  lineEnd
  return found

/-- All lines of a document, which a byte order mark may precede. -/
def statements : Reader (List Statement) := do
  let _ ← optional (char '\ufeff')
  let found ← many statement
  finish
  return found.filterMap id

/-- The value tree of a document. -/
def parse? (text : String) : Option Value := do
  let (found, _) ← statements text.toList
  document? found

end DispatchGen.Toml
