/-!
# Readers

A reader takes something off the front of a text, or fails. A failed alternative takes nothing, so
`<|>` tries the next one from the same place. The character classes of TOML stand here too.
-/

namespace DispatchGen.Toml

abbrev Reader (α : Type) := StateT (List Char) Option α

namespace Reader

variable {α β : Type}

/-- One character of a class. -/
def satisfy (accept : Char → Bool) : Reader Char
  | [] => none
  | c :: rest => if accept c then some (c, rest) else none

def char (c : Char) : Reader Unit := do
  let _ ← satisfy (· == c)

/-- Exactly the given text. -/
def word (text : String) : Reader Unit := fun cs =>
  if text.toList.isPrefixOf cs then some ((), cs.drop text.length) else none

/-- The longest run of characters of a class, which may be empty. -/
def run (accept : Char → Bool) : Reader (List Char) := fun cs =>
  some (cs.span accept)

/-- The longest run of characters of a class, at least one. -/
def run1 (accept : Char → Bool) : Reader (List Char) := do
  return (← satisfy accept) :: (← run accept)

/-- Looks at the next character without taking it. -/
def peek : Reader (Option Char) := fun cs =>
  some (cs.head?, cs)

/-- Succeeds at the end of the text only. -/
def finish : Reader Unit
  | [] => some ((), [])
  | _ :: _ => none

/-- At most `limit` items, one after the other. -/
def upTo (item : Reader α) : Nat → Reader (List α)
  | 0 => pure []
  | limit + 1 => (do return (← item) :: (← upTo item limit)) <|> pure []

/-- As many items as there are. Every item takes at least one character, so there are no more items
than characters left. -/
def many (item : Reader α) : Reader (List α) := fun cs =>
  upTo item cs.length cs

/-- Exactly `count` items. -/
def exactly (item : Reader α) : Nat → Reader (List α)
  | 0 => pure []
  | count + 1 => do return (← item) :: (← exactly item count)

/-- Items with a separator between any two, at least one. -/
def sepBy (item : Reader α) (separator : Reader β) : Reader (List α) := do
  return (← item) :: (← many (separator *> item))

end Reader

/-! ## Character classes and blanks -/

/-- Beyond ASCII every character may stand in strings and comments. -/
def isBeyondAscii (c : Char) : Bool :=
  0x80 ≤ c.toNat

def isPrintable (c : Char) : Bool :=
  c == '\t' || (0x20 ≤ c.toNat && c.toNat ≤ 0x7e) || isBeyondAscii c

def isBlank (c : Char) : Bool :=
  c == ' ' || c == '\t'

namespace Reader

def blanks : Reader Unit := do
  let _ ← run isBlank

/-- A line feed, which a carriage return may precede. -/
def newline : Reader Unit :=
  char '\n' <|> word "\r\n"

/-- From a `#` to the end of the line. -/
def comment : Reader Unit := do
  char '#'
  let _ ← run isPrintable

/-- The end of a line: blanks, perhaps a comment, and a newline or the end of the text. -/
def lineEnd : Reader Unit := do
  blanks
  let _ ← optional comment
  newline <|> finish

/-- Blanks, newlines and comments, as they may stand between the items of an array. -/
def filler : Reader Unit := do
  let _ ← many ((do let _ ← satisfy isBlank) <|> newline <|> comment)

end Reader

end DispatchGen.Toml
