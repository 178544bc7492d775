import DispatchGen.Toml.Reader

/-!
# Strings

TOML has four kinds of strings: basic (with escapes) and literal (without), each on one line or on
several. The first half of this module reads them; the second writes a text in the plainest kind that
can hold it (`quote`).
-/

namespace DispatchGen.Toml

open Reader

/-! ## Reading -/

/-- What may stand for itself in a basic string. -/
def isBasicChar (c : Char) : Bool :=
  isPrintable c && c != '"' && c != '\\'

/-- What may stand for itself in a literal string. -/
def isLiteralChar (c : Char) : Bool :=
  isPrintable c && c != '\''

def hexValue? (c : Char) : Option Nat :=
  if '0' ≤ c ∧ c ≤ '9' then some (c.toNat - '0'.toNat)
  else if 'a' ≤ c ∧ c ≤ 'f' then some (c.toNat - 'a'.toNat + 10)
  else if 'A' ≤ c ∧ c ≤ 'F' then some (c.toNat - 'A'.toNat + 10)
  else none

def isHexDigit (c : Char) : Bool :=
  (hexValue? c).isSome

/-- The number that digits denote in a base of at most sixteen. -/
def ofDigits (base : Nat) (digits : List Char) : Nat :=
  digits.foldl (fun n c => n * base + (hexValue? c).getD 0) 0

/-- A character given by exactly `count` hexadecimal digits; surrogates and numbers beyond Unicode
name none. -/
def scalar (count : Nat) : Reader Char := do
  let point := ofDigits 16 (← exactly (satisfy isHexDigit) count)
  if point.isValidChar then return Char.ofNat point else failure

/-- The escape behind a backslash. -/
def escape : Reader Char := do
  char '\\'
  match ← satisfy fun _ => true with
  | 'b' => return '\x08'
  | 't' => return '\t'
  | 'n' => return '\n'
  | 'f' => return '\x0c'
  | 'r' => return '\r'
  | '"' => return '"'
  | '\\' => return '\\'
  | 'u' => scalar 4
  | 'U' => scalar 8
  | _ => failure

/-- A string on one line, in double quotes. -/
def basicString : Reader String := do
  char '"'
  let pieces ← many (run1 isBasicChar <|> do return [← escape])
  char '"'
  return String.ofList pieces.flatten

/-- A string on one line, in single quotes. -/
def literalString : Reader String := do
  char '\''
  let cs ← run isLiteralChar
  char '\''
  return String.ofList cs

/-- One or two quotes, as content of a string that three quotes end. -/
def innerQuotes (quote : Char) : Reader (List Char) := fun cs =>
  let (quotes, rest) := cs.span (· == quote)
  if quotes.length = 1 ∨ quotes.length = 2 then some (quotes, rest) else none

/-- The three quotes that end a string, before which one or two more belong to the content. -/
def closingQuotes (quote : Char) : Reader (List Char) := fun cs =>
  let count := (cs.takeWhile (· == quote)).length
  if count < 3 then none
  else
    let inner := min (count - 3) 2
    some (List.replicate inner quote, cs.drop (inner + 3))

/-- A backslash at the end of a line joins it to the next text, blanks and empty lines left out. -/
def lineJoin : Reader Unit := do
  char '\\'
  blanks
  newline
  let _ ← many (newline <|> do let _ ← satisfy isBlank)

/-- A newline in a string of several lines is a line feed, however it was written. -/
def innerNewline : Reader (List Char) := do
  newline
  return ['\n']

/-- A piece of a basic string of several lines. -/
def basicPiece : Reader (List Char) :=
  run1 isBasicChar <|> (do lineJoin; return []) <|> (do return [← escape]) <|> innerNewline

/-- A piece of a literal string of several lines. -/
def literalPiece : Reader (List Char) :=
  run1 isLiteralChar <|> innerNewline

/-- The body of a string of several lines: a newline right behind the opening quotes is left out. -/
def multilineBody (quote : Char) (piece : Reader (List Char)) : Reader String := do
  let _ ← optional newline
  let pieces ← many (piece <|> innerQuotes quote)
  let last ← closingQuotes quote
  return String.ofList (pieces.flatten ++ last)

def multilineBasicString : Reader String := do
  word "\"\"\""
  multilineBody '"' basicPiece

def multilineLiteralString : Reader String := do
  word "'''"
  multilineBody '\'' literalPiece

def string : Reader String :=
  multilineBasicString <|> basicString <|> multilineLiteralString <|> literalString

/-! ## Writing -/

/-- A control character that no kind of string shows as it is. -/
def isControl (c : Char) : Bool :=
  (c.toNat < 0x20 && c != '\t' && c != '\n') || c.toNat == 0x7f

/-- The longest run of a character in a text. -/
def longestRun (c : Char) (cs : List Char) : Nat :=
  (cs.foldl
    (fun (current, longest) d =>
      if d = c then (current + 1, max longest (current + 1)) else (0, longest))
    (0, 0)).2

/-- The kinds of strings. -/
inductive StringKind where
  | basic
  | literal
  | multilineBasic
  | multilineLiteral
deriving DecidableEq, Repr

/-- The first kind that shows the text without escapes, of those that keep it on one line if it has
only one; otherwise a basic kind with escapes. -/
def StringKind.ofText (cs : List Char) : StringKind :=
  let control := cs.any isControl
  let backslash := cs.contains '\\'
  let lines := cs.contains '\n'
  let double := longestRun '"' cs
  let single := longestRun '\'' cs
  if !control && !backslash && double == 0 && !lines then .basic
  else if !control && single == 0 && !lines then .literal
  else if !control && !backslash && double ≤ 2 then .multilineBasic
  else if !control && single ≤ 2 then .multilineLiteral
  else if lines then .multilineBasic
  else .basic

/-- A digit of a numeric escape, in capital letters. -/
def upperHexDigit (n : Nat) : Char :=
  (Nat.digitChar (n % 16)).toUpper

/-- A character of a basic string: escaped where it cannot stand for itself. -/
def escapeChar (c : Char) : List Char :=
  match c with
  | '\x08' => ['\\', 'b']
  | '\t' => ['\\', 't']
  | '\n' => ['\\', 'n']
  | '\x0c' => ['\\', 'f']
  | '\r' => ['\\', 'r']
  | '"' => ['\\', '"']
  | '\\' => ['\\', '\\']
  | c =>
    if isControl c then
      ['\\', 'u', '0', '0', upperHexDigit (c.toNat / 16), upperHexDigit c.toNat]
    else
      [c]

/-- Several lines of a basic string after `quotes` quotes in a row: newlines stand as they are, and
so do quotes, as long as fewer than three meet. -/
def escapeLines (quotes : Nat) : List Char → List Char
  | [] => []
  | '\n' :: rest => '\n' :: escapeLines 0 rest
  | '"' :: rest =>
    if quotes < 2 then '"' :: escapeLines (quotes + 1) rest
    else '\\' :: '"' :: escapeLines 0 rest
  | c :: rest => escapeChar c ++ escapeLines 0 rest

/-- The text between `delimiter`s, on a new line if it has several. -/
def enclose (delimiter : String) (body : List Char) (startsLine : Bool) : String :=
  delimiter ++ (if startsLine then "\n" else "") ++ String.ofList body ++ delimiter

/-- Writes a text as a string. -/
def quote (text : String) : String :=
  let cs := text.toList
  let lines := cs.contains '\n'
  match StringKind.ofText cs with
  | .basic => enclose "\"" (cs.flatMap escapeChar) false
  | .literal => enclose "'" cs false
  | .multilineBasic => enclose "\"\"\"" (escapeLines 0 cs) lines
  | .multilineLiteral => enclose "'''" cs lines

end DispatchGen.Toml
