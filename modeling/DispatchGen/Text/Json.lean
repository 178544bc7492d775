/-!
# JSON text

The JSON values a manifest is made of, and their layout: two spaces per level, one member per line,
nothing between the brackets of an empty list or object.
-/

namespace DispatchGen

inductive Json where
  | string (text : String)
  | number (value : Nat)
  | list (items : List Json)
  | object (fields : List (String × Json))
deriving Repr

namespace Json

/-- A hexadecimal digit, in small letters. -/
def hexDigit (n : Nat) : Char :=
  Nat.digitChar (n % 16)

/-- A character inside quotes: a short escape where JSON has one, a numeric one for any other control
character. -/
def escapeChar (c : Char) : List Char :=
  match c with
  | '"' => ['\\', '"']
  | '\\' => ['\\', '\\']
  | '\n' => ['\\', 'n']
  | '\r' => ['\\', 'r']
  | '\t' => ['\\', 't']
  | '\x08' => ['\\', 'b']
  | '\x0c' => ['\\', 'f']
  | c =>
    if c.toNat < 32 then ['\\', 'u', '0', '0', hexDigit (c.toNat / 16), hexDigit c.toNat] else [c]

def quote (s : String) : String :=
  String.ofList ('"' :: s.toList.flatMap escapeChar ++ ['"'])

/-- Members between brackets, each on a line one level below the brackets. -/
def enclose (opening closing : String) (depth : Nat) (members : List String) : String :=
  let margin (level : Nat) := String.ofList (List.replicate (2 * level) ' ')
  if members.isEmpty then opening ++ closing
  else
    opening ++ "\n" ++ ",\n".intercalate (members.map (margin (depth + 1) ++ ·)) ++ "\n" ++
      margin depth ++ closing

mutual

/-- The text of a value whose first line stands at the given level. -/
def pretty (depth : Nat) : Json → String
  | .string text => quote text
  | .number value => toString value
  | .list items => enclose "[" "]" depth (prettyItems (depth + 1) items)
  | .object fields => enclose "\x7b" "\x7d" depth (prettyFields (depth + 1) fields)

def prettyItems (depth : Nat) : List Json → List String
  | [] => []
  | item :: rest => item.pretty depth :: prettyItems depth rest

def prettyFields (depth : Nat) : List (String × Json) → List String
  | [] => []
  | (key, value) :: rest => (quote key ++ ": " ++ value.pretty depth) :: prettyFields depth rest

end

end Json

end DispatchGen
