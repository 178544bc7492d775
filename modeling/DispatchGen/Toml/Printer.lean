import DispatchGen.Toml.Document

/-!
# Writing documents

Within a table, plain entries come first and sections after them: tables under `[path]`, and nonempty
arrays of tables under one `[[path]]` per element. All other values are written behind their key;
arrays of two or more items take one line per item. A table that holds nothing but sections needs no
header of its own.
-/

namespace DispatchGen.Toml

/-- A key without quotes where the grammar allows it. -/
def keyText (key : String) : String :=
  if !key.isEmpty && key.toList.all isBareKeyChar then key else quote key

def pathText (path : List String) : String :=
  ".".intercalate (path.map keyText)

/-- The items of an array: none or one on the same line, more on a line each. -/
def bracket : List String → String
  | [] => "[]"
  | [item] => "[" ++ item ++ "]"
  | items => "[\n" ++ String.join (items.map fun item => "    " ++ item ++ ",\n") ++ "]"

/-- The entries of an inline table. -/
def brace (entries : List String) : String :=
  if entries.isEmpty then "\x7b\x7d" else "\x7b " ++ ", ".intercalate entries ++ " \x7d"

namespace Value

mutual

/-- The value as it stands behind a key. -/
def text : Value → String
  | .string text => quote text
  | .integer value => toString value
  | .float text => text
  | .boolean value => if value then "true" else "false"
  | .datetime text => text
  | .array items => bracket (itemTexts items)
  | .table entries => brace (entryTexts entries)

def itemTexts : List Value → List String
  | [] => []
  | item :: rest => item.text :: itemTexts rest

def entryTexts : List (String × Value) → List String
  | [] => []
  | (key, value) :: rest => (keyText key ++ " = " ++ value.text) :: entryTexts rest

end

/-- The value is written under a header of its own. -/
def isSection : Value → Bool
  | .table _ => true
  | .array items => !items.isEmpty && items.all isTable
  | _ => false

/-- The plain entries of a table, a line each. -/
def plainLines (entries : List (String × Value)) : String :=
  String.join ((entryTexts (entries.filter fun (_, value) => !value.isSection)).map (· ++ "\n"))

/-- The header of a table, if it needs one. -/
def tableHeader (path : List String) (entries : List (String × Value)) : String :=
  if entries.isEmpty || entries.any fun (_, value) => !value.isSection then
    "\n[" ++ pathText path ++ "]\n"
  else
    ""

mutual

/-- The sections of a table that lies at `path`. -/
def sections (path : List String) : List (String × Value) → String
  | [] => ""
  | (key, value) :: rest => sectionText (path ++ [key]) value ++ sections path rest

/-- A section with its headers, sections within it included. -/
def sectionText (path : List String) : Value → String
  | .table entries => tableHeader path entries ++ plainLines entries ++ sections path entries
  | .array items => if items.all isTable then elements path items else ""
  | _ => ""

/-- The elements of an array of tables, each under its header. -/
def elements (path : List String) : List Value → String
  | [] => ""
  | .table entries :: rest =>
    "\n[[" ++ pathText path ++ "]]\n" ++ plainLines entries ++ sections path entries ++
      elements path rest
  | _ :: rest => elements path rest

end

/-- The document of a table. No empty line stands before its first header if nothing else does. -/
def document (entries : List (String × Value)) : String :=
  let plain := plainLines entries
  let rest := sections [] entries
  if plain.isEmpty then String.ofList (rest.toList.drop 1) else plain ++ rest

end Value

end DispatchGen.Toml
