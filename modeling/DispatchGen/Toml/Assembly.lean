import DispatchGen.Toml.Value

/-!
# Assembling tables

A document is a sequence of statements: headers open tables, and assignments fill the table opened
last, along dotted keys. A table may be opened once, and only the way it came about may extend it;
`Node` therefore remembers how each table came about while a document is read, and forgets it in
`Node.toValue`. Inline tables are assembled the same way, from their assignments alone.
-/

namespace DispatchGen.Toml

/-- How a table came about: by its own header (or as the root, or as an element of an array of
tables), as a mere step in the path of another header, or as a step in a dotted key. -/
inductive Origin where
  | opened
  | passed
  | dotted
deriving DecidableEq, Repr

inductive Node where
  | value (v : Value)
  | table (origin : Origin) (entries : List (String × Node))
  /-- An array of tables, of which the last is open. -/
  | tables (elements : List (List (String × Node)))

abbrev Entries := List (String × Node)

namespace Entries

/-- Replaces the entry of a key, or adds one at the end. -/
def put (entries : Entries) (key : String) (node : Node) : Entries :=
  match entries with
  | [] => [(key, node)]
  | (k, n) :: rest => if k = key then (key, node) :: rest else (k, n) :: put rest key node

/-- Changes the table at the end of a path, given how it came about and what it holds. Steps that are
missing are made, with the given origin. A path of dotted keys may not enter a table that was opened
by a header. -/
def alter (made : Origin) (change : Origin → Entries → Option Entries) :
    List String → Origin → Entries → Option Entries
  | [], origin, entries => change origin entries
  | key :: path, _, entries =>
    match entries.lookup key with
    | none => do
      return entries.put key (.table made (← alter made change path made []))
    | some (.value _) => none
    | some (.table origin inner) =>
      if made = .dotted ∧ origin = .opened then none
      else do
        return entries.put key (.table origin (← alter made change path origin inner))
    | some (.tables elements) => do
      let inner ← alter made change path .opened (elements.getLast?.getD [])
      return entries.put key (.tables (elements.dropLast ++ [inner]))

/-- Assigns to a key that must be new. Only dotted keys may add to a table that they made, and they
may not add to one that they did not make. -/
def assign (path : List String) (key : String) (v : Value) (origin : Origin) (entries : Entries) :
    Option Entries :=
  alter .dotted
    (fun origin entries =>
      if decide (origin = .dotted) = path.isEmpty ∨ (entries.lookup key).isSome then none
      else some (entries.put key (.value v)))
    path origin entries

/-- Opens a table: a new one, or one that was only passed through before. -/
def openTable (key : String) (entries : Entries) : Option Entries :=
  match entries.lookup key with
  | none => some (entries.put key (.table .opened []))
  | some (.table .passed inner) => some (entries.put key (.table .opened inner))
  | some _ => none

/-- Opens a further element of an array of tables. -/
def openElement (key : String) (entries : Entries) : Option Entries :=
  match entries.lookup key with
  | none => some (entries.put key (.tables [[]]))
  | some (.tables elements) => some (entries.put key (.tables (elements ++ [[]])))
  | some _ => none

end Entries

mutual

def Node.toValue : Node → Value
  | .value v => v
  | .table _ entries => .table (Entries.toValues entries)
  | .tables elements => .array (Entries.toTables elements)

def Entries.toValues : List (String × Node) → List (String × Value)
  | [] => []
  | (key, node) :: rest => (key, node.toValue) :: Entries.toValues rest

def Entries.toTables : List (List (String × Node)) → List Value
  | [] => []
  | entries :: rest => .table (Entries.toValues entries) :: Entries.toTables rest

end

/-- A key is written as its path, and the part behind the last dot. -/
structure DottedKey where
  path : List String
  last : String
deriving DecidableEq, Repr

inductive Statement where
  | openTable (key : DottedKey)
  | openElement (key : DottedKey)
  | assign (key : DottedKey) (value : Value)

/-- A document while it is read: its root, and the path of the table opened last. -/
structure Draft where
  root : Entries := []
  current : List String := []

namespace Draft

/-- Carries out a statement, if what came before allows it. -/
def apply (draft : Draft) : Statement → Option Draft
  | .openTable key => do
    let root ← Entries.alter .passed (fun _ => Entries.openTable key.last) key.path .opened draft.root
    return { root, current := key.path ++ [key.last] }
  | .openElement key => do
    let root ←
      Entries.alter .passed (fun _ => Entries.openElement key.last) key.path .opened draft.root
    return { root, current := key.path ++ [key.last] }
  | .assign key v => do
    let root ←
      Entries.alter .passed (Entries.assign key.path key.last v) draft.current .opened draft.root
    return { draft with root }

end Draft

/-- The document that a sequence of statements describes. -/
def document? (statements : List Statement) : Option Value := do
  let draft ← statements.foldlM Draft.apply {}
  return .table (Entries.toValues draft.root)

/-- The inline table that assignments describe. -/
def inlineTable? (assignments : List (DottedKey × Value)) : Option Value := do
  let entries ← assignments.foldlM
    (fun entries (key, v) => Entries.assign key.path key.last v .opened entries) []
  return .table (Entries.toValues entries)

end DispatchGen.Toml
