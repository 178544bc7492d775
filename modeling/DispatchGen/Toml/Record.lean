import DispatchGen.Toml.Value

/-!
# Records

How typed data is read from a value tree. A record is written as a table of its fields; an array of
the fields in their order does as well, and so does a date, as a record that gives no field. Fields
that a record does not have are passed over.
-/

namespace DispatchGen.Toml

/-- A value seen as a record. -/
inductive Record where
  | named (entries : List (String × Value))
  | listed (items : List Value)

def Value.record? : Value → Option Record
  | .table entries => some (.named entries)
  | .array items => some (.listed items)
  | .datetime _ => some (.named [])
  | _ => none

/-- A field of a record, by its place in the record and its key. -/
structure Field where
  position : Nat
  key : String
deriving DecidableEq, Repr

namespace Record

variable {α : Type}

def get? (record : Record) (field : Field) : Option Value :=
  match record with
  | .named entries => entries.lookup field.key
  | .listed items => items[field.position]?

/-- A field that must be given. -/
def required (record : Record) (field : Field) (read : Value → Option α) : Option α := do
  read (← record.get? field)

/-- A field that may be missing, but not be wrong. -/
def optional (record : Record) (field : Field) (read : Value → Option α) : Option (Option α) :=
  match record.get? field with
  | none => some none
  | some value => some <$> read value

/-- A field with a value for when it is missing. -/
def withDefault (record : Record) (field : Field) (default : α) (read : Value → Option α) :
    Option α := do
  return (← record.optional field read).getD default

end Record

namespace Value

variable {α : Type}

def string? : Value → Option String
  | .string text => some text
  | _ => none

def boolean? : Value → Option Bool
  | .boolean value => some value
  | _ => none

def integer? : Value → Option Int
  | .integer value => some value
  | _ => none

/-- A number below `bound`. -/
def below? (bound : Nat) (value : Value) : Option Nat := do
  let n ← value.integer?
  if 0 ≤ n ∧ n < bound then some n.toNat else none

def uint32? (value : Value) : Option UInt32 :=
  (value.below? UInt32.size).map UInt32.ofNat

def uint64? (value : Value) : Option UInt64 :=
  (value.below? UInt64.size).map UInt64.ofNat

def int64? (value : Value) : Option Int64 := do
  let n ← value.integer?
  if -maxInteger - 1 ≤ n ∧ n ≤ maxInteger then some (Int64.ofInt n) else none

def list? (read : Value → Option α) : Value → Option (List α)
  | .array items => items.mapM read
  | _ => none

/-- One of a few named choices: its name, or a table with the name as its only key, over nothing. -/
def choice? (choices : List (String × α)) : Value → Option α
  | .string name => choices.lookup name
  | .table [(name, .table [])] => choices.lookup name
  | .table [(name, .array [])] => choices.lookup name
  | _ => none

end Value

end DispatchGen.Toml
