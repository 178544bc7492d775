import DispatchGen.Source.Cpp
import DispatchGen.Source.Rust
import DispatchGen.Source.Writer

/-!
# Artifacts

An artifact is the generated source of a table and its stubs: a header line, then the parts that were
asked for, stubs before the routine that calls them. `Catalog.generate` goes from a catalog to its
artifact; it checks the options before anything else. The artifact is what the layouts say;
`render?` and `Catalog.generate?` write them out, and there an indentation may be too wide to be
written.
-/

namespace DispatchGen

/-- Which parts of an artifact to produce. -/
inductive Parts where
  | routine
  | stubs
  | all
deriving DecidableEq, Repr

namespace Parts

def hasRoutine : Parts → Bool
  | stubs => false
  | _ => true

def hasStubs : Parts → Bool
  | routine => false
  | _ => true

end Parts

namespace Options

variable (o : Options)

def header (catalog : String) : Layout :=
  match o.target with
  | .cpp => Cpp.header catalog
  | .rust => Rust.header catalog

def stub (stub : Stub) : Layout :=
  match o.target with
  | .cpp => Cpp.stub o stub
  | .rust => Rust.stub o stub

def arm (base : UInt32) (arm : Arm) : Layout :=
  match o.target with
  | .cpp => Cpp.arm o base arm
  | .rust => Rust.arm o arm

def routine (t : Table) : Layout :=
  match o.target with
  | .cpp => Cpp.routine o t
  | .rust => Rust.routine o t

/-- All declarations, with a blank line between any two. -/
def stubs : List Stub → Layout
  | [] => []
  | [stub] => o.stub stub
  | stub :: rest => o.stub stub ++ .blank :: stubs rest

end Options

theorem Options.stubs_cons_cons (o : Options) (stub next : Stub) (rest : List Stub) :
    o.stubs (stub :: next :: rest) = o.stub stub ++ .blank :: o.stubs (next :: rest) :=
  rfl

/-- Declarations are laid out one by one, so options that agree on each agree on all. -/
theorem Options.stubs_congr {o o' : Options} (h : o.stub = o'.stub) (handlers : List Stub) :
    o.stubs handlers = o'.stubs handlers := by
  induction handlers with
  | nil => rfl
  | cons stub rest ih =>
    cases rest with
    | nil => exact congrFun h stub
    | cons => rw [stubs_cons_cons, stubs_cons_cons, h, ih]

/-- Generated source, and the table and handlers it was laid out from. -/
structure Artifact where
  target : Target
  header : String
  routine : Option String
  stubs : Option String
  table : Table
  handlers : List Stub
deriving DecidableEq, Repr

namespace Artifact

variable (a : Artifact)

/-- The complete file: a blank line separates the header and each part. -/
def source : String :=
  let part (text : Option String) := (text.map ("\n" ++ ·)).getD ""
  a.header ++ part a.stubs ++ part a.routine

def fileName : String :=
  "ve_dispatch." ++ a.target.extension

end Artifact

/-- Lays out a table and stubs under the given options; nothing is checked. -/
def render (t : Table) (handlers : List Stub) (o : Options) (parts : Parts) : Artifact where
  target := o.target
  header := (o.header t.catalog).text o.indent
  stubs := if parts.hasStubs then some ((o.stubs handlers).text o.indent) else none
  routine := if parts.hasRoutine then some ((o.routine t).text o.indent) else none
  table := t
  handlers := handlers

theorem routine_render {t : Table} {handlers : List Stub} {o : Options} {parts : Parts}
    (h : parts.hasRoutine = true) :
    (render t handlers o parts).routine = some ((o.routine t).text o.indent) :=
  if_pos h

/-- Writes a layout that is wanted. -/
def Options.write? (o : Options) (wanted : Bool) (layout : Layout) : Option (Option String) :=
  if wanted then (layout.write? o.indent).map some else some none

/-- Writes a table and stubs out, one part after the other; `none` is a crash on the way. -/
def render? (t : Table) (handlers : List Stub) (o : Options) (parts : Parts) : Option Artifact := do
  let header ← (o.header t.catalog).write? o.indent
  let stubs ← o.write? parts.hasStubs (o.stubs handlers)
  let routine ← o.write? parts.hasRoutine (o.routine t)
  return { target := o.target, header, routine, stubs, table := t, handlers }

/-- The artifact of a catalog. -/
def Catalog.generate (c : Catalog) (o : Options) (parts : Parts) : Except Fault Artifact := do
  o.validate
  let t ← c.emitTable
  return render t c.stubs o parts

/-- Generates the artifact of a catalog and writes it out: a fault, a crash (`none`) or the artifact. -/
def Catalog.generate? (c : Catalog) (o : Options) (parts : Parts) :
    Except Fault (Option Artifact) := do
  o.validate
  let t ← c.emitTable
  return render? t c.stubs o parts

end DispatchGen
