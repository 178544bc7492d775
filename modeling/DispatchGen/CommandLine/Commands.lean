import DispatchGen.CommandLine.Report
import DispatchGen.Log.Stages
import DispatchGen.Source.Manifest
import DispatchGen.Storage.CatalogFile

/-!
# Commands

What each command does. Its text goes to standard output or, where an output file is named, into that
file. What a command printed stays printed when it fails later on.
-/

namespace DispatchGen.CommandLine

variable {m : Type → Type} [Monad m] [Host m] {α : Type}

/-- A computation that may fail, and the text on standard output, to which it may add. -/
abbrev Printing (m : Type → Type) :=
  ExceptT Failure (StateT String m)

/-- Prints a text behind what is printed already. -/
def print (text : String) : Printing m Unit :=
  modify (· ++ text)

/-- A computation that prints nothing. -/
def silently (action : ExceptT Failure m α) : Printing m α :=
  ExceptT.mk (StateT.lift action.run)

/-- Runs something that may meet a fault, and puts the fault into a report. -/
def reporting (describe : Fault → Failure) (action : ExceptT Fault m α) : ExceptT Failure m α :=
  ExceptT.mk do
    match ← action with
    | .ok a => return .ok a
    | .error fault => return .error (describe fault)

/-- The catalog file that was named, or the nearest one. -/
def loadFile : Option Path → ExceptT Failure m CatalogFile
  | some path =>
    reporting (.during s!"Failed to load catalog {path.text}") (CatalogFile.load path)
  | none => do
    match ← Host.workingDirectory with
    | .error detail =>
      throw { description := "Failed to read current directory", causes := [detail] }
    | .ok directory => reporting .ofFault (CatalogFile.findAndLoad directory)

/-- The catalog of a file. -/
def validate (file : CatalogFile) : ExceptT Failure m Catalog :=
  reporting (.during "Invalid catalog") file.decl.buildLogged.perform

/-- The rendering options of a file. -/
def resolve (file : CatalogFile) (target : Option Target) : ExceptT Failure m Options :=
  reporting (.during "Invalid [render] section") (file.options target)

/-- The rendering options and the catalog of the file that was named, or of the nearest one. -/
def load (catalog : Option Path) (target : Option Target) :
    ExceptT Failure m (Options × Catalog) := do
  let file ← loadFile catalog
  let o ← resolve file target
  let c ← validate file
  return (o, c)

def typesLine (types : TypeCatalog) : String :=
  s!"  types:    {types.types.length} ({types.dispatchable.length} dispatchable, " ++
    s!"{types.excluded.length} excluded)"

def excludedLine (type : ElementType) : String :=
  s!"            excluded: {type.name}"

def opcodesLine (opcodes : OpcodeCatalog) : String :=
  s!"  opcodes:  {opcodes.numeric.length} numeric, {opcodes.controls.length} control"

def groupLine (group : OpcodeGroup) : String :=
  s!"            arity {group.arity.count}: {group.opcodes.length} opcodes"

/-- The lines of a summary behind the catalog's name. -/
def countLines (c : Catalog) (t : Table) : List String :=
  typesLine c.types :: c.types.excluded.map excludedLine ++
    opcodesLine c.opcodes :: c.opcodes.groups.map groupLine ++
      [s!"  base:     {c.scheme.base}", s!"  arms:     {t.arms.length}"]

/-- The summary of a catalog that is valid. -/
def summary (c : Catalog) (t : Table) : String :=
  Text.ofLines (s!"Catalog '{c.name}' is valid" :: countLines c t)

/-- One line per control opcode. -/
def controlLine (control : ControlEntry) : String :=
  Text.rightIn 8 (toString control.ordinal) ++ "  " ++ Text.leftIn 24 control.name ++ " (control)"

/-- One line per dispatch arm. -/
def armLine (arm : Arm) : String :=
  Text.rightIn 8 (toString arm.key) ++ "  " ++ Text.leftIn 24 arm.opcode ++ " " ++
    Text.leftIn 16 arm.element ++ s!" {arm.handler}<{arm.token}>"

/-- The listing of a table's keys. -/
def keyListing (t : Table) : String :=
  Text.ofLines (t.controls.map controlLine ++ t.arms.map armLine)

/-- The key style asked for, as far as the target has it. -/
def settle (o : Options) (keyStyle : Option KeyStyle) : Logged Options :=
  let o := { o with keyStyle := keyStyle.getD o.keyStyle }
  match o.target, o.keyStyle with
  | .rust, .symbolic => do
    Logged.tell [.symbolicKeysIgnored]
    return { o with keyStyle := .literal }
  | _, _ => return o

/-- Writes a text to a file. -/
def writeOutput (path : Path) (text : String) : ExceptT Failure m Unit := do
  match ← Host.writeText path text with
  | .ok () => Host.tell (.outputWritten text.utf8ByteSize path.text)
  | .error detail => throw { description := s!"Failed to write {path.text}", causes := [detail] }

/-- Brings a command's text to its destination. -/
def deliver (output : Option Path) (text : String) : Printing m Unit :=
  match output with
  | none => print text
  | some path => silently (writeOutput path text)

/-- Runs a command. -/
def Command.run : Command → Printing m Unit
  | .printCatalog output => do
    let text ← silently
      (reporting .ofFault (CatalogFile.vectorEngine.toText : Except Fault String))
    deliver output text
  | .check catalog => do
    let file ← silently (loadFile catalog)
    let c ← silently (validate file)
    let t ← silently (reporting .ofFault c.emitTableLogged.perform)
    print (summary c t)
  | .listKeys catalog json => do
    let (o, c) ← silently (load catalog none)
    let a ← silently (reporting .ofFault (c.generateLogged o .routine).perform)
    print (if json then a.manifestText ++ "\n" else keyListing a.table)
  | .generate parts g => do
    let (o, c) ← silently (load g.catalog g.target)
    let o ← silently (reporting .ofFault (settle o g.keyStyle).perform)
    let a ← silently (reporting .ofFault (c.generateLogged o parts).perform)
    deliver g.output a.source

/-- Runs a request to its end. -/
def Request.perform (request : Request) : m Exit := do
  let (result, stdout) ← request.command.run.run.run ""
  match result with
  | .ok () => return { code := 0, stdout }
  | .error failure => return { code := 1, stdout, stderr := failure.report }

end DispatchGen.CommandLine
