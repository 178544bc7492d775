import DispatchGen.CommandLine.Commands

/-!
# The program

The command line on a console: files are the machine's, and the log goes to standard error.
-/

namespace DispatchGen.CommandLine

/-- A console whose log shows events from a level up. -/
abbrev Console :=
  ReaderT Level IO

/-- The result of an action, or its failure in words. -/
def attempt {α : Type} (action : IO α) : Console (Except String α) := do
  try
    return .ok (← action)
  catch failure =>
    return .error failure.toString

/-- The text of a file of bytes. -/
def decodeText (content : ByteArray) : Except String String :=
  match String.fromUTF8? content with
  | some text => .ok text
  | none => .error "the file does not hold Unicode text"

instance : Host Console where
  present path := do
    match ← attempt (IO.FS.realPath path.text) with
    | .ok _ => return true
    | .error _ => return false
  readText path := return (← attempt (IO.FS.readBinFile path.text)).bind decodeText
  writeText path text := attempt (IO.FS.writeBinFile path.text text.toUTF8)
  createDirectories path :=
    attempt (if path.text.isEmpty then pure () else IO.FS.createDirAll path.text)
  workingDirectory := do
    return (← attempt IO.currentDir).map fun directory => ⟨directory.toString⟩
  tell event := do
    if (← read).shownAt event.level then
      IO.eprint (logLine event)

/-- Prints what a run prints; gives its exit code. -/
def Exit.show (exit : Exit) : IO UInt32 := do
  IO.print exit.stdout
  IO.eprint exit.stderr
  return exit.code.toUInt32

end DispatchGen.CommandLine

open DispatchGen.CommandLine in
def main (arguments : List String) : IO UInt32 := do
  match Request.parse arguments with
  | .error stop => stop.exit.show
  | .ok request =>
    let exit ← (request.perform : Console Exit).run (threshold request.verbose)
    exit.show
