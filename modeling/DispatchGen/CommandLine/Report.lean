import DispatchGen.CommandLine.Arguments
import DispatchGen.Fault
import DispatchGen.Log.Event
import DispatchGen.Text.Column

/-!
# Reports

What the command line prints about itself: log lines, the report of a failure, usage and version.
-/

namespace DispatchGen.CommandLine

/-- A text whose lines from the second on are moved in. -/
def moveIn (margin text : String) : String :=
  ("\n" ++ margin).intercalate (Text.lines text)

/-- What was being done when something failed, and what failed, in a chain of causes. -/
structure Failure where
  description : String
  causes : List String
deriving DecidableEq, Repr

namespace Failure

/-- The chain of causes of a fault. -/
def chain (fault : Fault) : List String :=
  fault.message :: fault.detail?.toList

/-- A fault on its own. -/
def ofFault (fault : Fault) : Failure where
  description := fault.message
  causes := fault.detail?.toList

/-- A fault while something was being done. -/
def during (description : String) (fault : Fault) : Failure where
  description := description
  causes := chain fault

/-- The causes, one after the other, numbered if there are several. -/
def causesText : List String → String
  | [] => ""
  | [cause] => "\n\nCaused by:\n    " ++ moveIn "    " cause
  | causes =>
    "\n\nCaused by:" ++ String.join (causes.zipIdx.map fun (cause, i) =>
      "\n" ++ Text.rightIn 5 (toString i) ++ ": " ++ moveIn "       " cause)

def report (failure : Failure) : String :=
  "Error: " ++ failure.description ++ causesText failure.causes ++ "\n"

end Failure

/-- The least important level that a log shows. -/
def threshold (verbose : Bool) : Level :=
  if verbose then .debug else .warn

/-- A line of the log; further lines of its text are moved in. -/
def logLine (event : Event) : String :=
  s!"[{event.level.label} {event.origin}] " ++ moveIn "    " event.text ++ "\n"

/-- The log of some events, from a level up. -/
def logText (threshold : Level) (events : List Event) : String :=
  String.join ((events.filter fun event => threshold.shownAt event.level).map logLine)

/-- The program's name and version. -/
def versionText : String :=
  "ve-gen 0.1.0\n"

/-- An option as usage shows it. -/
def Switch.usage (switch : Switch) : String :=
  let letter := (switch.letter?.map fun letter => s!"-{letter}, ").getD "    "
  let value := if switch.takesValue then " <VALUE>" else ""
  "  " ++ letter ++ s!"--{switch.name}" ++ value ++ "\n"

/-- How to call the program, or one of its commands. -/
def usage : Option Verb → String
  | none =>
    "Generate vector-engine instruction dispatch from a type/opcode catalog\n\n" ++
      "Usage: ve-gen [OPTIONS] <COMMAND>\n\nCommands:\n" ++
      String.join (Verb.list.map fun verb =>
        "  " ++ Text.leftIn 8 verb.name ++ "  " ++ verb.summary ++ "\n") ++
      "\nOptions:\n" ++ String.join (Switch.general.map Switch.usage)
  | some verb =>
    s!"{verb.summary}\n\nUsage: ve-gen {verb.name} [OPTIONS]\n\nOptions:\n" ++
      String.join ((Switch.ofVerb verb).map Switch.usage)

/-- How a run ends: its exit code and what it printed. -/
structure Exit where
  code : UInt8
  stdout : String := ""
  stderr : String := ""
deriving DecidableEq, Repr

/-- Help and version succeed, mistakes have an exit code of their own. -/
def Stop.exit : Stop → Exit
  | .help verb => { code := 0, stdout := usage verb }
  | .version => { code := 0, stdout := versionText }
  | .mistake m =>
    { code := 2, stderr := s!"error: {m.message}\n\nFor more information, try '--help'.\n" }

end DispatchGen.CommandLine
