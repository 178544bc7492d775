import DispatchGen.CommandLine.Commands
import DispatchGen.Storage.Workspace

/-!
# Sessions

One call of the command line on a workspace. `session` gives what the call prints and the workspace
it leaves; the log comes first on standard error, then the report.
-/

namespace DispatchGen.CommandLine

/-- Runs a request; what it tells goes to standard error as far as its threshold shows it. -/
def Request.session (request : Request) (w : Workspace) : Exit × Workspace :=
  let (exit, after) := (request.perform : StateM Workspace Exit).run { w with events := [] }
  let log := logText (threshold request.verbose) after.events
  ({ exit with stderr := log ++ exit.stderr }, { after with events := w.events ++ after.events })

/-- Calls the program with the given arguments. -/
def session (arguments : List String) (w : Workspace) : Exit × Workspace :=
  match Request.parse arguments with
  | .ok request => request.session w
  | .error stop => (stop.exit, w)

end DispatchGen.CommandLine
