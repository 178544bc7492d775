import DispatchGen.Log.Logged
import DispatchGen.Storage.Path

/-!
# Hosts

What the program needs of its surroundings: files, directories and a log. Everything that touches
files is written over `Host`, so that it runs on a console and can be reasoned about on a
`Workspace`.
-/

namespace DispatchGen

/-- Surroundings to run in. Failures are described in the host's own words. -/
class Host (m : Type → Type) where
  /-- There is a file or directory at the path. -/
  present : Path → m Bool
  /-- The text of a file, if it is a readable file of Unicode text. -/
  readText : Path → m (Except String String)
  /-- Makes a text the whole content of a file. -/
  writeText : Path → String → m (Except String Unit)
  /-- Creates a directory, and the directories above it; nothing where the path is empty. -/
  createDirectories : Path → m (Except String Unit)
  workingDirectory : m (Except String Path)
  tell : Event → m Unit

variable {m : Type → Type} [Monad m] {α ε : Type}

/-- A computation that may fail runs on the same host. -/
instance [Host m] : Host (ExceptT ε m) where
  present path := ExceptT.lift (Host.present path)
  readText path := ExceptT.lift (Host.readText path)
  writeText path text := ExceptT.lift (Host.writeText path text)
  createDirectories path := ExceptT.lift (Host.createDirectories path)
  workingDirectory := ExceptT.lift Host.workingDirectory
  tell event := ExceptT.lift (Host.tell event)

/-- A host's failure to read or write is a fault. -/
def Host.orFault (action : m (Except String α)) : ExceptT Fault m α :=
  ExceptT.mk do
    match ← action with
    | .ok a => return .ok a
    | .error detail => return .error (.fileAccess detail)

/-- Performs a computation with a log: first its events, then its result. -/
def Logged.perform [Host m] (x : Logged α) : ExceptT Fault m α :=
  ExceptT.mk do
    x.events.forM Host.tell
    return x.result

end DispatchGen
