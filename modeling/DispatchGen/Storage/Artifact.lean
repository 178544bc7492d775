import DispatchGen.Log.Stages
import DispatchGen.Storage.Host

/-!
# Stored artifacts

`Catalog.generateInto` keeps an artifact up to date in a directory. The file is written only when its
content changes, so that a build that depends on it is not started again for nothing.
-/

namespace DispatchGen

variable {m : Type → Type} [Monad m] [Host m]

/-- Brings the artifact's file in a directory up to date; the directory is created. -/
def Artifact.install (a : Artifact) (directory : Path) : ExceptT Fault m Path := do
  Host.orFault (Host.createDirectories directory)
  let path := directory.child a.fileName
  match ← Host.readText path with
  | .ok existing =>
    if existing = a.source then
      Host.tell (.artifactUpToDate path.text)
      return path
  | .error _ => pure ()
  Host.orFault (Host.writeText path a.source)
  Host.tell (.artifactWritten path.text)
  return path

/-- Generates stubs and routine into a directory; gives the path of the file. -/
def Catalog.generateInto (c : Catalog) (o : Options) (directory : Path) : ExceptT Fault m Path := do
  let a ← (c.generateLogged o .all).perform
  a.install directory

end DispatchGen
