import DispatchGen.CatalogFile.Document
import DispatchGen.Storage.Host

/-!
# Stored catalog files

Loading, searching and saving catalog files. `CatalogFile.find?` gives the nearest entry called
`vedispatch.toml`, from a directory upwards, and `CatalogFile.findAndLoad` loads what it finds or
falls back on the built-in catalog; a nearest entry that cannot be loaded is a fault.
-/

namespace DispatchGen

/-- The first of some paths at which there is anything. -/
def firstPresent? {m : Type → Type} [Monad m] [Host m] : List Path → m (Option Path)
  | [] => return none
  | path :: rest => do
    if ← Host.present path then return some path else firstPresent? rest

namespace CatalogFile

/-- What a catalog file is called where it is searched for. -/
def fileName : String := "vedispatch.toml"

variable {m : Type → Type} [Monad m] [Host m]

def load (path : Path) : ExceptT Fault m CatalogFile := do
  unless ← Host.present path do
    throw (.missingFile path.text)
  let text ← Host.orFault (Host.readText path)
  let file ← (ofText text : Except Fault CatalogFile)
  Host.tell (.fileLoaded path.text)
  return file

/-- The nearest catalog file, from the absolute path of a directory upwards. -/
def find? (start : Path) : m (Option Path) :=
  firstPresent? (start.candidates fileName)

/-- The nearest catalog file, or the built-in table where there is none. -/
def findAndLoad (start : Path) : ExceptT Fault m CatalogFile := do
  match ← find? start with
  | some path => load path
  | none =>
    Host.tell (.noFileFound fileName start.text)
    return vectorEngine

/-- Nothing is written where the file has no text. -/
def save (file : CatalogFile) (path : Path) : ExceptT Fault m Unit := do
  let text ← file.toText
  Host.orFault (Host.writeText path text)

end CatalogFile

end DispatchGen
