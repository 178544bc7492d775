import DispatchGen.Catalog.VectorEngine
import DispatchGen.Source.Options

/-!
# Catalog files

What a catalog file holds: a catalog as declared, and overrides of the rendering options.
-/

namespace DispatchGen

structure CatalogFile where
  decl : CatalogDecl := {}
  render : Overrides := {}
deriving DecidableEq, Repr

namespace CatalogFile

/-- The built-in table as a file. -/
def vectorEngine : CatalogFile where
  decl := VectorEngine.decl

/-- The rendering options of the file, for a target that may be given from outside. -/
def options (file : CatalogFile) (target : Option Target := none) : Except Fault Options :=
  file.render.resolve target

end CatalogFile

end DispatchGen
