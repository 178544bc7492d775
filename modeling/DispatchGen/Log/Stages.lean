import DispatchGen.Dispatch.Dispatcher
import DispatchGen.Log.Logged
import DispatchGen.Source.Artifact

/-!
# Stages with a log

Each stage between a declaration and its artifact or dispatcher, with the events it tells. A stage's
result is that of the plain function: `CatalogDecl.result_buildLogged` and its companions.
-/

namespace DispatchGen

namespace Catalog

variable (c : Catalog)

/-- A warning where exclusions leave fewer than half of the types, and a summary. -/
def validationEvents : List Event :=
  let total := c.types.types.length
  let dispatchable := c.types.dispatchable.length
  (if 2 * dispatchable < total then [.fewTypesLeft c.name dispatchable total] else []) ++
    [.catalogValidated c]

end Catalog

def CatalogDecl.buildLogged (decl : CatalogDecl) : Logged Catalog :=
  .telling Catalog.validationEvents decl.build

namespace Catalog

variable (c : Catalog)

def emitTableLogged : Logged Table :=
  .telling (fun t => [.armsEmitted t.catalog t.arms.length]) c.emitTable

def stubsLogged : Logged (List Stub) := do
  Logged.tell [.stubsEmitted c.name c.stubs.length]
  return c.stubs

end Catalog

/-- Lays out an artifact and tells which parts it has. -/
def renderLogged (t : Table) (handlers : List Stub) (o : Options) (parts : Parts) :
    Logged Artifact := do
  let a := render t handlers o parts
  Logged.tell [.artifactRendered a.target t.catalog a.routine.isSome a.stubs.isSome]
  return a

def Catalog.generateLogged (c : Catalog) (o : Options) (parts : Parts) : Logged Artifact := do
  Logged.ofExcept o.validate
  let t ← c.emitTableLogged
  let handlers ← c.stubsLogged
  let a ← renderLogged t handlers o parts
  Logged.tell [.artifactGenerated a.target c.name t.arms.length handlers.length t.controls.length]
  return a

namespace Dispatcher

def ofPartsLogged (c : Catalog) (t : Table) (handlers : List Stub) : Logged Dispatcher :=
  .telling (fun d => [.routesIndexed c.name d.routes.size]) (ofParts c t handlers)

def ofCatalogLogged (c : Catalog) : Logged Dispatcher := do
  let t ← c.emitTableLogged
  let handlers ← c.stubsLogged
  ofPartsLogged c t handlers

end Dispatcher

/-- What a log is told of an instruction: calls and skips, but no refusal. -/
def Disposition.event? : Disposition → Option Event
  | .skipped opcode => some (.controlSkipped opcode)
  | .called key call => some (.keyDispatched key call.handler.name call.element.token)
  | .refused _ => none

/-- The events of running a batch. -/
def Dispatcher.executionEvents (d : Dispatcher) (batch : List Instruction) : List Event :=
  (d.history batch).filterMap Disposition.event?

/-! ## Logging changes no result -/

theorem CatalogDecl.result_buildLogged (decl : CatalogDecl) :
    decl.buildLogged.result = decl.build :=
  rfl

@[simp] theorem Catalog.result_emitTableLogged (c : Catalog) :
    c.emitTableLogged.result = c.emitTable :=
  rfl

@[simp] theorem Catalog.result_stubsLogged (c : Catalog) :
    c.stubsLogged.result = .ok c.stubs :=
  rfl

@[simp] theorem result_renderLogged (t : Table) (handlers : List Stub) (o : Options)
    (parts : Parts) : (renderLogged t handlers o parts).result = .ok (render t handlers o parts) :=
  rfl

theorem Catalog.result_generateLogged (c : Catalog) (o : Options) (parts : Parts) :
    (c.generateLogged o parts).result = c.generate o parts := by
  simp only [generateLogged, Logged.result_bind, Logged.result_ofExcept, result_emitTableLogged,
    result_stubsLogged, result_renderLogged, Logged.result_tell, Logged.result_pure, generate]
  rfl

@[simp] theorem Dispatcher.result_ofPartsLogged (c : Catalog) (t : Table) (handlers : List Stub) :
    (ofPartsLogged c t handlers).result = ofParts c t handlers :=
  rfl

theorem Dispatcher.result_ofCatalogLogged (c : Catalog) :
    (ofCatalogLogged c).result = ofCatalog c := by
  simp only [ofCatalogLogged, Logged.result_bind, Catalog.result_emitTableLogged,
    Catalog.result_stubsLogged, result_ofPartsLogged, ofCatalog]
  rfl

end DispatchGen
