import DispatchGen.Storage.Host
import DispatchGen.Storage.Tree

/-!
# Workspaces

A workspace is a pure host: a tree of files, a working directory, and the events told so far. A path
that is not absolute starts from the working directory. The lemmas `run_…` say what each operation of
the host does to a workspace.
-/

namespace DispatchGen

/-- A step after another is run on the state that the first one leaves. -/
theorem run_run_bind {σ ε α β : Type} (x : ExceptT ε (StateM σ) α) (f : α → ExceptT ε (StateM σ) β)
    (s : σ) :
    (x >>= f).run.run s =
      match x.run.run s with
      | (.ok a, s') => (f a).run.run s'
      | (.error e, s') => (.error e, s') := by
  rw [ExceptT.run_bind, StateT.run_bind]
  show (match x.run.run s with | (r, s') => _) = _
  rcases x.run.run s with ⟨r, s'⟩
  cases r <;> rfl

structure Workspace where
  tree : Tree
  directory : Location
  events : List Event

namespace Workspace

/-- An empty tree whose root is the working directory. -/
def empty : Workspace where
  tree := .empty
  directory := []
  events := []

variable (w : Workspace)

/-- The path of the working directory. -/
def directoryPath : Path :=
  .ofSegments w.directory

/-- A usable path as it is seen from the root. -/
def fromRoot? (path : Path) : Option Path :=
  if path.isUsable then
    some (if path.isAbsolute then path else w.directoryPath.child path.text)
  else
    none

def entryAt? (path : Path) : Option Entry :=
  (w.fromRoot? path).bind w.tree.entryAt?

/-- The text of a file that may be read. -/
def text? (path : Path) : Option String :=
  match w.entryAt? path with
  | some (.file content access) => if access.mayLook then String.fromUTF8? content else none
  | _ => none

/-- Writes a file where it may be written. -/
def write? (path : Path) (content : ByteArray) : Option Workspace := do
  let tree ← w.tree.write? (← w.fromRoot? path) content
  return { w with tree }

/-- Creates a directory and those above it; tells whether it is there in the end. What was created
stays in any case. The empty path asks for nothing. -/
def createDirectories (path : Path) : Bool × Workspace :=
  if path.text.isEmpty then (true, w)
  else
    match w.fromRoot? path with
    | none => (false, w)
    | some path =>
      let (done, tree) := w.tree.createDirectories path.ancestors
      (done, { w with tree })

instance : Host (StateM Workspace) where
  present path := return ((← get).entryAt? path).isSome
  readText path := do
    match (← get).text? path with
    | some text => return .ok text
    | none => return .error "the path is not a text file"
  writeText path text := do
    match (← get).write? path text.toUTF8 with
    | some changed =>
      set changed
      return .ok ()
    | none => return .error "the path cannot be written"
  createDirectories path := do
    let (done, changed) := (← get).createDirectories path
    set changed
    return if done then .ok () else .error "the directory cannot be created"
  workingDirectory := return .ok (← get).directoryPath
  tell event := modify fun w => { w with events := w.events ++ [event] }

/-! ## What the operations do -/

/-- The workspace after some more events were told. -/
def told (events : List Event) : Workspace :=
  { w with events := w.events ++ events }

@[simp] theorem told_nil : w.told [] = w := by
  simp [told]

@[simp] theorem told_told (first second : List Event) :
    (w.told first).told second = w.told (first ++ second) := by
  simp [told]

/-- What was told before does not matter to what is written. -/
theorem write?_told (events : List Event) (path : Path) (content : ByteArray) :
    (w.told events).write? path content = (w.write? path content).map (·.told events) := by
  have hroot : (w.told events).fromRoot? path = w.fromRoot? path := rfl
  have htree : (w.told events).tree = w.tree := rfl
  simp only [write?, hroot, htree, Option.bind_eq_bind]
  cases w.fromRoot? path with
  | none => rfl
  | some absolute => cases h : w.tree.write? absolute content <;> simp [h, told]

theorem eq_put_of_write? {w changed : Workspace} {path : Path} {content : ByteArray}
    (h : w.write? path content = some changed) : ∃ absolute location,
      w.fromRoot? path = some absolute ∧ w.tree.follow absolute = .ok location ∧
        w.tree.mayWrite location = true ∧
          changed = { w with tree := w.tree.put location (.file content) } := by
  simp only [write?, Option.bind_eq_bind, Option.bind_eq_some_iff] at h
  obtain ⟨absolute, habsolute, tree, htree, h⟩ := h
  obtain ⟨location, hfollow, hmay, rfl⟩ := Tree.eq_put_of_write? htree
  exact ⟨absolute, location, habsolute, hfollow, hmay, (Option.some.inj h).symm⟩

@[simp] theorem run_present (path : Path) :
    (Host.present path : StateM Workspace Bool).run w = ((w.entryAt? path).isSome, w) :=
  rfl

@[simp] theorem run_readText (path : Path) :
    (Host.readText path : StateM Workspace (Except String String)).run w =
      ((match w.text? path with
        | some text => .ok text
        | none => .error "the path is not a text file"), w) := by
  simp only [Host.readText, StateT.run_bind, StateT.run_get, pure_bind]
  cases w.text? path <;> rfl

@[simp] theorem run_writeText (path : Path) (text : String) :
    (Host.writeText path text : StateM Workspace (Except String Unit)).run w =
      match w.write? path text.toUTF8 with
      | some changed => (.ok (), changed)
      | none => (.error "the path cannot be written", w) := by
  simp only [Host.writeText, StateT.run_bind, StateT.run_get, pure_bind]
  cases w.write? path text.toUTF8 <;> rfl

@[simp] theorem run_createDirectories (path : Path) :
    (Host.createDirectories path : StateM Workspace (Except String Unit)).run w =
      (if (w.createDirectories path).1 then .ok () else .error "the directory cannot be created",
        (w.createDirectories path).2) :=
  rfl

@[simp] theorem run_workingDirectory :
    (Host.workingDirectory : StateM Workspace (Except String Path)).run w =
      (.ok w.directoryPath, w) :=
  rfl

@[simp] theorem run_tell (event : Event) :
    (Host.tell event : StateM Workspace Unit).run w = ((), w.told [event]) :=
  rfl

theorem run_forM_tell (events : List Event) :
    (forM events Host.tell : StateM Workspace Unit).run w = ((), w.told events) := by
  induction events generalizing w with
  | nil => exact congrArg (Prod.mk ()) w.told_nil.symm
  | cons event rest ih =>
    rw [List.forM_cons, StateT.run_bind, run_tell]
    exact (ih (w.told [event])).trans (by simp)

/-- Performing a computation with a log tells its events and gives its result. -/
@[simp] theorem run_perform {α : Type} (x : Logged α) :
    (x.perform : ExceptT Fault (StateM Workspace) α).run.run w = (x.result, w.told x.events) := by
  have h := w.run_forM_tell x.events
  simp only [Logged.perform, ExceptT.run_mk, StateT.run_bind, List.forM_eq_forM]
  exact congrArg (fun r : Unit × Workspace => (x.result, r.2)) h

end Workspace

end DispatchGen
