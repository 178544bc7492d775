import DispatchGen.Storage.Workspace
import DispatchGen.Proofs.SavedFiles

/-!
# Journals

A journal is a workspace together with what it was asked to change, so that a write can be told from
no write even where it leaves the file as it was. Keeping it does not matter to what is done: a program
does to the workspace of a journal what it does to a workspace (`Journal.Watches`).
-/

namespace DispatchGen

/-- What a host may be asked that changes files. -/
inductive Change where
  | createDirectories (path : Path)
  | writeText (path : Path) (text : String)
deriving DecidableEq, Repr

/-- A workspace, and the changes it was asked for. -/
structure Journal where
  workspace : Workspace
  changes : List Change

namespace Journal

variable {α : Type}

/-- Does something on the workspace. -/
def onWorkspace (action : StateM Workspace α) : StateM Journal α := fun j =>
  let (a, workspace) := action.run j.workspace
  (a, { j with workspace })

/-- Does something on the workspace and notes that it was asked for. -/
def noting (change : Change) (action : StateM Workspace α) : StateM Journal α := fun j =>
  let (a, workspace) := action.run j.workspace
  (a, { workspace, changes := j.changes ++ [change] })

instance : Host (StateM Journal) where
  present path := onWorkspace (Host.present path)
  readText path := onWorkspace (Host.readText path)
  writeText path text := noting (.writeText path text) (Host.writeText path text)
  createDirectories path := noting (.createDirectories path) (Host.createDirectories path)
  workingDirectory := onWorkspace Host.workingDirectory
  tell event := onWorkspace (Host.tell event)

variable (j : Journal)

theorem run_readText (path : Path) :
    (Host.readText path : ExceptT Fault (StateM Journal) (Except String String)).run.run j =
      (.ok (match j.workspace.text? path with
        | some text => .ok text
        | none => .error "the path is not a text file"), j) := by
  have h := j.workspace.run_readText path
  exact congrArg (fun r : Except String String × Workspace =>
    (Except.ok r.1, { j with workspace := r.2 })) h

theorem run_writeText (path : Path) (text : String) :
    (Host.writeText path text : StateM Journal (Except String Unit)).run j =
      match j.workspace.write? path text.toUTF8 with
      | some changed => (.ok (), ⟨changed, j.changes ++ [.writeText path text]⟩)
      | none => (.error "the path cannot be written",
          { j with changes := j.changes ++ [.writeText path text] }) := by
  have h := j.workspace.run_writeText path text
  refine (congrArg (fun r : Except String Unit × Workspace =>
    (r.1, Journal.mk r.2 (j.changes ++ [.writeText path text]))) h).trans ?_
  cases j.workspace.write? path text.toUTF8 <;> rfl

theorem run_createDirectories (path : Path) :
    (Host.createDirectories path : StateM Journal (Except String Unit)).run j =
      (if (j.workspace.createDirectories path).1 then .ok ()
        else .error "the directory cannot be created",
        ⟨(j.workspace.createDirectories path).2, j.changes ++ [.createDirectories path]⟩) :=
  rfl

theorem run_tell (event : Event) :
    (Host.tell event : ExceptT Fault (StateM Journal) Unit).run.run j =
      (.ok (), { j with workspace := j.workspace.told [event] }) :=
  rfl

theorem run_perform (x : Logged α) :
    (x.perform : ExceptT Fault (StateM Journal) α).run.run j =
      (x.result, { j with workspace := j.workspace.told x.events }) := by
  have htell (events : List Event) : ∀ j : Journal,
      (forM events Host.tell : StateM Journal Unit).run j =
        ((), { j with workspace := j.workspace.told events }) := by
    induction events with
    | nil => exact fun j => by rw [Workspace.told_nil]; rfl
    | cons event rest ih =>
      intro j
      rw [List.forM_cons, StateT.run_bind]
      exact (ih { j with workspace := j.workspace.told [event] }).trans (by simp)
  simp only [Logged.perform, ExceptT.run_mk, StateT.run_bind, List.forM_eq_forM]
  exact congrArg (fun r : Unit × Journal => (x.result, r.2)) (htell x.events j)

/-! ## Watching -/

/-- On a journal the first does what the second does on a workspace, and may note something. -/
def Watches (x : StateM Journal α) (y : StateM Workspace α) : Prop :=
  ∀ j, ∃ noted, x.run j =
    ((y.run j.workspace).1, ⟨(y.run j.workspace).2, j.changes ++ noted⟩)

namespace Watches

variable {β ε : Type}

theorem pure (a : α) : Watches (pure a) (pure a) :=
  fun j => ⟨[], congrArg (fun changes => (a, Journal.mk j.workspace changes)) (by simp)⟩

theorem bind {x : StateM Journal α} {y : StateM Workspace α} {f : α → StateM Journal β}
    {g : α → StateM Workspace β} (hxy : Watches x y) (hfg : ∀ a, Watches (f a) (g a)) :
    Watches (x >>= f) (y >>= g) := by
  intro j
  obtain ⟨noted, hx⟩ := hxy j
  obtain ⟨later, hf⟩ := hfg (y.run j.workspace).1
    ⟨(y.run j.workspace).2, j.changes ++ noted⟩
  refine ⟨noted ++ later, ?_⟩
  rw [StateT.run_bind, hx, StateT.run_bind, ← List.append_assoc]
  exact hf

theorem onWorkspace (action : StateM Workspace α) : Watches (Journal.onWorkspace action) action :=
  fun j => ⟨[], congrArg (fun changes => ((action.run j.workspace).1,
    Journal.mk (action.run j.workspace).2 changes)) (by simp)⟩

theorem noting (change : Change) (action : StateM Workspace α) :
    Watches (Journal.noting change action) action :=
  fun _ => ⟨[change], rfl⟩

theorem run_bind {x : ExceptT ε (StateM Journal) α} {y : ExceptT ε (StateM Workspace) α}
    {f : α → ExceptT ε (StateM Journal) β} {g : α → ExceptT ε (StateM Workspace) β}
    (hxy : Watches x.run y.run) (hfg : ∀ a, Watches (f a).run (g a).run) :
    Watches (x >>= f).run (y >>= g).run := by
  rw [ExceptT.run_bind, ExceptT.run_bind]
  refine hxy.bind fun r => ?_
  cases r with
  | ok a => exact hfg a
  | error e => exact .pure _

theorem lift {x : StateM Journal α} {y : StateM Workspace α} (h : Watches x y) :
    Watches (ExceptT.lift x : ExceptT ε (StateM Journal) α).run
      (ExceptT.lift y : ExceptT ε (StateM Workspace) α).run := by
  rw [ExceptT.run_lift, ExceptT.run_lift, map_eq_pure_bind, map_eq_pure_bind]
  exact h.bind fun a => .pure _

theorem orFault {x : StateM Journal (Except String α)} {y : StateM Workspace (Except String α)}
    (h : Watches x y) : Watches (Host.orFault x).run (Host.orFault y).run := by
  refine h.bind fun r => ?_
  cases r with
  | ok a => exact .pure _
  | error detail => exact .pure _

theorem perform (x : Logged α) :
    Watches (x.perform : ExceptT Fault (StateM Journal) α).run x.perform.run := by
  have htell (events : List Event) : Watches (forM events Host.tell) (forM events Host.tell) := by
    induction events with
    | nil => exact .pure _
    | cons event rest ih =>
      rw [List.forM_cons, List.forM_cons]
      exact (Watches.onWorkspace (Host.tell event)).bind fun _ => ih
  exact (htell x.events).bind fun _ => .pure _

end Watches

end Journal

end DispatchGen
