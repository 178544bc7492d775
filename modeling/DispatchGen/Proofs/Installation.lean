import DispatchGen.Proofs.Directories
import DispatchGen.Proofs.Journal
import DispatchGen.Proofs.LateFaults
import DispatchGen.Storage.Artifact

/-!
# Installing artifacts

Generating into a directory brings one file up to date and changes nothing beside it, whatever was
there before; a file that is up to date is left alone (`Catalog.generateInto_converges`). The runs are
those on a journal, which tells whether a file was written, too (`Catalog.generateRun`).
-/

namespace DispatchGen

/-! ## Installing -/

namespace Artifact

/-- What is done where the file does not hold the text. -/
def overwrite {m : Type → Type} [Monad m] [Host m] (path : Path) (text : String) :
    ExceptT Fault m Path := do
  Host.orFault (Host.writeText path text)
  Host.tell (.artifactWritten path.text)
  return path

theorem run_overwrite (path : Path) (text : String) (j : Journal) :
    (overwrite path text : ExceptT Fault (StateM Journal) Path).run.run j =
      match j.workspace.write? path text.toUTF8 with
      | some changed =>
        (.ok path, ⟨changed.told [.artifactWritten path.text],
          j.changes ++ [.writeText path text]⟩)
      | none =>
        (.error (.fileAccess "the path cannot be written"),
          ⟨j.workspace, j.changes ++ [.writeText path text]⟩) := by
  rw [overwrite, run_run_bind, Host.run_orFault, Journal.run_writeText]
  cases j.workspace.write? path text.toUTF8 with
  | none => rfl
  | some changed =>
    simp only
    rw [run_run_bind, Journal.run_tell]
    rfl

theorem watches_overwrite (path : Path) (text : String) :
    Journal.Watches (overwrite path text).run
      (overwrite path text : ExceptT Fault (StateM Workspace) Path).run :=
  .run_bind (.orFault (.noting _ _)) fun _ => .run_bind (.lift (.onWorkspace _)) fun _ => .pure _

variable (a : Artifact) (directory : Path) (j : Journal)

theorem run_install :
    let path := directory.child a.fileName
    let r := j.workspace.createDirectories directory
    let asked := j.changes ++ [.createDirectories directory]
    (a.install directory : ExceptT Fault (StateM Journal) Path).run.run j =
      if r.1 then
        if r.2.text? path = some a.source then
          (.ok path, ⟨r.2.told [.artifactUpToDate path.text], asked⟩)
        else
          match r.2.write? path a.source.toUTF8 with
          | some changed =>
            (.ok path, ⟨changed.told [.artifactWritten path.text],
              asked ++ [.writeText path a.source]⟩)
          | none =>
            (.error (.fileAccess "the path cannot be written"),
              ⟨r.2, asked ++ [.writeText path a.source]⟩)
      else (.error (.fileAccess "the directory cannot be created"), ⟨r.2, asked⟩) := by
  intro path r asked
  rw [install, run_run_bind, Host.run_orFault, Journal.run_createDirectories]
  cases r.1 with
  | false => rfl
  | true =>
    simp only [if_true]
    rw [run_run_bind, Journal.run_readText]
    -- A file that holds no text is written like one that holds another.
    cases r.2.text? path with
    | none => exact run_overwrite path a.source ⟨r.2, asked⟩
    | some existing =>
      simp only [Option.some.injEq]
      by_cases hsame : existing = a.source
      · rw [if_pos hsame, if_pos hsame]
        rfl
      · rw [if_neg hsame, if_neg hsame]
        exact run_overwrite path a.source ⟨r.2, asked⟩

theorem watches_install :
    Journal.Watches (a.install directory).run
      (a.install directory : ExceptT Fault (StateM Workspace) Path).run := by
  refine .run_bind (.orFault (.noting _ _)) fun _ => ?_
  refine .run_bind (.lift (.onWorkspace _)) fun existing => ?_
  cases existing with
  | error detail => exact watches_overwrite _ _
  | ok existing =>
    by_cases hsame : existing = a.source
    · simp only [if_pos hsame]
      exact .run_bind (.lift (.onWorkspace _)) fun _ => .pure _
    · simp only [if_neg hsame]
      exact watches_overwrite _ _

end Artifact

/-! ## Convergence -/

namespace Workspace

variable {w : Workspace} {directory path : Path} {text : String}

/-- The file at a path holds a text. Beside it nothing has changed, save that the directory and those
above it are there. -/
structure Installed (w : Workspace) (directory path : Path) (text : String) (after : Workspace) :
    Prop where
  holds : after.text? path = some text
  others : ∃ absolute location grown, w.fromRoot? path = some absolute ∧
    grown.follow absolute = .ok location ∧ w.tree.GrownBy (w.above directory) grown ∧
    ∀ other, other ≠ location → after.tree.entry? other = grown.entry? other
  directory : after.directory = w.directory

theorem createDirectories_told (w : Workspace) (events : List Event) (directory : Path) :
    (w.told events).createDirectories directory =
      ((w.createDirectories directory).1, (w.createDirectories directory).2.told events) := by
  have hroot : (w.told events).fromRoot? directory = w.fromRoot? directory := rfl
  have htree : (w.told events).tree = w.tree := rfl
  unfold createDirectories
  rw [hroot]
  split
  · rfl
  · cases w.fromRoot? directory with
    | none => rfl
    | some root =>
      simp only [htree]
      rcases w.tree.createDirectories root.ancestors with ⟨done, tree⟩
      rfl

theorem installed_of_text? (h : (w.createDirectories directory).2.text? path = some text)
    (events : List Event) :
    w.Installed directory path text ((w.createDirectories directory).2.told events) := by
  obtain ⟨grown, hcreated, hgrown⟩ := w.grownBy_createDirectories directory
  rw [hcreated] at h ⊢
  obtain ⟨absolute, hroot, location, hfollow⟩ :=
    exists_follow_of_entryAt? (isSome_entryAt?_of_text? h)
  exact ⟨h, ⟨absolute, location, grown, hroot, hfollow, hgrown, fun _ _ => rfl⟩, rfl⟩

theorem installed_of_write? {changed : Workspace}
    (h : (w.createDirectories directory).2.write? path text.toUTF8 = some changed)
    (events : List Event) : w.Installed directory path text (changed.told events) := by
  have hholds := text?_write h
  obtain ⟨grown, hcreated, hgrown⟩ := w.grownBy_createDirectories directory
  rw [hcreated] at h
  obtain ⟨absolute, location, hroot, hfollow, -, rfl⟩ := eq_put_of_write? h
  exact ⟨hholds,
    ⟨absolute, location, grown, hroot, hfollow, hgrown, fun _ hother => if_neg hother⟩, rfl⟩

end Workspace

theorem Artifact.slash_not_mem_fileName (a : Artifact) : '/' ∉ a.fileName.toList := by
  rw [fileName]
  cases a.target <;> decide

namespace Catalog

variable {c : Catalog} {o : Options} {a : Artifact} {directory : Path}

/-- A run on a workspace, from an empty journal on. -/
def generateRun (c : Catalog) (o : Options) (directory : Path) (w : Workspace) :
    Except Fault Path × Journal :=
  (c.generateInto o directory : ExceptT Fault (StateM Journal) Path).run.run ⟨w, []⟩

/-- Keeping the journal does not matter. -/
theorem run_generateInto (c : Catalog) (o : Options) (directory : Path) (w : Workspace) :
    (c.generateInto o directory : ExceptT Fault (StateM Workspace) Path).run.run w =
      ((c.generateRun o directory w).1, (c.generateRun o directory w).2.workspace) := by
  have hwatches : Journal.Watches (c.generateInto o directory).run
      (c.generateInto o directory : ExceptT Fault (StateM Workspace) Path).run :=
    .run_bind (.perform _) fun a => a.watches_install directory
  obtain ⟨noted, hrun⟩ := hwatches ⟨w, []⟩
  rw [generateRun, hrun]
  rfl

theorem generateRun_of_error {fault : Fault} (h : c.generate o .all = .error fault)
    (directory : Path) (w : Workspace) :
    ∃ events, c.generateRun o directory w = (.error fault, ⟨w.told events, []⟩) := by
  refine ⟨(c.generateLogged o .all).events, ?_⟩
  rw [generateRun, generateInto, run_run_bind, Journal.run_perform, result_generateLogged, h]

section

variable (ha : c.generate o .all = .ok a)
include ha

theorem target_of_generate : a.target = o.target := by
  rw [generate, check_bind_eq_ok, bind_eq_ok] at ha
  obtain ⟨-, t, -, h⟩ := ha
  exact congrArg Artifact.target (Except.ok.inj h).symm

theorem generateRun_of_ok (directory : Path) (w : Workspace) : ∃ events,
    c.generateRun o directory w =
      (a.install directory : ExceptT Fault (StateM Journal) Path).run.run
        ⟨w.told events, []⟩ := by
  refine ⟨(c.generateLogged o .all).events, ?_⟩
  rw [generateRun, generateInto, run_run_bind, Journal.run_perform, result_generateLogged, ha]

/-- The file holds the text once the directory is there. -/
theorem generateRun_of_text? {w created : Workspace}
    (hcreated : w.createDirectories directory = (true, created))
    (htext : created.text? (directory.child a.fileName) = some a.source) :
    ∃ events, c.generateRun o directory w =
      (.ok (directory.child a.fileName),
        ⟨created.told events, [.createDirectories directory]⟩) := by
  obtain ⟨events, hrun⟩ := generateRun_of_ok ha directory w
  have htold : (w.told events).createDirectories directory = (true, created.told events) := by
    rw [Workspace.createDirectories_told, hcreated]
  have hsame : (created.told events).text? (directory.child a.fileName) = some a.source := htext
  rw [hrun, Artifact.run_install]
  simp only [htold, if_pos hsame, if_true, Workspace.told_told]
  exact ⟨_, rfl⟩

/-- The file does not hold the text, and can be written. -/
theorem generateRun_of_write? {w created changed : Workspace}
    (hcreated : w.createDirectories directory = (true, created))
    (htext : created.text? (directory.child a.fileName) ≠ some a.source)
    (hwrite : created.write? (directory.child a.fileName) a.source.toUTF8 = some changed) :
    ∃ events, c.generateRun o directory w =
      (.ok (directory.child a.fileName), ⟨changed.told events,
        [.createDirectories directory, .writeText (directory.child a.fileName) a.source]⟩) := by
  obtain ⟨events, hrun⟩ := generateRun_of_ok ha directory w
  have htold : (w.told events).createDirectories directory = (true, created.told events) := by
    rw [Workspace.createDirectories_told, hcreated]
  have hother : (created.told events).text? (directory.child a.fileName) ≠ some a.source := htext
  have hwritten : (created.told events).write? (directory.child a.fileName) a.source.toUTF8 =
      some (changed.told events) := by
    rw [Workspace.write?_told, hwrite]
    rfl
  rw [hrun, Artifact.run_install]
  simp only [htold, if_neg hother, if_true, hwritten, Workspace.told_told]
  exact ⟨_, rfl⟩

/-- A file that is up to date stays as it is, and so does everything else. -/
theorem generateRun_of_upToDate {w : Workspace}
    (htext : w.text? (directory.child a.fileName) = some a.source) :
    ∃ events, c.generateRun o directory w =
      (.ok (directory.child a.fileName), ⟨w.told events, [.createDirectories directory]⟩) :=
  generateRun_of_text? ha
    (Workspace.createDirectories_of_text? a.slash_not_mem_fileName htext) htext

/-- Whatever was there before, the file is there afterwards. -/
theorem exists_installed {w created : Workspace}
    (hcreated : w.createDirectories directory = (true, created))
    (hwritable : (created.write? (directory.child a.fileName) a.source.toUTF8).isSome = true) :
    ∃ after changes,
      c.generateRun o directory w = (.ok (directory.child a.fileName), ⟨after, changes⟩) ∧
      w.Installed directory (directory.child a.fileName) a.source after ∧
      (created.text? (directory.child a.fileName) = some a.source →
        changes = [.createDirectories directory]) := by
  obtain rfl : (w.createDirectories directory).2 = created := congrArg Prod.snd hcreated
  by_cases htext : (w.createDirectories directory).2.text? (directory.child a.fileName) =
      some a.source
  · obtain ⟨events, hrun⟩ := generateRun_of_text? ha hcreated htext
    exact ⟨_, _, hrun, Workspace.installed_of_text? htext events, fun _ => rfl⟩
  · obtain ⟨changed, hwrite⟩ := Option.isSome_iff_exists.1 hwritable
    obtain ⟨events, hrun⟩ := generateRun_of_write? ha hcreated htext hwrite
    exact ⟨_, _, hrun, Workspace.installed_of_write? hwrite events, fun h => absurd h htext⟩

end

/-- Where an artifact is installed. -/
def installedAt (o : Options) (directory : Path) : Path :=
  directory.child (match o.target with | .cpp => "ve_dispatch.cpp" | .rust => "ve_dispatch.rs")

theorem child_fileName (ha : c.generate o .all = .ok a) (directory : Path) :
    directory.child a.fileName = installedAt o directory := by
  rw [installedAt, Artifact.fileName, target_of_generate ha]
  cases o.target <;> rfl

end Catalog

end DispatchGen
