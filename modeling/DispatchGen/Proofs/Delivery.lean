import DispatchGen.Proofs.CommandRuns
import DispatchGen.Proofs.SavedFiles

/-!
# Everything or nothing

A session either delivers the whole text of its command or leaves no trace but its log
(`session_all_or_nothing`). What a command would have delivered is what the same command prints
without an output file (`Request.printing`); a file that was written holds just that
(`Workspace.Replaced`).
-/

namespace DispatchGen

namespace Workspace

variable {w changed : Workspace} {path : Path} {text : String}

/-- One file was replaced: where the path leads there is the text now, and everything else is as it
was. -/
structure Replaced (w : Workspace) (path : Path) (text : String) (after : Workspace) : Prop where
  holds : after.text? path = some text
  others : ∃ absolute location, w.fromRoot? path = some absolute ∧
    w.tree.follow absolute = .ok location ∧
    ∀ other, other ≠ location → after.tree.entry? other = w.tree.entry? other
  directory : after.directory = w.directory

theorem replaced_of_write? (h : w.write? path text.toUTF8 = some changed) (events : List Event) :
    w.Replaced path text (changed.told events) := by
  have hholds := text?_write h
  obtain ⟨absolute, location, hroot, hfollow, -, rfl⟩ := eq_put_of_write? h
  exact ⟨hholds, ⟨absolute, location, hroot, hfollow, fun other hother => if_neg hother⟩, rfl⟩

end Workspace

namespace CommandLine

/-- The same command, with its text on standard output. -/
def Command.printing : Command → Command
  | .printCatalog _ => .printCatalog none
  | .generate parts g => .generate parts { g with output := none }
  | command => command

/-- The same request, with its text on standard output. -/
def Request.printing (request : Request) : Request :=
  { request with command := request.command.printing }

theorem Command.output?_printing (command : Command) : command.printing.output? = none := by
  cases command <;> rfl

/-- Where the text goes does not matter to it. -/
theorem Command.text_printing (command : Command) :
    (command.printing.text : ExceptT Failure (StateM Workspace) String) = command.text := by
  cases command <;> rfl

variable {w : Workspace}

theorem Request.session_printing {request : Request} {text : String}
    (h : w.result request.command.text.run = .ok text) :
    (request.printing.session w).1.code = 0 ∧ (request.printing.session w).1.stdout = text := by
  refine session_of_text request.command.output?_printing ?_
  rw [← h]
  exact congrArg (fun x => w.result x.run) request.command.text_printing

/-- Arguments that are accepted lead to exit code 0 or 1. With 1, nothing is on standard output and
every file is as it was. With 0, files are as they were too, unless the command has an output file:
then there is nothing on standard output, and that file alone has changed and holds the text that the
same command prints without it. -/
theorem session_all_or_nothing {arguments : List String} {request : Request}
    (h : Request.parse arguments = .ok request) (w : Workspace) :
    let exit := (session arguments w).1
    let after := (session arguments w).2
    let plain := (request.printing.session w).1
    (exit.code = 0 ∨ exit.code = 1) ∧
      (exit.code = 1 → exit.stdout = "" ∧ ∃ events, after = w.told events) ∧
      (exit.code = 0 →
        match request.command.output? with
        | none => ∃ events, after = w.told events
        | some path =>
          exit.stdout = "" ∧ plain.code = 0 ∧ w.Replaced path plain.stdout after) := by
  have hsession : session arguments w = request.session w := by rw [session, h]
  have hcodes : (1 : UInt8) ≠ 0 := by decide
  have hends := request.ends_session w
  rw [hsession]
  generalize request.session w = r at hends ⊢
  intro exit after plain
  cases hends with
  | failed stderr events result =>
    exact ⟨.inr rfl, fun _ => ⟨rfl, events, rfl⟩, fun hcode => absurd hcode hcodes⟩
  | printed stderr events result output =>
    rw [output]
    exact ⟨.inl rfl, fun hcode => absurd hcode.symm hcodes, fun _ => ⟨events, rfl⟩⟩
  | written stderr events result output write =>
    obtain ⟨hcode, hstdout⟩ := Request.session_printing result
    have hreplaced := Workspace.replaced_of_write? write events
    rw [← hstdout] at hreplaced
    rw [output]
    exact ⟨.inl rfl, fun hcode => absurd hcode.symm hcodes, fun _ => ⟨rfl, hcode, hreplaced⟩⟩
  | refused stderr events result output write =>
    exact ⟨.inr rfl, fun _ => ⟨rfl, events, rfl⟩, fun hcode => absurd hcode hcodes⟩

/-- The built-in catalog, printed into a file of an empty workspace. -/
theorem session_all_or_nothing_catalog :
    let arguments := ["catalog", "-o", "/a.toml"]
    let plain := (session ["catalog"] .empty).1
    (session arguments .empty).1.code = 0 ∧ (session arguments .empty).1.stdout = "" ∧
      plain.code = 0 ∧
      Workspace.Replaced .empty ⟨"/a.toml"⟩ plain.stdout (session arguments .empty).2 := by
  intro arguments plain
  have hparse : Request.parse arguments =
      .ok { verbose := false, command := .printCatalog (some ⟨"/a.toml"⟩) } := rfl
  have hcode : (session arguments .empty).1.code = 0 := by decide +kernel
  exact ⟨hcode, (session_all_or_nothing hparse .empty).2.2 hcode⟩

end CommandLine

end DispatchGen
