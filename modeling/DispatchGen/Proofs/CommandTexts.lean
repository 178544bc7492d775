import DispatchGen.Proofs.Checks
import DispatchGen.Proofs.CommandRuns
import DispatchGen.Proofs.Emission
import DispatchGen.Proofs.SavedFiles

/-!
# When a command has a text

What a command takes to have a text, from the content of its catalog file on: `result_check_eq_ok` and
its companions say which stages must succeed, and what the text is then. A call on a named file
succeeds if its command has a text, and prints it (`onFile_code_eq_zero_iff`).
-/

namespace DispatchGen

namespace Workspace

variable {w : Workspace} {path : Path}

/-- At the path there is a catalog file. -/
def Holds (w : Workspace) (path : Path) (file : CatalogFile) : Prop :=
  ∃ text, w.text? path = some text ∧ CatalogFile.ofText text = .ok file

theorem holds_of_write? {w' : Workspace} {text : String} {file : CatalogFile}
    (h : w.write? path text.toUTF8 = some w') (hfile : CatalogFile.ofText text = .ok file) :
    w'.Holds path file :=
  ⟨text, text?_write h, hfile⟩

theorem Holds.unique {file file' : CatalogFile} (h : w.Holds path file) (h' : w.Holds path file') :
    file = file' := by
  obtain ⟨text, htext, hfile⟩ := h
  obtain ⟨text', htext', hfile'⟩ := h'
  obtain rfl := Option.some.inj (htext.symm.trans htext')
  exact Except.ok.inj (hfile.symm.trans hfile')

theorem result_load_eq_ok {file : CatalogFile} :
    w.result (CatalogFile.load path).run = .ok file ↔ w.Holds path file := by
  unfold result Holds
  rw [CatalogFile.run_load]
  cases htext : w.text? path with
  | none =>
    cases (w.entryAt? path).isSome <;> simp
  | some text =>
    rw [isSome_entryAt?_of_text? htext]
    cases hfile : CatalogFile.ofText text <;> simp [hfile]

end Workspace

theorem mapError_eq_ok {ε ε' α : Type} {x : Except ε α} {f : ε → ε'} {a : α} :
    x.mapError f = .ok a ↔ x = .ok a := by
  cases x <;> simp [Except.mapError]

theorem Quiet.result_run_bind_eq_ok {ε α β : Type} {w : Workspace}
    {x : ExceptT ε (StateM Workspace) α} {f : α → ExceptT ε (StateM Workspace) β}
    (hx : Quiet x.run) (hf : ∀ a, Quiet (f a).run) {b : β} :
    w.result (x >>= f).run = .ok b ↔
      ∃ a, w.result x.run = .ok a ∧ w.result (f a).run = .ok b := by
  rw [hx.result_run_bind hf, bind_eq_ok]

theorem Quiet.result_run_bind_pure_eq_ok {ε α β : Type} {w : Workspace}
    {x : ExceptT ε (StateM Workspace) α} (hx : Quiet x.run) {f : α → β} {b : β} :
    w.result (x >>= fun a => Pure.pure (f a)).run = .ok b ↔
      ∃ a, w.result x.run = .ok a ∧ f a = b := by
  refine (hx.result_run_bind_eq_ok (f := fun a => Pure.pure (f a)) fun a => .pure _).trans ?_
  exact exists_congr fun a => and_congr_right fun _ => Except.ok.injEq (f a) b ▸ Iff.rfl

namespace CommandLine

variable {w : Workspace} {path : Path} {catalog : Option Path} {text : String}

/-! ## When a command has a text -/

theorem result_reporting_eq_ok {α : Type} {describe : Fault → Failure}
    {action : ExceptT Fault (StateM Workspace) α} (h : Quiet action.run) {a : α} :
    w.result (reporting describe action).run = .ok a ↔ w.result action.run = .ok a := by
  rw [result_reporting h, mapError_eq_ok]

theorem result_performing_eq_ok {α : Type} {describe : Fault → Failure} {x : Logged α} {a : α} :
    w.result (reporting describe x.perform).run = .ok a ↔ x.result = .ok a := by
  rw [result_reporting_eq_ok (.perform x), Workspace.result_perform]

/-- The catalog file a command works on: the one that was named, or the nearest one. -/
def Loads (w : Workspace) (catalog : Option Path) (file : CatalogFile) : Prop :=
  w.result (loadFile catalog).run = .ok file

theorem loads_some {file : CatalogFile} : Loads w (some path) file ↔ w.Holds path file :=
  (result_reporting_eq_ok (.load path)).trans Workspace.result_load_eq_ok

theorem result_validate_eq_ok {file : CatalogFile} {c : Catalog} :
    w.result (validate file).run = .ok c ↔ file.decl.build = .ok c :=
  result_performing_eq_ok

theorem result_resolve_eq_ok {file : CatalogFile} {target : Option Target} {o : Options} :
    w.result (resolve file target).run = .ok o ↔ file.options target = .ok o :=
  result_reporting_eq_ok (.pure _)

theorem result_load_eq_ok {target : Option Target} {o : Options} {c : Catalog} :
    w.result (load catalog target).run = .ok (o, c) ↔
      ∃ file, Loads w catalog file ∧ file.options target = .ok o ∧ file.decl.build = .ok c := by
  have hvalidate (file : CatalogFile) (o : Options) : Quiet (do
      let c ← validate file
      return (o, c) : ExceptT Failure (StateM Workspace) (Options × Catalog)).run :=
    (quiet_validate file).run_bind fun _ => .pure _
  rw [load, (quiet_loadFile _).result_run_bind_eq_ok fun file =>
    (quiet_resolve file target).run_bind (hvalidate file)]
  refine exists_congr fun file => ?_
  rw [← Loads, (quiet_resolve file target).result_run_bind_eq_ok (hvalidate file)]
  simp only [result_resolve_eq_ok, (quiet_validate file).result_run_bind_pure_eq_ok,
    result_validate_eq_ok, Prod.mk.injEq]
  constructor
  · rintro ⟨hfile, o', ho, c', hc, rfl, rfl⟩
    exact ⟨hfile, ho, hc⟩
  · rintro ⟨hfile, ho, hc⟩
    exact ⟨hfile, o, ho, c, hc, rfl, rfl⟩

theorem result_check_eq_ok : w.result (Command.check catalog).text.run = .ok text ↔
    ∃ file c, Loads w catalog file ∧ file.decl.build = .ok c ∧ summary c c.table = text := by
  have hemit (c : Catalog) : Quiet (do
      let t ← reporting .ofFault c.emitTableLogged.perform
      return summary c t : ExceptT Failure (StateM Workspace) String).run :=
    (quiet_reporting (.perform _)).run_bind fun _ => .pure _
  rw [Command.text, (quiet_loadFile _).result_run_bind_eq_ok fun file =>
    (quiet_validate file).run_bind hemit]
  refine exists_congr fun file => ?_
  rw [← Loads, (quiet_validate file).result_run_bind_eq_ok hemit]
  simp only [result_validate_eq_ok, (quiet_reporting (.perform _)).result_run_bind_pure_eq_ok,
    result_performing_eq_ok, Catalog.result_emitTableLogged]
  constructor
  · rintro ⟨hfile, c, hc, t, ht, rfl⟩
    rw [(CatalogDecl.valid_of_build hc).emitTable_eq] at ht
    cases ht
    exact ⟨c, hfile, hc, rfl⟩
  · rintro ⟨c, hfile, hc, rfl⟩
    exact ⟨hfile, c, hc, _, (CatalogDecl.valid_of_build hc).emitTable_eq, rfl⟩

theorem result_listKeys_eq_ok {json : Bool} :
    w.result (Command.listKeys catalog json).text.run = .ok text ↔
      ∃ file o c a, Loads w catalog file ∧ file.options = .ok o ∧ file.decl.build = .ok c ∧
        c.generate o .routine = .ok a ∧
          (if json then a.manifestText ++ "\n" else keyListing a.table) = text := by
  have hlist (c : Catalog) (o : Options) : Quiet (do
      let a ← reporting .ofFault (c.generateLogged o .routine).perform
      return if json then a.manifestText ++ "\n" else keyListing a.table :
        ExceptT Failure (StateM Workspace) String).run :=
    (quiet_reporting (.perform _)).run_bind fun _ => .pure _
  refine ((quiet_load _ _).result_run_bind_eq_ok fun loaded => hlist loaded.2 loaded.1).trans ?_
  simp only [Prod.exists, result_load_eq_ok, result_performing_eq_ok,
    (quiet_reporting (.perform _)).result_run_bind_pure_eq_ok, Catalog.result_generateLogged]
  constructor
  · rintro ⟨o, c, ⟨file, hfile, ho, hc⟩, a, ha, htext⟩
    exact ⟨file, o, c, a, hfile, ho, hc, ha, htext⟩
  · rintro ⟨file, o, c, a, hfile, ho, hc, ha, htext⟩
    exact ⟨o, c, ⟨file, hfile, ho, hc⟩, a, ha, htext⟩

theorem result_generate_eq_ok {parts : Parts} {g : Generation} :
    w.result (Command.generate parts g).text.run = .ok text ↔
      ∃ file o c settled a, Loads w g.catalog file ∧ file.options g.target = .ok o ∧
        file.decl.build = .ok c ∧ (settle o g.keyStyle).result = .ok settled ∧
          c.generate settled parts = .ok a ∧ a.source = text := by
  have hgenerate (c : Catalog) (o : Options) : Quiet (do
      let a ← reporting .ofFault (c.generateLogged o parts).perform
      return a.source : ExceptT Failure (StateM Workspace) String).run :=
    (quiet_reporting (.perform _)).run_bind fun _ => .pure _
  refine ((quiet_load _ _).result_run_bind_eq_ok fun loaded =>
    (quiet_reporting (.perform _)).run_bind (hgenerate loaded.2)).trans ?_
  simp only [Prod.exists, result_load_eq_ok,
    (quiet_reporting (.perform _)).result_run_bind_eq_ok (hgenerate _), result_performing_eq_ok,
    (quiet_reporting (.perform _)).result_run_bind_pure_eq_ok, Catalog.result_generateLogged]
  constructor
  · rintro ⟨o, c, ⟨file, hfile, ho, hc⟩, settled, hsettled, a, ha, htext⟩
    exact ⟨file, o, c, settled, a, hfile, ho, hc, hsettled, ha, htext⟩
  · rintro ⟨file, o, c, settled, a, hfile, ho, hc, hsettled, ha, htext⟩
    exact ⟨o, c, ⟨file, hfile, ho, hc⟩, settled, hsettled, a, ha, htext⟩

/-! ## Calls on a named file -/

/-- The settings that name a catalog file and nothing else. -/
def Settings.named (name : String) : Settings where
  given := [.catalog]
  catalog := some ⟨name⟩

theorem assign_catalog (name : String) : Settings.assign {} .catalog name =
    if name.isEmpty then .error (.mistake (.wrongValue .catalog name)) else .ok (.named name) := by
  cases h : name.isEmpty with
  | true =>
    have hpath : Settings.path? name = none := if_pos h
    simp only [Settings.assign, hpath]
    rfl
  | false =>
    have hpath : Settings.path? name = some ⟨name⟩ := if_neg (by simp [h])
    simp only [Settings.assign, hpath]
    rfl

theorem readOptions_catalog {verb : Verb} (hverb : verb ≠ .catalog) (name : String) :
    readOptions (some verb) (Switch.ofVerb verb) {} ["--catalog", name] =
      if isDashed name then .error (.mistake (.missingValue .catalog))
      else if name.isEmpty then .error (.mistake (.wrongValue .catalog name))
      else .ok (.named name, []) := by
  have hread : readDashed (some verb) (Switch.ofVerb verb) {} "--catalog" =
      .ok ({}, some .catalog) := by
    cases verb <;> first | exact absurd rfl hverb | rfl
  have hdashed : isDashed "--catalog" = true := rfl
  rw [readOptions, if_neg (by decide), if_pos hdashed, hread]
  simp only [assign_catalog]
  cases name.isEmpty <;> rfl

theorem parse_named {verb : Verb} (hverb : verb ≠ .catalog) (name : String) :
    Request.parse [verb.name, "--catalog", name] =
      if isDashed name then .error (.mistake (.missingValue .catalog))
      else if name.isEmpty then .error (.mistake (.wrongValue .catalog name))
      else .ok { verbose := false, command := (Settings.named name).command verb } := by
  have hgeneral : readOptions none Switch.general {} [verb.name, "--catalog", name] =
      .ok ({}, [verb.name, "--catalog", name]) := by
    cases verb <;> rfl
  have hname : Verb.ofName? verb.name = some verb := by
    cases verb <;> rfl
  have hhelp : verb.name ≠ "help" := by
    cases verb <;> decide
  rw [Request.parse, hgeneral]
  simp only [bind, Except.bind, hhelp, hname, readOptions_catalog hverb, ↓reduceIte]
  cases isDashed name with
  | true => rfl
  | false =>
    cases name.isEmpty <;> rfl

/-- What a command says when it is called on a catalog file without further options. -/
def onFile (verb : Verb) (name : String) (w : Workspace) : Exit :=
  (session [verb.name, "--catalog", name] w).1

/-- The command line takes the name for the value of an option. -/
def IsValue (name : String) : Prop :=
  isDashed name = false ∧ name.isEmpty = false

variable {verb : Verb} {name : String}

theorem output?_named (hverb : verb ≠ .catalog) (name : String) :
    ((Settings.named name).command verb).output? = none := by
  cases verb <;> first | exact absurd rfl hverb | rfl

theorem onFile_of_isValue (hverb : verb ≠ .catalog) (hvalue : IsValue name) (w : Workspace) :
    ∃ request : Request, request.command = (Settings.named name).command verb ∧
      onFile verb name w = (request.session w).1 := by
  refine ⟨⟨false, (Settings.named name).command verb⟩, rfl, ?_⟩
  have hparse := parse_named hverb name
  rw [hvalue.1, hvalue.2] at hparse
  rw [onFile, session, hparse]
  rfl

/-- What is no value of an option is a mistake. -/
theorem onFile_of_not_isValue (hverb : verb ≠ .catalog) (hvalue : ¬ IsValue name)
    (w : Workspace) : (onFile verb name w).code = 2 := by
  rw [onFile, session, parse_named hverb]
  cases hdashed : isDashed name with
  | true => rfl
  | false =>
    cases hempty : name.isEmpty with
    | true => rfl
    | false => exact absurd ⟨hdashed, hempty⟩ hvalue

theorem onFile_of_text {text : String} (hverb : verb ≠ .catalog) (hvalue : IsValue name)
    (h : w.result ((Settings.named name).command verb).text.run = .ok text) :
    (onFile verb name w).code = 0 ∧ (onFile verb name w).stdout = text := by
  obtain ⟨request, hcommand, hcall⟩ := onFile_of_isValue hverb hvalue w
  have houtput := output?_named hverb name
  rw [← hcommand] at h houtput
  rw [hcall]
  exact Request.session_of_text houtput h

/-- A call succeeds if its command has a text. -/
theorem onFile_code_eq_zero_iff (hverb : verb ≠ .catalog) : (onFile verb name w).code = 0 ↔
    IsValue name ∧ ∃ text, w.result ((Settings.named name).command verb).text.run = .ok text := by
  constructor
  · intro h
    by_cases hvalue : IsValue name
    · obtain ⟨request, hcommand, hcall⟩ := onFile_of_isValue hverb hvalue w
      rw [hcall] at h
      rw [← hcommand]
      exact ⟨hvalue, Request.exists_text_of_session h⟩
    · rw [onFile_of_not_isValue hverb hvalue] at h
      exact absurd h (by decide)
  · rintro ⟨hvalue, text, h⟩
    exact (onFile_of_text hverb hvalue h).1

end CommandLine

end DispatchGen
