import DispatchGen.CommandLine.Session

/-!
# How commands run

A command reads and computes first, and only its last step prints or writes. What comes before that
step is `Quiet`: it leaves nothing behind but events, and what it comes to (`Workspace.result`) does
not depend on them. `Command.run_eq` splits every command into its text and the delivery of it, and
`Request.run_perform` says what that makes of a workspace.
-/

namespace DispatchGen

variable {ε α β : Type}

/-- What a computation comes to on a workspace. -/
def Workspace.result (w : Workspace) (x : StateM Workspace α) : α :=
  (x.run w).1

/-- The computation leaves nothing behind but events, and comes to the same whatever was told
before. -/
def Quiet (x : StateM Workspace α) : Prop :=
  ∀ (w : Workspace) (earlier : List Event), ∃ later,
    x.run (w.told earlier) = (w.result x, w.told later)

namespace Quiet

variable {w : Workspace}

/-! ## Sequences -/

theorem run {x : StateM Workspace α} (h : Quiet x) (w : Workspace) :
    ∃ events, x.run w = (w.result x, w.told events) := by
  simpa using h w []

theorem result_told {x : StateM Workspace α} (h : Quiet x) (w : Workspace)
    (events : List Event) : (w.told events).result x = w.result x := by
  obtain ⟨later, hrun⟩ := h w events
  rw [Workspace.result, hrun]

theorem pure (a : α) : Quiet (pure a) :=
  fun _ earlier => ⟨earlier, rfl⟩

theorem result_bind {x : StateM Workspace α} {f : α → StateM Workspace β} (hx : Quiet x)
    (hf : ∀ a, Quiet (f a)) (w : Workspace) :
    w.result (x >>= f) = w.result (f (w.result x)) := by
  obtain ⟨events, hrun⟩ := hx.run w
  obtain ⟨later, hlater⟩ := hf (w.result x) w events
  have h : (x >>= f).run w = (f (w.result x)).run (w.told events) := by
    rw [StateT.run_bind, hrun]
    rfl
  rw [Workspace.result, h, hlater]

theorem bind {x : StateM Workspace α} {f : α → StateM Workspace β} (hx : Quiet x)
    (hf : ∀ a, Quiet (f a)) : Quiet (x >>= f) := by
  intro w earlier
  obtain ⟨events, hrun⟩ := hx w earlier
  obtain ⟨later, hlater⟩ := hf (w.result x) w events
  refine ⟨later, ?_⟩
  rw [hx.result_bind hf, StateT.run_bind, hrun]
  exact hlater

theorem map {x : StateM Workspace α} (f : α → β) (hx : Quiet x) : Quiet (f <$> x) := by
  rw [map_eq_pure_bind]
  exact hx.bind fun a => .pure (f a)

/-! ## Sequences that may fail -/

variable {x : ExceptT ε (StateM Workspace) α} {f : α → ExceptT ε (StateM Workspace) β}

theorem lift {x : StateM Workspace α} (hx : Quiet x) :
    Quiet (ExceptT.lift x : ExceptT ε (StateM Workspace) α).run := by
  rw [ExceptT.run_lift]
  exact hx.map _

theorem run_bind (hx : Quiet x.run) (hf : ∀ a, Quiet (f a).run) : Quiet (x >>= f).run := by
  rw [ExceptT.run_bind]
  refine hx.bind fun r => ?_
  cases r with
  | ok a => exact hf a
  | error e => exact .pure _

theorem result_run_bind (hx : Quiet x.run) (hf : ∀ a, Quiet (f a).run) (w : Workspace) :
    w.result (x >>= f).run = w.result x.run >>= fun a => w.result (f a).run := by
  rw [ExceptT.run_bind, hx.result_bind]
  · cases w.result x.run with
    | ok a => rfl
    | error e => rfl
  · intro r
    cases r with
    | ok a => exact hf a
    | error e => exact .pure _

/-! ## What a host offers -/

theorem present (path : Path) : Quiet (Host.present path) :=
  fun _ earlier => ⟨earlier, rfl⟩

theorem readText (path : Path) : Quiet (Host.readText path) :=
  fun w earlier => ⟨earlier, by rw [Workspace.result, w.run_readText, Workspace.run_readText]; rfl⟩

theorem workingDirectory : Quiet Host.workingDirectory :=
  fun _ earlier => ⟨earlier, rfl⟩

theorem tell (event : Event) : Quiet (Host.tell event) :=
  fun w earlier => ⟨earlier ++ [event], by rw [Workspace.run_tell, Workspace.told_told]⟩

theorem orFault {action : StateM Workspace (Except String α)} (h : Quiet action) :
    Quiet (Host.orFault action).run := by
  refine h.bind fun r => ?_
  cases r with
  | ok a => exact .pure _
  | error detail => exact .pure _

theorem perform (x : Logged α) : Quiet x.perform.run := by
  intro w earlier
  refine ⟨earlier ++ x.events, ?_⟩
  rw [Workspace.run_perform, Workspace.told_told, Workspace.result, Workspace.run_perform]

theorem firstPresent? (paths : List Path) :
    Quiet (DispatchGen.firstPresent? paths : ExceptT ε (StateM Workspace) (Option Path)).run := by
  induction paths with
  | nil => exact .pure _
  | cons path rest ih =>
    refine (Quiet.present path).lift.run_bind fun found => ?_
    cases found with
    | false => exact ih
    | true => exact .pure _

theorem load (path : Path) : Quiet (CatalogFile.load path).run := by
  refine (Quiet.present path).lift.run_bind fun found => ?_
  cases found with
  | false => exact .pure _
  | true =>
    refine (Quiet.readText path).orFault.run_bind fun text => ?_
    refine run_bind (.pure _) fun file => ?_
    exact (Quiet.tell _).lift.run_bind fun _ => .pure _

theorem findAndLoad (start : Path) : Quiet (CatalogFile.findAndLoad start).run := by
  refine (firstPresent? _).run_bind fun found => ?_
  cases found with
  | none => exact (Quiet.tell _).lift.run_bind fun _ => .pure _
  | some path => exact .load path

end Quiet

@[simp] theorem Workspace.result_perform (w : Workspace) (x : Logged α) :
    w.result x.perform.run = x.result := by
  rw [result, run_perform]

namespace CommandLine

/-! ## Up to the text -/

/-- The text of a command, before any of it is delivered. -/
def Command.text {m : Type → Type} [Monad m] [Host m] : Command → ExceptT Failure m String
  | .printCatalog _ => reporting .ofFault (CatalogFile.vectorEngine.toText : Except Fault String)
  | .check catalog => do
    let file ← loadFile catalog
    let c ← validate file
    let t ← reporting .ofFault c.emitTableLogged.perform
    return summary c t
  | .listKeys catalog json => do
    let (o, c) ← load catalog none
    let a ← reporting .ofFault (c.generateLogged o .routine).perform
    return if json then a.manifestText ++ "\n" else keyListing a.table
  | .generate parts g => do
    let (o, c) ← load g.catalog g.target
    let o ← reporting .ofFault (settle o g.keyStyle).perform
    let a ← reporting .ofFault (c.generateLogged o parts).perform
    return a.source

/-- The file a command writes its text to. -/
def Command.output? : Command → Option Path
  | .printCatalog output => output
  | .generate _ g => g.output
  | _ => none

section Quiet

variable {describe : Fault → Failure} {action : ExceptT Fault (StateM Workspace) α}

theorem quiet_reporting (h : Quiet action.run) : Quiet (reporting describe action).run := by
  refine h.bind fun r => ?_
  cases r with
  | ok a => exact .pure _
  | error fault => exact .pure _

theorem result_reporting (h : Quiet action.run) (w : Workspace) :
    w.result (reporting describe action).run = (w.result action.run).mapError describe := by
  refine (h.result_bind (fun r => ?_) w).trans ?_
  · cases r with
    | ok a => exact .pure _
    | error fault => exact .pure _
  · cases w.result action.run with
    | ok a => rfl
    | error fault => rfl

theorem quiet_loadFile (catalog : Option Path) : Quiet (loadFile catalog).run := by
  cases catalog with
  | some path => exact quiet_reporting (.load path)
  | none =>
    refine Quiet.workingDirectory.lift.run_bind fun found => ?_
    cases found with
    | error detail => exact .pure _
    | ok directory => exact quiet_reporting (.findAndLoad directory)

theorem quiet_validate (file : CatalogFile) : Quiet (validate file).run :=
  quiet_reporting (.perform _)

theorem quiet_resolve (file : CatalogFile) (target : Option Target) :
    Quiet (resolve file target).run :=
  quiet_reporting (.pure _)

theorem quiet_load (catalog : Option Path) (target : Option Target) :
    Quiet (load catalog target).run :=
  (quiet_loadFile catalog).run_bind fun file => (quiet_resolve file target).run_bind fun _ =>
    (quiet_validate file).run_bind fun _ => .pure _

theorem Command.quiet_text (command : Command) : Quiet command.text.run := by
  cases command with
  | printCatalog output => exact quiet_reporting (.pure _)
  | check catalog =>
    exact (quiet_loadFile catalog).run_bind fun file => (quiet_validate file).run_bind fun c =>
      (quiet_reporting (.perform _)).run_bind fun t => .pure _
  | listKeys catalog json =>
    exact (quiet_load catalog none).run_bind fun loaded =>
      (quiet_reporting (.perform _)).run_bind fun a => .pure _
  | generate parts g =>
    exact (quiet_load g.catalog g.target).run_bind fun loaded =>
      (quiet_reporting (.perform _)).run_bind fun o =>
        (quiet_reporting (.perform _)).run_bind fun a => .pure _

end Quiet

/-! ## Delivery -/

section Delivery

variable {m : Type → Type} [Monad m] [LawfulMonad m] [Host m]

omit [Host m] in
theorem silently_pure (a : α) : (silently (pure a) : Printing m α) = pure a := by
  apply ExceptT.ext
  apply StateT.ext
  intro printed
  simp [silently]

omit [Host m] in
theorem silently_bind (x : ExceptT Failure m α) (f : α → ExceptT Failure m β) :
    silently (x >>= f) = silently x >>= fun a => silently (f a) := by
  apply ExceptT.ext
  apply StateT.ext
  intro printed
  simp only [silently, ExceptT.run_bind, ExceptT.run_mk, StateT.run_bind, StateT.run_lift,
    bind_assoc, pure_bind]
  refine bind_congr fun r => ?_
  cases r with
  | ok a => rfl
  | error failure => simp

theorem Command.run_eq (command : Command) :
    (command.run : Printing m Unit) = silently command.text >>= deliver command.output? := by
  cases command with
  | printCatalog output => rfl
  | check catalog => simp only [run, text, silently_bind, silently_pure, bind_assoc, pure_bind]; rfl
  | listKeys catalog json =>
    simp only [run, text, silently_bind, silently_pure, bind_assoc, pure_bind]; rfl
  | generate parts g =>
    simp only [run, text, silently_bind, silently_pure, bind_assoc, pure_bind]; rfl

end Delivery

/-! ## Runs on a workspace -/

variable {w : Workspace}

/-- How a printing computation ends on a workspace, what it prints, and what it leaves. -/
def outcome (x : Printing (StateM Workspace) α) (w : Workspace) :
    (Except Failure α × String) × Workspace :=
  (x.run.run "").run w

theorem outcome_print (text : String) : outcome (print text) w = ((.ok (), text), w) := by
  rw [← String.empty_append (s := text)]
  rfl

section Silence

variable {x : ExceptT Failure (StateM Workspace) α} {f : α → Printing (StateM Workspace) β}

theorem outcome_silently (x : ExceptT Failure (StateM Workspace) α) :
    outcome (silently x) w = (((x.run.run w).1, ""), (x.run.run w).2) :=
  rfl

theorem outcome_silently_bind (hx : Quiet x.run) (f : α → Printing (StateM Workspace) β)
    (w : Workspace) : ∃ events, outcome (silently x >>= f) w =
      match w.result x.run with
      | .ok a => outcome (f a) (w.told events)
      | .error failure => ((.error failure, ""), w.told events) := by
  obtain ⟨events, hrun⟩ := hx.run w
  have hsilent : ((silently x).run.run "").run w = ((w.result x.run, ""), w.told events) := by
    rw [← outcome, outcome_silently, hrun]
  refine ⟨events, ?_⟩
  rw [outcome, ExceptT.run_bind, StateT.run_bind, StateT.run_bind, hsilent]
  cases w.result x.run with
  | ok a => rfl
  | error failure => rfl

end Silence

/-! ### Writing the text -/

theorem run_writeOutput (path : Path) (text : String) (w : Workspace) :
    (writeOutput path text : ExceptT Failure (StateM Workspace) Unit).run.run w =
      match w.write? path text.toUTF8 with
      | some changed => (.ok (), changed.told [.outputWritten text.utf8ByteSize path.text])
      | none => (.error ⟨s!"Failed to write {path.text}", ["the path cannot be written"]⟩, w) := by
  have hwrite : (Host.writeText path text :
      ExceptT Failure (StateM Workspace) (Except String Unit)).run.run w =
        Prod.map .ok id ((Host.writeText path text : StateM Workspace _).run w) :=
    rfl
  rw [writeOutput, run_run_bind, hwrite, Workspace.run_writeText]
  cases w.write? path text.toUTF8 with
  | none => rfl
  | some changed => rfl

namespace Request

variable {request : Request} {stdout : String} {after : Workspace}

theorem run_perform_of_ok (h : outcome request.command.run w = ((.ok (), stdout), after)) :
    (request.perform : StateM Workspace Exit).run w = ({ code := 0, stdout }, after) := by
  rw [outcome] at h
  rw [perform, StateT.run_bind, h]
  rfl

theorem run_perform_of_error {failure : Failure}
    (h : outcome request.command.run w = ((.error failure, stdout), after)) :
    (request.perform : StateM Workspace Exit).run w =
      ({ code := 1, stdout, stderr := failure.report }, after) := by
  rw [outcome] at h
  rw [perform, StateT.run_bind, h]
  rfl

/-- The ends a request may come to on a workspace. -/
inductive Ends (request : Request) (w : Workspace) : Exit × Workspace → Prop where
  | failed {failure : Failure} (stderr : String) (events : List Event)
    (result : w.result request.command.text.run = .error failure) :
    Ends request w ({ code := 1, stderr }, w.told events)
  | printed {text : String} (stderr : String) (events : List Event)
    (result : w.result request.command.text.run = .ok text)
    (output : request.command.output? = none) :
    Ends request w ({ code := 0, stdout := text, stderr }, w.told events)
  | written {text : String} {path : Path} {changed : Workspace} (stderr : String)
    (events : List Event) (result : w.result request.command.text.run = .ok text)
    (output : request.command.output? = some path)
    (write : w.write? path text.toUTF8 = some changed) :
    Ends request w ({ code := 0, stderr }, changed.told events)
  | refused {text : String} {path : Path} (stderr : String) (events : List Event)
    (result : w.result request.command.text.run = .ok text)
    (output : request.command.output? = some path)
    (write : w.write? path text.toUTF8 = none) :
    Ends request w ({ code := 1, stderr }, w.told events)

theorem ends_perform (request : Request) (w : Workspace) :
    request.Ends w ((request.perform : StateM Workspace Exit).run w) := by
  obtain ⟨earlier, hrun⟩ :=
    outcome_silently_bind request.command.quiet_text (deliver request.command.output?) w
  rw [← Command.run_eq] at hrun
  cases hresult : w.result request.command.text.run with
  | error failure =>
    rw [hresult] at hrun
    rw [run_perform_of_error hrun]
    exact .failed _ _ hresult
  | ok text =>
    rw [hresult] at hrun
    cases houtput : request.command.output? with
    | none =>
      simp only [houtput, deliver, outcome_print] at hrun
      rw [run_perform_of_ok hrun]
      exact .printed _ _ hresult houtput
    | some path =>
      simp only [houtput, deliver, outcome_silently, run_writeOutput,
        Workspace.write?_told] at hrun
      cases hwrite : w.write? path text.toUTF8 with
      | none =>
        rw [hwrite] at hrun
        rw [run_perform_of_error hrun]
        exact .refused _ _ hresult houtput hwrite
      | some changed =>
        rw [hwrite] at hrun
        simp only [Option.map_some, Workspace.told_told] at hrun
        rw [run_perform_of_ok hrun]
        exact .written _ _ hresult houtput hwrite

/-- A session ends as the run does; what was told before the session stays in front. -/
theorem ends_session (request : Request) (w : Workspace) :
    request.Ends w (request.session w) := by
  have h := request.ends_perform { w with events := [] }
  -- The session's own workspace is the given one before anything was told.
  have hresult : w.result request.command.text.run =
      Workspace.result { w with events := [] } request.command.text.run :=
    request.command.quiet_text.result_told { w with events := [] } w.events
  have hwrite (path : Path) (content : ByteArray) : w.write? path content =
      (Workspace.write? { w with events := [] } path content).map (·.told w.events) :=
    Workspace.write?_told { w with events := [] } w.events path content
  unfold session
  generalize (request.perform : StateM Workspace Exit).run { w with events := [] } = r at h ⊢
  cases h with
  | failed stderr events result => exact .failed _ events (hresult.trans result)
  | printed stderr events result output => exact .printed _ events (hresult.trans result) output
  | @written text path changed stderr events result output write =>
    have hchanged : w.write? path text.toUTF8 = some (changed.told w.events) := by
      rw [hwrite, write]
      rfl
    obtain ⟨_, _, _, _, _, rfl⟩ := Workspace.eq_put_of_write? write
    exact .written _ events (hresult.trans result) output hchanged
  | refused stderr events result output write =>
    refine .refused _ events (hresult.trans result) output ?_
    rw [hwrite, write]
    rfl

theorem session_of_text {text : String} (houtput : request.command.output? = none)
    (h : w.result request.command.text.run = .ok text) :
    (request.session w).1.code = 0 ∧ (request.session w).1.stdout = text := by
  have hends := request.ends_session w
  generalize request.session w = r at hends ⊢
  cases hends with
  | failed stderr events result => cases h.symm.trans result
  | printed stderr events result output => exact ⟨rfl, Except.ok.inj (result.symm.trans h)⟩
  | written stderr events result output write => cases houtput.symm.trans output
  | refused stderr events result output write => cases houtput.symm.trans output

theorem exists_text_of_session (h : (request.session w).1.code = 0) :
    ∃ text, w.result request.command.text.run = .ok text := by
  have hfailure : (1 : UInt8) ≠ 0 := by decide
  have hends := request.ends_session w
  generalize request.session w = r at hends h
  cases hends with
  | failed stderr events result => exact absurd h hfailure
  | printed stderr events result output => exact ⟨_, result⟩
  | written stderr events result output write => exact ⟨_, result⟩
  | refused stderr events result output write => exact absurd h hfailure

end Request

/-- Arguments that are accepted run their request. -/
theorem session_of_parse {arguments : List String} {request : Request}
    (h : Request.parse arguments = .ok request) (w : Workspace) :
    session arguments w = request.session w := by
  rw [session, h]

end CommandLine

end DispatchGen
