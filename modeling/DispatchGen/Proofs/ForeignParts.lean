import DispatchGen.Proofs.KeySpace
import DispatchGen.Proofs.Verification

/-!
# Dispatchers of foreign parts

`Dispatcher.ofParts` takes any table and any list of handlers, and refuses a table that fails its
verification or calls a handler that is not in the list. What it takes leads every key of a pair to
the type of the pair (`Dispatcher.route?_ofParts`). Verification looks neither at the control opcodes
of the table nor at the handlers its arms call: `Catalog.Fits` says that these are the catalog's own,
and `Dispatcher.ofParts_alike_iff` that this, and nothing less, makes the dispatcher run every batch
as the catalog's own dispatcher does.
-/

namespace DispatchGen

/-! ## Runs that look alike -/

/-- What a caller is told of a call: the handler's opcode and arity, and the name of the type. -/
def Call.seen (call : Call) : String × Nat × String :=
  (call.handler.opcode, call.handler.arity, call.element.name)

/-- Two batches end the same way, after the same calls as far as a caller is told of them. -/
structure Outcome.Alike (a b : Outcome) : Prop where
  status : a.status = b.status
  calls : a.calls.map Call.seen = b.calls.map Call.seen

namespace Outcome

theorem Alike.refl (a : Outcome) : a.Alike a :=
  ⟨rfl, rfl⟩

theorem alike_called_iff {key key' : UInt64} {call call' : Call} :
    (ofHistory [.called key call]).Alike (ofHistory [.called key' call']) ↔
      call.seen = call'.seen := by
  constructor
  · intro h
    exact List.singleton_inj.1 h.calls
  · intro h
    exact ⟨rfl, List.singleton_inj.2 h⟩

end Outcome

namespace Dispatcher

variable {d d' : Dispatcher}

/-- Dispatchers that treat single instructions alike treat all batches alike. -/
theorem execute_alike_iff :
    (∀ batch, (d.execute batch).Alike (d'.execute batch)) ↔
      ∀ i, (d.execute [i]).Alike (d'.execute [i]) := by
  constructor
  · exact fun h i => h [i]
  · intro h batch
    induction batch with
    | nil => exact .refl _
    | cons i rest ih =>
      obtain ⟨hstatus, hcalls⟩ := h i
      change (d.execute ([i] ++ rest)).Alike (d'.execute ([i] ++ rest))
      by_cases hs : (d.execute [i]).status = .success
      · rw [execute_append_of_success hs, execute_append_of_success (hstatus ▸ hs)]
        exact ⟨ih.status, by rw [List.map_append, List.map_append, hcalls, ih.calls]⟩
      · rw [execute_append_of_ne_success hs, execute_append_of_ne_success (hstatus ▸ hs)]
        exact ⟨hstatus, hcalls⟩

/-- An instruction without operands tells a control opcode from any other. -/
theorem status_bare_iff {opcode : UInt32} :
    (d.execute [⟨opcode, []⟩]).status = .success ↔ d.isControl opcode = true := by
  rw [execute_singleton]
  cases hc : d.isControl opcode with
  | true =>
    rw [step_skipped hc]
    exact iff_of_true rfl rfl
  | false =>
    rw [step_refused hc (by simp)]
    simp [Outcome.ofHistory, Disposition.refusal?]

end Dispatcher

/-! ## Parts that fit -/

/-- The handler an arm calls: the last of `handlers` with the name it gives. -/
def Arm.handlerIn? (arm : Arm) (handlers : List Stub) : Option Stub :=
  (handlers.filter (·.name == arm.handler)).getLast?

/-- The control opcodes of a table are the catalog's, and each of its arms calls a handler that is
declared for the opcode the arm names and takes as many operands. -/
structure Catalog.Fits (c : Catalog) (t : Table) (handlers : List Stub) : Prop where
  controls : ∀ opcode, opcode ∈ t.controls.map (·.ordinal) ↔
    opcode ∈ c.opcodes.controls.map (·.ordinal)
  handlers : ∀ arm ∈ t.arms, ∀ op ∈ c.opcodes.numeric, op.name = arm.opcode →
    (arm.handlerIn? handlers).map (fun handler => (handler.opcode, handler.arity)) =
      some (op.name, (c.stub op).arity)

theorem Route.ofArm_eq_ok_iff {c : Catalog} {handlers : List Stub} {arm : Arm} {route : Route} :
    ofArm c handlers arm = .ok route ↔
      ∃ handler element, arm.handlerIn? handlers = some handler ∧
        c.types.get? arm.element = some element ∧
          { key := arm.key, handler, element } = route := by
  unfold ofArm find Arm.handlerIn?
  rw [Index.get?_ofValues]
  split <;> simp [*]

namespace Dispatcher

variable {c : Catalog} {t : Table} {handlers : List Stub} {d : Dispatcher}

theorem ofParts_eq_ok_iff :
    ofParts c t handlers = .ok d ↔
      t.verify c = .ok () ∧ ∃ routes, t.arms.mapM (Route.ofArm c handlers) = .ok routes ∧
        { scheme := c.scheme
          controls := t.controls.map (·.ordinal)
          names := .ofList (c.opcodes.all.map fun op => (op.ordinal, op.name))
          routes := .ofValues (·.key) routes } = d := by
  unfold ofParts
  simp only [check_bind_eq_ok]
  rw [bind_eq_ok]
  simp only [pure_eq_ok]

/-- What a dispatcher of foreign parts takes from the catalog. -/
theorem opcodeText_ofParts (hd : ofParts c t handlers = .ok d) (opcode : UInt32) :
    d.opcodeText opcode = c.dispatcher.opcodeText opcode := by
  obtain ⟨-, routes, -, rfl⟩ := ofParts_eq_ok_iff.1 hd
  rfl

theorem scheme_ofParts (hd : ofParts c t handlers = .ok d) : d.scheme = c.scheme := by
  obtain ⟨-, routes, -, rfl⟩ := ofParts_eq_ok_iff.1 hd
  rfl

theorem isControl_ofParts (hd : ofParts c t handlers = .ok d) {opcode : UInt32} :
    d.isControl opcode = true ↔ opcode ∈ t.controls.map (·.ordinal) := by
  obtain ⟨-, routes, -, rfl⟩ := ofParts_eq_ok_iff.1 hd
  exact List.contains_iff_mem

theorem controls_of_alike (hd : ofParts c t handlers = .ok d)
    (h : ∀ i, (d.execute [i]).Alike (c.dispatcher.execute [i])) (opcode : UInt32) :
    opcode ∈ t.controls.map (·.ordinal) ↔ opcode ∈ c.opcodes.controls.map (·.ordinal) := by
  rw [← isControl_ofParts hd, ← Catalog.isControl_dispatcher, ← status_bare_iff,
    ← status_bare_iff, (h ⟨opcode, []⟩).status]

section
variable (hc : c.Valid) (hd : ofParts c t handlers = .ok d)
include hc hd

/-- Under a key stands the route of the arm that the table has under it. -/
theorem route?_of_lookup? (key : UInt64) :
    (t.lookup? key = none ∧ d.route? key = none) ∨
      ∃ arm route, t.lookup? key = some arm ∧ d.route? key = some route ∧
        Route.ofArm c handlers arm = .ok route := by
  obtain ⟨hv, routes, hr, rfl⟩ := ofParts_eq_ok_iff.1 hd
  have hkey : ∀ arm route, Route.ofArm c handlers arm = .ok route → route.key = arm.key := by
    intro arm route h
    obtain ⟨_, _, -, -, rfl⟩ := Route.ofArm_eq_ok_iff.1 h
    rfl
  have hroutes : (routes.map (·.key)).Nodup := by
    rw [map_of_mapM_eq_ok hkey hr]
    exact Table.keys_nodup_of_verify hc hv
  have hfind := find?_of_mapM_eq_ok (p := (·.key == key)) (q := (·.key == key))
    (fun arm route h => by rw [hkey arm route h]) hr
  rwa [← Index.get?_ofValues_of_nodup key hroutes] at hfind

/-- The key of an arm leads to the route of the arm. -/
theorem route?_of_arm {arm : Arm} (ha : arm ∈ t.arms) :
    ∃ route, d.route? arm.key = some route ∧ Route.ofArm c handlers arm = .ok route := by
  have hlookup := Table.lookup?_of_verify hc (ofParts_eq_ok_iff.1 hd).1 ha
  rcases route?_of_lookup? hc hd arm.key with ⟨hn, -⟩ | ⟨arm', route, ha', hr, hof⟩
  · rw [hlookup] at hn
    cases hn
  · obtain rfl : arm = arm' := Option.some.inj (hlookup.symm.trans ha')
    exact ⟨route, hr, hof⟩

/-- The key of a pair leads to the type of the pair and to the handler its arm calls. -/
theorem route?_ofParts {arm : Arm} (ha : arm ∈ t.arms) {pair : Opcode × ElementType}
    (hp : pair ∈ c.pairs) (he : arm.entry = c.entry pair) :
    ∃ handler, arm.handlerIn? handlers = some handler ∧
      d.route? (c.key pair.1 pair.2) =
        some { key := c.key pair.1 pair.2, handler, element := pair.2 } := by
  have hkey : arm.key = c.key pair.1 pair.2 := congrArg (·.key) he
  have hname : arm.element = pair.2.name := congrArg (·.pairing.element) he
  obtain ⟨route, hr, hof⟩ := route?_of_arm hc hd ha
  obtain ⟨handler, element, hh, ht, rfl⟩ := Route.ofArm_eq_ok_iff.1 hof
  rw [hname, hc.get?_type (TypeCatalog.mem_dispatchable.1 (Catalog.mem_pairs.1 hp).2).1] at ht
  obtain rfl : pair.2 = element := Option.some.inj ht
  rw [← hkey]
  exact ⟨handler, hh, hr⟩

theorem route?_ofParts_eq_none {key : UInt64} (hn : ∀ pair ∈ c.pairs, c.key pair.1 pair.2 ≠ key) :
    d.route? key = none := by
  rcases route?_of_lookup? hc hd key with ⟨-, hr⟩ | ⟨arm, -, ha, -, -⟩
  · exact hr
  · obtain ⟨pair, hp, he⟩ := Table.exists_pair_of_verify hc (ofParts_eq_ok_iff.1 hd).1
      (List.mem_of_find?_eq_some ha)
    have hkey : arm.key = key := by simpa using List.find?_some ha
    exact absurd ((congrArg Table.Entry.key he).symm.trans hkey) (hn pair hp)

/-- An instruction that a pair is read from calls the handler of the pair's arm. -/
theorem step_ofParts {arm : Arm} (ha : arm ∈ t.arms) {pair : Opcode × ElementType}
    (he : arm.entry = c.entry pair) {i : Instruction} {element : UInt32}
    (hcontrol : d.isControl i.opcode = false) (ho : i.operands.head? = some element)
    (hr : c.Reads i.opcode element pair) :
    ∃ handler, arm.handlerIn? handlers = some handler ∧
      d.step i = .called (c.key pair.1 pair.2)
        { handler, element := pair.2, instruction := i } := by
  obtain ⟨hp, hk⟩ := hc.reads_iff.1 hr
  obtain ⟨handler, hh, hroute⟩ := route?_ofParts hc hd ha hp he
  refine ⟨handler, hh, ?_⟩
  rw [hk, ← scheme_ofParts hd] at hroute ⊢
  exact step_called hcontrol ho hroute

theorem step_ofParts_unread {i : Instruction} (hcontrol : d.isControl i.opcode = false)
    (hr : ∀ element pair, i.operands.head? = some element → ¬ c.Reads i.opcode element pair) :
    d.step i = .refused (c.dispatcher.opcodeText i.opcode) := by
  rw [← opcodeText_ofParts hd]
  refine step_refused hcontrol fun element he => route?_ofParts_eq_none hc hd fun pair hp hk => ?_
  rw [scheme_ofParts hd] at hk
  exact hr element pair he (hc.reads_iff.2 ⟨hp, hk⟩)

/-! ## Alike exactly when the parts fit -/

theorem fits_of_alike (h : ∀ i, (d.execute [i]).Alike (c.dispatcher.execute [i])) :
    c.Fits t handlers := by
  have hcontrols := controls_of_alike hd h
  refine ⟨hcontrols, fun arm ha op hop hname => ?_⟩
  obtain ⟨pair, hp, he⟩ := Table.exists_pair_of_verify hc (ofParts_eq_ok_iff.1 hd).1 ha
  obtain rfl : op = pair.1 := List.inj_on_of_nodup_map hc.numeric_names_nodup hop
    (Catalog.mem_pairs.1 hp).1 (hname.trans (congrArg (·.pairing.opcode) he))
  -- the instruction with the ordinals of the pair is called on either side
  let i : Instruction := ⟨pair.1.ordinal, [pair.2.ordinal]⟩
  have hown : c.dispatcher.isControl i.opcode = false := hc.isControl_numeric hop
  have hcontrol : d.isControl i.opcode = false := by
    rw [← Bool.not_eq_true] at hown ⊢
    rwa [isControl_ofParts hd, hcontrols, ← Catalog.isControl_dispatcher]
  have hr : c.Reads i.opcode pair.2.ordinal pair := hc.reads_iff.2 ⟨hp, rfl⟩
  obtain ⟨handler, hh, hstep⟩ := step_ofParts hc hd ha he hcontrol rfl hr
  have hseen := h i
  rw [execute_singleton, execute_singleton, hstep, hc.step_reads hown rfl hr,
    Outcome.alike_called_iff, Call.seen, Call.seen, Prod.mk.injEq, Prod.mk.injEq] at hseen
  rw [hh, Option.map_some, hseen.1, hseen.2.1]
  rfl

theorem alike_of_fits (hf : c.Fits t handlers) (i : Instruction) :
    (d.execute [i]).Alike (c.dispatcher.execute [i]) := by
  have hcontrol : d.isControl i.opcode = c.dispatcher.isControl i.opcode := by
    rw [Bool.eq_iff_iff, isControl_ofParts hd, hf.controls, Catalog.isControl_dispatcher]
  rw [execute_singleton, execute_singleton]
  cases hown : c.dispatcher.isControl i.opcode with
  | true =>
    rw [step_skipped hown, step_skipped (hcontrol.trans hown), opcodeText_ofParts hd]
    exact .refl _
  | false =>
    by_cases hr : ∃ element pair, i.operands.head? = some element ∧ c.Reads i.opcode element pair
    · obtain ⟨element, pair, ho, hr⟩ := hr
      obtain ⟨arm, ha, he⟩ := Table.exists_arm_of_verify hc (ofParts_eq_ok_iff.1 hd).1 hr.mem
      obtain ⟨handler, hh, hstep⟩ := step_ofParts hc hd ha he (hcontrol.trans hown) ho hr
      have hfit := hf.handlers arm ha pair.1 (Catalog.mem_pairs.1 hr.mem).1
        (congrArg (·.pairing.opcode) he).symm
      rw [hh, Option.map_some, Option.some.injEq, Prod.mk.injEq] at hfit
      rw [hstep, hc.step_reads hown ho hr, Outcome.alike_called_iff, Call.seen, hfit.1, hfit.2]
      rfl
    · have hn : ∀ element pair, i.operands.head? = some element →
          ¬ c.Reads i.opcode element pair := fun element pair ho hx => hr ⟨element, pair, ho, hx⟩
      rw [step_ofParts_unread hc hd (hcontrol.trans hown) hn, hc.step_unread hown hn]
      exact .refl _

end

/-- Of the parts that are taken, those that fit the catalog, and no others, run every batch as the
catalog's own do. -/
theorem ofParts_alike_iff {decl : CatalogDecl} (hb : decl.build = .ok c)
    (hd : ofParts c t handlers = .ok d) :
    ∃ own, ofCatalog c = .ok own ∧
      ((∀ batch, (d.execute batch).Alike (own.execute batch)) ↔ c.Fits t handlers) := by
  have hc := CatalogDecl.valid_of_build hb
  refine ⟨c.dispatcher, hc.ofCatalog_eq, ?_⟩
  rw [execute_alike_iff]
  exact ⟨fits_of_alike hc hd, fun hf => alike_of_fits hc hd hf⟩

/-- The arms and the stubs of `addMul` fit from back to front, too. -/
theorem ofParts_alike_backward :
    let backward : Table := { Catalog.addMul.table with arms := Catalog.addMul.table.arms.reverse }
    CatalogDecl.addMul.build = .ok Catalog.addMul ∧ backward ≠ Catalog.addMul.table ∧
      ∃ d own, ofParts Catalog.addMul backward Catalog.addMul.stubs.reverse = .ok d ∧
        ofCatalog Catalog.addMul = .ok own ∧ ∀ batch, (d.execute batch).Alike (own.execute batch) := by
  intro backward
  obtain ⟨d, hd⟩ : ∃ d, ofParts Catalog.addMul backward Catalog.addMul.stubs.reverse = .ok d :=
    exists_eq_ok (by decide +kernel)
  obtain ⟨own, ho, halike⟩ := ofParts_alike_iff build_addMul hd
  refine ⟨build_addMul, by decide, d, own, hd, ho, halike.2 ⟨fun opcode => Iff.rfl, ?_⟩⟩
  decide +kernel

/-- The table of `addMul` is taken without its control opcode, with `ADD` among the control opcodes,
and with all its arms calling the handler of `MUL`. -/
theorem ofParts_takes_misfits :
    let t := Catalog.addMul.table
    let uncontrolled : Table := { t with controls := [] }
    let passing : Table := { t with controls := ⟨"ADD", 1⟩ :: t.controls }
    let swapped : Table := { t with arms := t.arms.map fun arm => { arm with handler := "mul" } }
    let sync : List Instruction := [⟨0, []⟩]
    let add : List Instruction := [⟨1, [0, 0]⟩]
    CatalogDecl.addMul.build = .ok Catalog.addMul ∧
      ∃ own stopping skipping misleading, ofCatalog Catalog.addMul = .ok own ∧
        (own.execute sync).status = .success ∧
        (own.execute add).calls.map Call.seen = [("ADD", 2, "INT32")] ∧
        ofParts Catalog.addMul uncontrolled Catalog.addMul.stubs = .ok stopping ∧
        (stopping.execute sync).status = .unsupported "SYNC" ∧
        ¬ (stopping.execute sync).Alike (own.execute sync) ∧
        ofParts Catalog.addMul passing Catalog.addMul.stubs = .ok skipping ∧
        (skipping.execute add).calls = [] ∧
        ¬ (skipping.execute add).Alike (own.execute add) ∧
        ofParts Catalog.addMul swapped Catalog.addMul.stubs = .ok misleading ∧
        (misleading.execute add).calls.map Call.seen = [("MUL", 2, "INT32")] ∧
        ¬ (misleading.execute add).Alike (own.execute add) := by
  intro t uncontrolled passing swapped sync add
  let own := Catalog.addMul.dispatcher
  let misrouted (pair : Opcode × ElementType) : Route :=
    { Catalog.addMul.route pair with handler := ⟨"mul", "MUL", 2, ["op1", "op2"]⟩ }
  let routes : Index UInt64 Route := .ofValues (·.key) (Catalog.addMul.pairs.map misrouted)
  refine ⟨build_addMul, own, { own with controls := [] }, { own with controls := [1, 0] },
    { own with routes }, by decide +kernel, by decide +kernel,
    by decide +kernel, by decide +kernel, by decide +kernel, ?_, by decide +kernel,
    by decide +kernel, ?_, by decide +kernel, by decide +kernel, ?_⟩
  · exact fun h => absurd h.status (by decide +kernel)
  · exact fun h => absurd h.calls (by decide +kernel)
  · exact fun h => absurd h.calls (by decide +kernel)

end Dispatcher

end DispatchGen
