import DispatchGen.Proofs.RoutineReading
import DispatchGen.Proofs.Routing
import DispatchGen.Source.Artifact

/-!
# The routine and the dispatcher agree

`Catalog.routine_agrees`: whoever reads the generated Rust routine and acts it out on a batch makes
the calls that the catalog's dispatcher makes and ends as it ends. The text says what the catalog's
table says (`Rust.read?_routine`), the dispatcher's routes are the table's arms with their names
resolved (`Catalog.arm?_inRoutine`), and both take a batch in the same steps
(`Catalog.step_inRoutine`).
-/

namespace DispatchGen

open Text

/-- A call as generated code spells it. -/
def Call.inRoutine (call : Call) : RoutineCall where
  handler := call.handler.name
  token := call.element.token
  arity := call.handler.operandCount
  instruction := call.instruction

/-- A route as an arm of generated code. -/
def Route.inRoutine (route : Route) : RoutineArm where
  key := route.key.toNat
  arity := route.handler.operandCount
  token := route.element.token
  handler := route.handler.name

def Disposition.inRoutine : Disposition → RoutineStep
  | skipped _ => .passed
  | called _ call => .called call.inRoutine
  | refused _ => .refused

def Outcome.inRoutine (outcome : Outcome) : RoutineOutcome where
  calls := outcome.calls.map Call.inRoutine
  status := outcome.status

/-- An instruction is refused by its own opcode. -/
theorem Dispatcher.opcode_of_refused (d : Dispatcher) {i : Instruction} {opcode : String}
    (h : d.step i = .refused opcode) : d.opcodeText i.opcode = opcode := by
  simp only [step] at h
  split at h
  · cases h
  · split at h
    · injection h
    · split at h
      · injection h
      · cases h

namespace Catalog

variable {c : Catalog}

/-! ## Keys and routes -/

theorem contains_controls (opcode : UInt32) :
    c.table.inRoutine.controls.contains opcode.toNat = c.dispatcher.isControl opcode := by
  have hmem : opcode.toNat ∈ c.table.inRoutine.controls ↔
      opcode ∈ c.opcodes.controls.map (·.ordinal) := by
    simp [Table.inRoutine, table, UInt32.toNat_inj]
  rw [Bool.eq_iff_iff, List.contains_iff_mem, hmem, isControl_dispatcher]

theorem inRoutine_arm (pair : Opcode × ElementType) :
    (c.arm pair.1 pair.2).inRoutine = (c.route pair).inRoutine := by
  rw [Route.inRoutine, route, operandCount_stub]
  rfl

/-- The routine finds under a key what the dispatcher finds. -/
theorem Valid.arm?_inRoutine (h : c.Valid) (key : UInt64) :
    c.table.inRoutine.arm? key.toNat = (c.dispatcher.route? key).map Route.inRoutine := by
  have harms : c.table.inRoutine.arms = (c.pairs.map c.route).map Route.inRoutine := by
    simp only [Table.inRoutine, table, List.map_map]
    exact List.map_congr_left fun pair _ => inRoutine_arm pair
  have hkey : (fun arm : RoutineArm => arm.key == key.toNat) ∘ Route.inRoutine =
      (·.key == key) := by
    funext route
    simp [Route.inRoutine, UInt64.toNat_inj]
  rw [Routine.arm?, harms, List.find?_map, hkey, h.route?_eq_find?]

/-! ## Batches -/

theorem Valid.step_inRoutine (h : c.Valid) (i : Instruction) :
    c.table.inRoutine.step i = (c.dispatcher.step i).inRoutine := by
  rw [Routine.step, Dispatcher.step, contains_controls]
  cases c.dispatcher.isControl i.opcode with
  | true => rfl
  | false =>
    cases i.operands with
    | nil => rfl
    | cons element =>
      have hkey : i.opcode.toNat * c.table.inRoutine.multiplier + element.toNat =
          (c.dispatcher.scheme.derive i.opcode element).toNat := (KeyScheme.toNat_derive ..).symm
      simp only [Bool.false_eq_true, ↓reduceIte, hkey, h.arm?_inRoutine]
      cases c.dispatcher.route? (c.dispatcher.scheme.derive i.opcode element) with
      | none => rfl
      | some route => rfl

theorem Valid.run_inRoutine (h : c.Valid) (batch : List Instruction) :
    c.table.inRoutine.run c.dispatcher.opcodeText batch =
      (c.dispatcher.execute batch).inRoutine := by
  induction batch with
  | nil => rfl
  | cons i rest ih =>
    rw [Routine.run, h.step_inRoutine]
    cases hs : c.dispatcher.step i with
    | skipped opcode =>
      rw [c.dispatcher.execute_skipped rest hs, ← ih]
      rfl
    | called key call =>
      rw [c.dispatcher.execute_called rest hs]
      simp only [Disposition.inRoutine, ih]
      rfl
    | refused opcode =>
      rw [c.dispatcher.execute_refused rest hs, ← c.dispatcher.opcode_of_refused hs]
      rfl

/-- For options the generator takes, the routine's text reads back, and acted out on a batch it makes
the dispatcher's calls and ends as the dispatcher does. -/
theorem routine_agrees {decl : CatalogDecl} {o : Options} {parts : Parts}
    (hb : decl.build = .ok c) (ht : o.target = .rust) (ho : o.validate = .ok ())
    (hp : parts.hasRoutine = true) :
    ∃ d a text r, Dispatcher.ofCatalog c = .ok d ∧ c.generate o parts = .ok a ∧
      a.routine = some text ∧ Routine.read? o.symbols.iteratePrefix text = some r ∧
        ∀ batch, r.run d.opcodeText batch = (d.execute batch).inRoutine := by
  have hv := CatalogDecl.valid_of_build hb
  have hg : c.generate o parts = .ok (render c.table c.stubs o parts) := by
    rw [generate, ho, hv.emitTable_eq]
    rfl
  have hr : (render c.table c.stubs o parts).routine =
      some ((Rust.routine o c.table).text o.indent) := by
    simp only [render, hp, if_true, Options.routine, ht]
  exact ⟨c.dispatcher, _, _, c.table.inRoutine, hv.ofCatalog_eq, hg, hr,
    Rust.read?_routine (Options.spelled_of_validate ho) hv.spelled_table o.indent 0,
    hv.run_inRoutine⟩

theorem routine_agrees_mixed :
    ∃ c, CatalogDecl.mixed.build = .ok c ∧ (Options.ofTarget .rust).validate = .ok () ∧
      ∃ d a text r, Dispatcher.ofCatalog c = .ok d ∧
        c.generate (.ofTarget .rust) .all = .ok a ∧ a.routine = some text ∧
          Routine.read? "iter_" text = some r ∧
            ∀ batch, r.run d.opcodeText batch = (d.execute batch).inRoutine := by
  have hvalidate : (Options.ofTarget .rust).validate = .ok () := by decide +kernel
  obtain ⟨c, hc⟩ := exists_eq_ok (x := CatalogDecl.mixed.build) (by decide +kernel)
  exact ⟨c, hc, hvalidate, routine_agrees hc rfl hvalidate rfl⟩

end Catalog

end DispatchGen
