import DispatchGen.Proofs.KeySpace
import DispatchGen.Proofs.Misrouting

/-!
# Operands at run time

A handler takes as many operands as the arity group of its opcode says. Of an instruction the
dispatcher looks at the opcode and at the type of the first operand, and never at how many operands
there are: one that has some, but fewer than the handler takes, is handed to it as it stands
(`Catalog.Starves`). `Catalog.operands_suffice_iff` says that handlers get all their operands
exactly when a run reaches no such instruction, and that a numeric instruction with too few operands
is refused exactly when it leads to no handler at all.
-/

namespace DispatchGen

/-- The instruction has an operand for every one that the handler takes. -/
def Call.Supplied (call : Call) : Prop :=
  call.handler.operandCount ≤ call.instruction.operands.length

namespace Catalog

section
variable (c : Catalog)

/-- A handler is read from the instruction: the first operand's type and the opcode make the key of
a pair. -/
def Leads (i : Instruction) (pair : Opcode × ElementType) : Prop :=
  ∃ element, i.operands.head? = some element ∧ c.Reads i.opcode element pair

/-- The instruction leads to a handler that takes more operands than there are. -/
def Starves (i : Instruction) : Prop :=
  ¬ c.IsControl i ∧ ∃ pair arity, c.Leads i pair ∧ pair.1.arity? = some arity ∧
    i.operands.length < arity.count

end

variable {c : Catalog}

namespace Valid

/-- A numeric opcode belongs to a group, and its handler takes the group's number of operands. -/
theorem exists_group (h : c.Valid) {op : Opcode} (hop : op ∈ c.opcodes.numeric) :
    ∃ group ∈ c.opcodes.groups, op ∈ group.opcodes ∧ op.arity? = some group.arity := by
  obtain ⟨group, hg, hm⟩ := List.mem_flatMap.1 hop
  refine ⟨group, hg, hm, ?_⟩
  rw [Opcode.arity?, h.opcodes.numeric_kind group hg op hm]

theorem step_leads (h : c.Valid) {i : Instruction} {pair : Opcode × ElementType}
    (hc : ¬ c.IsControl i) (hl : c.Leads i pair) :
    c.dispatcher.step i = .called (c.key pair.1 pair.2) (c.call pair i) := by
  obtain ⟨element, he, hr⟩ := hl
  exact h.step_reads (isControl_eq_false_iff.2 hc) he hr

theorem step_leads_nowhere (h : c.Valid) {i : Instruction} (hc : ¬ c.IsControl i)
    (hl : ∀ pair, ¬ c.Leads i pair) :
    c.dispatcher.step i = .refused (c.dispatcher.opcodeText i.opcode) := by
  refine h.step_unread (isControl_eq_false_iff.2 hc) ?_
  intro element pair he hr
  exact hl pair ⟨element, he, hr⟩

theorem call?_step_iff (h : c.Valid) {i : Instruction} {call : Call} :
    (c.dispatcher.step i).call? = some call ↔
      ¬ c.IsControl i ∧ ∃ pair, c.Leads i pair ∧ c.call pair i = call := by
  rw [h.step_called_iff, isControl_eq_false_iff]
  constructor
  · rintro ⟨hc, element, pair, he, hr, rfl⟩
    exact ⟨hc, pair, ⟨element, he, hr⟩, rfl⟩
  · rintro ⟨hc, pair, ⟨element, he, hr⟩, rfl⟩
    exact ⟨hc, element, pair, he, hr, rfl⟩

/-- No two pairs are read from one instruction. -/
theorem leads_unique (h : c.Valid) {i : Instruction} {p q : Opcode × ElementType}
    (hp : c.Leads i p) (hq : c.Leads i q) : p = q := by
  obtain ⟨e, he, hp⟩ := hp
  obtain ⟨e', he', hq⟩ := hq
  obtain rfl : e = e' := Option.some.inj (he.symm.trans he')
  exact h.reads_unique hp hq

/-- The call that an instruction leads to is supplied unless the instruction starves it. -/
theorem supplied_call_iff (h : c.Valid) {i : Instruction} {pair : Opcode × ElementType}
    (hc : ¬ c.IsControl i) (hl : c.Leads i pair) : (c.call pair i).Supplied ↔ ¬ c.Starves i := by
  obtain ⟨element, -, hr⟩ := id hl
  obtain ⟨group, -, -, ha⟩ := h.exists_group (mem_pairs.1 hr.mem).1
  have hcount : (c.call pair i).handler.operandCount = group.arity.count := by
    change (c.stub pair.1).operandCount = _
    rw [operandCount_stub, ha]
    rfl
  rw [Call.Supplied, hcount, ← Nat.not_lt]
  refine not_congr ⟨fun hlt => ⟨hc, pair, group.arity, hl, ha, hlt⟩, ?_⟩
  rintro ⟨-, q, arity, hq, hqa, hlt⟩
  obtain rfl : pair = q := h.leads_unique hl hq
  obtain rfl : group.arity = arity := Option.some.inj (ha.symm.trans hqa)
  exact hlt

/-- A run supplies all its calls when it reaches no instruction that starves a handler. -/
theorem calls_supplied_iff (h : c.Valid) (batch : List Instruction) :
    (∀ call ∈ (c.dispatcher.execute batch).calls, call.Supplied) ↔
      ∀ i ∈ c.dispatcher.reached batch, ¬ c.Starves i := by
  constructor
  · intro hs i hi hn
    obtain ⟨hc, pair, _, hl, -, -⟩ := id hn
    have hcall : c.call pair i ∈ (c.dispatcher.execute batch).calls :=
      Dispatcher.mem_calls_iff.2 ⟨i, hi, h.call?_step_iff.2 ⟨hc, pair, hl, rfl⟩⟩
    exact (h.supplied_call_iff hc hl).1 (hs _ hcall) hn
  · intro hn call hcall
    obtain ⟨i, hi, hs⟩ := Dispatcher.mem_calls_iff.1 hcall
    obtain ⟨hc, pair, hl, rfl⟩ := h.call?_step_iff.1 hs
    exact (h.supplied_call_iff hc hl).2 (hn i hi)

end Valid

/-- Handlers get all their operands in a run that starves none of them, and they always get the first.
A numeric instruction is refused, by its opcode's name, when it leads to no handler, whatever the
number of its operands. -/
theorem operands_suffice_iff {decl : CatalogDecl} (hb : decl.build = .ok c) :
    ∃ d, Dispatcher.ofCatalog c = .ok d ∧
      (∀ batch, ((∀ call ∈ (d.execute batch).calls, call.Supplied) ↔
          ∀ i ∈ d.reached batch, ¬ c.Starves i) ∧
        ∀ call ∈ (d.execute batch).calls, call.instruction.operands ≠ []) ∧
      ∀ front i rest, (d.execute front).status = .success →
        ∀ op ∈ c.opcodes.numeric, op.ordinal = i.opcode →
          (d.execute (front ++ i :: rest) = {
              calls := (d.execute front).calls
              status := .unsupported op.name } ↔ ∀ pair, ¬ c.Leads i pair) := by
  have h := CatalogDecl.valid_of_build hb
  refine ⟨c.dispatcher, h.ofCatalog_eq, fun batch => ⟨h.calls_supplied_iff batch, ?_⟩, ?_⟩
  · intro call hcall
    obtain ⟨i, -, hs⟩ := Dispatcher.mem_calls_iff.1 hcall
    obtain ⟨-, pair, ⟨element, he, -⟩, rfl⟩ := h.call?_step_iff.1 hs
    intro hnil
    rw [show i.operands = [] from hnil] at he
    cases he
  · intro front i rest hfront op hop hi
    have hc : ¬ c.IsControl i := isControl_eq_false_iff.1 (hi ▸ h.isControl_numeric hop)
    have hname : c.dispatcher.opcodeText i.opcode = op.name :=
      hi ▸ h.opcodeText_ordinal (List.mem_append_right _ hop)
    rw [Dispatcher.execute_append_of_success hfront]
    constructor
    · intro he pair hl
      rw [c.dispatcher.execute_called rest (h.step_leads hc hl)] at he
      -- the instruction's own call comes on top of those in front of it
      have hcalls := congrArg (fun outcome => outcome.calls.length) he
      simp at hcalls
    · intro hn
      rw [c.dispatcher.execute_refused rest (h.step_leads_nowhere hc hn), hname, List.append_nil]

end Catalog

theorem operands_suffice_addMul :
    let mul : Opcode := ⟨"MUL", 2, .numeric ⟨2, by decide, by decide⟩⟩
    CatalogDecl.addMul.build = .ok Catalog.addMul ∧ mul ∈ Catalog.addMul.opcodes.numeric ∧
      ∃ d, Dispatcher.ofCatalog Catalog.addMul = .ok d ∧
        (∀ call ∈ (d.execute [⟨0, []⟩, ⟨1, [1, 1]⟩, ⟨2, []⟩]).calls, call.Supplied) ∧
        d.execute ([⟨0, []⟩, ⟨1, [1, 1]⟩] ++ [⟨2, []⟩]) = {
          calls := (d.execute [⟨0, []⟩, ⟨1, [1, 1]⟩]).calls
          status := .unsupported "MUL" } := by
  intro mul
  have hmul : mul ∈ Catalog.addMul.opcodes.numeric := by decide
  have hbinary : ∀ op ∈ Catalog.addMul.opcodes.numeric, op.arity?.map Arity.count = some 2 := by
    decide
  obtain ⟨d, hd, hcalls, hrefused⟩ := Catalog.operands_suffice_iff build_addMul
  obtain rfl : Catalog.addMul.dispatcher = d :=
    Except.ok.inj ((CatalogDecl.valid_of_build build_addMul).ofCatalog_eq.symm.trans hd)
  refine ⟨build_addMul, hmul, _, hd, (hcalls _).1.2 ?_, ?_⟩
  · rintro i hi ⟨-, pair, arity, ⟨element, he, hr⟩, ha, hlt⟩
    have hcount := hbinary pair.1 (Catalog.mem_pairs.1 hr.mem).1
    rw [ha, Option.map_some, Option.some.injEq] at hcount
    have hmem := List.mem_of_mem_take hi
    simp only [List.mem_cons, List.not_mem_nil, or_false] at hmem
    rcases hmem with rfl | rfl | rfl
    · cases he
    · exact absurd hlt (by simp [hcount])
    · cases he
  · refine (hrefused _ _ [] (by decide +kernel) mul hmul rfl).2 ?_
    rintro pair ⟨element, he, -⟩
    cases he

/-- `ADD` on a single operand runs its handler, which takes two. -/
theorem add_with_one_operand_runs :
    ∃ d, Dispatcher.ofCatalog Catalog.addMul = .ok d ∧ d.opcodeText 1 = "ADD" ∧
      (d.execute [⟨1, [0]⟩]).status = .success ∧
      ∃ call ∈ (d.execute [⟨1, [0]⟩]).calls, call.handler.name = "add" ∧
        call.handler.operandCount = 2 ∧ call.instruction.operands.length = 1 ∧ ¬ call.Supplied := by
  let add : Opcode := ⟨"ADD", 1, .numeric ⟨2, by decide, by decide⟩⟩
  let int32 : ElementType := ⟨"INT32", "i32", 0⟩
  refine ⟨Catalog.addMul.dispatcher, (CatalogDecl.valid_of_build build_addMul).ofCatalog_eq,
    by decide +kernel, by decide +kernel, Catalog.addMul.call (add, int32) ⟨1, [0]⟩,
    by decide +kernel, by decide +kernel, by decide, rfl, ?_⟩
  unfold Call.Supplied
  decide

end DispatchGen
