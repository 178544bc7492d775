import DispatchGen.Proofs.Routing

/-!
# Misrouting

A dispatcher should call, for every instruction, the handler of the instruction's own opcode with the
type of its own first operand (`Catalog.Faithful`), and refuse an instruction whose opcode and type
are no pair of the catalog. It does so as long as the run-time type ordinals stay below the key base.
A type ordinal that reaches the base is not refused: its quotient by the base is carried into the
opcode, and where the carried pair exists its handler runs (`Catalog.Misroutes`).
`Catalog.faithful_iff_no_carry` says that this is the only way in which a run goes wrong.
-/

namespace DispatchGen

namespace Catalog

section
variable (c : Catalog)

/-- The call runs the handler of the instruction's opcode for the type of its first operand. -/
structure Faithful (call : Call) : Prop where
  opcode : ∃ op ∈ c.opcodes.numeric,
    op.ordinal = call.instruction.opcode ∧ op.name = call.handler.opcode
  element : call.instruction.operands.head? = some call.element.ordinal

/-- The instruction's opcode and first operand type are a pair of the catalog. -/
def Has (i : Instruction) : Prop :=
  ∃ pair ∈ c.pairs, pair.1.ordinal = i.opcode ∧ i.operands.head? = some pair.2.ordinal

def IsControl (i : Instruction) : Prop :=
  ∃ control ∈ c.opcodes.controls, control.ordinal = i.opcode

/-- The first operand's type ordinal reaches the base, and carrying its quotient by the base into the
opcode gives a pair of the catalog. -/
def Misroutes (i : Instruction) : Prop :=
  ¬ c.IsControl i ∧ ∃ element, i.operands.head? = some element ∧ c.scheme.base ≤ element ∧
    ∃ pair ∈ c.pairs, pair.1.ordinal.toNat = i.opcode.toNat + element.toNat / c.scheme.base.toNat ∧
      pair.2.ordinal.toNat = element.toNat % c.scheme.base.toNat

end

variable {c : Catalog}

theorem isControl_iff {i : Instruction} :
    c.dispatcher.isControl i.opcode = true ↔ c.IsControl i := by
  rw [isControl_dispatcher, List.mem_map]
  rfl

theorem isControl_eq_false_iff {i : Instruction} :
    c.dispatcher.isControl i.opcode = false ↔ ¬ c.IsControl i := by
  rw [← isControl_iff, Bool.not_eq_true]

theorem misroutes_iff {i : Instruction} :
    c.Misroutes i ↔ c.dispatcher.isControl i.opcode = false ∧ ∃ element pair,
      i.operands.head? = some element ∧ c.scheme.base ≤ element ∧ c.Reads i.opcode element pair := by
  rw [isControl_eq_false_iff]
  constructor
  · rintro ⟨hc, element, he, hb, pair, hp, ho, ht⟩
    exact ⟨hc, element, pair, he, hb, hp, ho, ht⟩
  · rintro ⟨hc, element, pair, he, hb, hp, ho, ht⟩
    exact ⟨hc, element, he, hb, pair, hp, ho, ht⟩

/-- Below the base nothing is carried. -/
theorem reads_iff_of_lt {opcode element : UInt32} {pair : Opcode × ElementType}
    (hlt : element < c.scheme.base) :
    c.Reads opcode element pair ↔
      pair ∈ c.pairs ∧ pair.1.ordinal = opcode ∧ pair.2.ordinal = element := by
  have hb : element.toNat < c.scheme.base.toNat := UInt32.lt_iff_toNat_lt.1 hlt
  rw [← UInt32.toNat_inj, ← UInt32.toNat_inj]
  constructor
  · rintro ⟨hp, ho, he⟩
    rw [Nat.div_eq_of_lt hb, Nat.add_zero] at ho
    rw [Nat.mod_eq_of_lt hb] at he
    exact ⟨hp, ho, he⟩
  · rintro ⟨hp, ho, he⟩
    exact ⟨hp, by rw [Nat.div_eq_of_lt hb, Nat.add_zero, ho], by rw [Nat.mod_eq_of_lt hb, he]⟩

namespace Valid

/-- The call of a pair that is read from an instruction is faithful when nothing is carried. -/
theorem faithful_call_iff (h : c.Valid) {i : Instruction} {element : UInt32}
    {pair : Opcode × ElementType} (he : i.operands.head? = some element)
    (hr : c.Reads i.opcode element pair) :
    c.Faithful (c.call pair i) ↔ element < c.scheme.base := by
  constructor
  · intro hf
    have hel : element = pair.2.ordinal := Option.some.inj (he.symm.trans hf.element)
    rw [hel]
    exact h.ordinal_lt_of_dispatchable (mem_pairs.1 hr.mem).2
  · intro hlt
    obtain ⟨hp, ho, ht⟩ := (reads_iff_of_lt hlt).1 hr
    exact ⟨⟨pair.1, (mem_pairs.1 hp).1, ho, rfl⟩, he.trans (congrArg some ht.symm)⟩

/-- An instruction without a pair of its own is refused unless it is misrouted. -/
theorem step_refused_of_not_has (h : c.Valid) {i : Instruction} (hc : ¬ c.IsControl i)
    (hn : ¬ c.Has i) (hm : ¬ c.Misroutes i) :
    c.dispatcher.step i = .refused (c.dispatcher.opcodeText i.opcode) := by
  refine h.step_unread (isControl_eq_false_iff.2 hc) fun element pair he hr => ?_
  by_cases hlt : element < c.scheme.base
  · obtain ⟨hp, ho, ht⟩ := (reads_iff_of_lt hlt).1 hr
    exact hn ⟨pair, hp, ho, ht ▸ he⟩
  · exact hm (misroutes_iff.2
      ⟨isControl_eq_false_iff.2 hc, element, pair, he, UInt32.not_lt.1 hlt, hr⟩)

theorem step_called_of_misroutes (h : c.Valid) {i : Instruction} (hm : c.Misroutes i) :
    ∃ key call, c.dispatcher.step i = .called key call ∧ ¬ c.Faithful call := by
  obtain ⟨hc, element, pair, he, hb, hr⟩ := misroutes_iff.1 hm
  refine ⟨_, _, h.step_reads hc he hr, fun hf => ?_⟩
  exact UInt32.not_lt.2 hb ((h.faithful_call_iff he hr).1 hf)

/-- A run makes only faithful calls when it reaches no instruction that is misrouted. -/
theorem calls_faithful_iff (h : c.Valid) (batch : List Instruction) :
    (∀ call ∈ (c.dispatcher.execute batch).calls, c.Faithful call) ↔
      ∀ i ∈ c.dispatcher.reached batch, ¬ c.Misroutes i := by
  constructor
  · intro hf i hi hm
    obtain ⟨key, call, hs, hn⟩ := h.step_called_of_misroutes hm
    exact hn (hf call (Dispatcher.mem_calls_iff.2 ⟨i, hi, by rw [hs]; rfl⟩))
  · intro hn call hcall
    obtain ⟨i, hi, hs⟩ := Dispatcher.mem_calls_iff.1 hcall
    obtain ⟨hc, element, pair, he, hr, rfl⟩ := h.step_called_iff.1 hs
    refine (h.faithful_call_iff he hr).2 (UInt32.not_le.1 fun hb => hn i hi ?_)
    exact misroutes_iff.2 ⟨hc, element, pair, he, hb, hr⟩

end Valid

theorem faithful_iff_no_carry {decl : CatalogDecl} {c : Catalog} (h : decl.build = .ok c) :
    ∃ d, Dispatcher.ofCatalog c = .ok d ∧
      (∀ batch, (∀ call ∈ (d.execute batch).calls, c.Faithful call) ↔
        ∀ i ∈ d.reached batch, ¬ c.Misroutes i) ∧
      ∀ front i rest, (d.execute front).status = .success → ¬ c.IsControl i → ¬ c.Has i →
        (d.execute (front ++ i :: rest) = {
            calls := (d.execute front).calls
            status := .unsupported (d.opcodeText i.opcode) } ↔ ¬ c.Misroutes i) := by
  have hc := CatalogDecl.valid_of_build h
  refine ⟨c.dispatcher, hc.ofCatalog_eq, hc.calls_faithful_iff, ?_⟩
  intro front i rest hfront hcontrol hhas
  rw [Dispatcher.execute_append_of_success hfront]
  constructor
  · intro he hm
    obtain ⟨key, call, hs, -⟩ := hc.step_called_of_misroutes hm
    rw [c.dispatcher.execute_called rest hs] at he
    -- the misrouted instruction adds a call where none should be
    have hcalls := congrArg (fun outcome => outcome.calls.length) he
    simp at hcalls
  · intro hm
    rw [c.dispatcher.execute_refused rest (hc.step_refused_of_not_has hcontrol hhas hm),
      List.append_nil]

end Catalog

theorem faithful_iff_no_carry_addMul :
    CatalogDecl.addMul.build = .ok Catalog.addMul ∧
      ∃ d, Dispatcher.ofCatalog Catalog.addMul = .ok d ∧
        ((∀ call ∈ (d.execute [⟨0, []⟩, ⟨1, [1, 1]⟩, ⟨1, [100]⟩]).calls,
            Catalog.addMul.Faithful call) ↔
          ∀ i ∈ d.reached [⟨0, []⟩, ⟨1, [1, 1]⟩, ⟨1, [100]⟩], ¬ Catalog.addMul.Misroutes i) := by
  obtain ⟨d, hd, hbatch, -⟩ := Catalog.faithful_iff_no_carry build_addMul
  exact ⟨build_addMul, d, hd, hbatch _⟩

/-- `ADD` on an operand of type 100 runs the handler of `MUL` on `INT32`. -/
theorem add_at_the_base_runs_mul :
    ∃ d, Dispatcher.ofCatalog Catalog.addMul = .ok d ∧ d.opcodeText 1 = "ADD" ∧
      (d.execute [⟨1, [100]⟩]).status = .success ∧
      ∃ call ∈ (d.execute [⟨1, [100]⟩]).calls, call.handler.opcode = "MUL" ∧
        call.element.name = "INT32" ∧ ¬ Catalog.addMul.Faithful call := by
  refine ⟨Catalog.addMul.dispatcher, (CatalogDecl.valid_of_build build_addMul).ofCatalog_eq,
    by decide +kernel, by decide +kernel, ?_⟩
  let mul : Opcode := ⟨"MUL", 2, .numeric ⟨2, by decide, by decide⟩⟩
  let int32 : ElementType := ⟨"INT32", "i32", 0⟩
  refine ⟨Catalog.addMul.call (mul, int32) ⟨1, [100]⟩, by decide +kernel, rfl, rfl, fun hf => ?_⟩
  exact absurd hf.element (by decide)

end DispatchGen
