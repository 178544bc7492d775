import DispatchGen.Proofs.Routing

/-!
# Routing on the whole key space

`Catalog.routing_exact`: whatever 64-bit number a dispatcher is asked for, it leads somewhere exactly
when its quotient and remainder by the base are the ordinals of a numeric opcode and of a type that
is not excluded, and then to that opcode's own stub and that type. The opcode side is exact as well:
control opcodes are known by their ordinals alone, and an opcode is put in words by its name, or by
its ordinal where no opcode has it.
-/

namespace DispatchGen

namespace Catalog

variable {c : Catalog}

theorem get?_names (opcode : UInt32) :
    c.dispatcher.names.get? opcode =
      (c.opcodes.all.filter (·.ordinal == opcode)).getLast?.map (·.name) := by
  rw [dispatcher, Index.get?_ofList, List.filter_map, List.getLast?_map, Option.map_map]
  rfl

/-! ## Keys -/

namespace Valid

/-- The pair a key belongs to has the key's quotient and remainder as ordinals. -/
theorem key_eq_iff (h : c.Valid) {pair : Opcode × ElementType} (hp : pair ∈ c.pairs)
    {key : UInt64} :
    c.key pair.1 pair.2 = key ↔
      key.toNat / c.scheme.base.toNat = pair.1.ordinal.toNat ∧
        key.toNat % c.scheme.base.toNat = pair.2.ordinal.toNat :=
  KeyScheme.derive_eq_iff_div_mod (h.ordinal_lt_of_dispatchable (mem_pairs.1 hp).2)

theorem route?_eq_some_iff_div_mod (h : c.Valid) {key : UInt64} {route : Route} :
    c.dispatcher.route? key = some route ↔
      ∃ pair ∈ c.pairs, key.toNat / c.scheme.base.toNat = pair.1.ordinal.toNat ∧
        key.toNat % c.scheme.base.toNat = pair.2.ordinal.toNat ∧ c.route pair = route := by
  rw [h.route?_eq_some_iff]
  constructor
  · rintro ⟨pair, hp, hr, hk⟩
    obtain ⟨hq, hm⟩ := (h.key_eq_iff hp).1 hk
    exact ⟨pair, hp, hq, hm, hr⟩
  · rintro ⟨pair, hp, hq, hm, hr⟩
    exact ⟨pair, hp, hr, (h.key_eq_iff hp).2 ⟨hq, hm⟩⟩

/-! ## Opcodes -/

theorem isControl_numeric (h : c.Valid) {op : Opcode} (hop : op ∈ c.opcodes.numeric) :
    c.dispatcher.isControl op.ordinal = false := by
  refine Bool.eq_false_iff.2 fun hc => ?_
  obtain ⟨control, hcontrol, e⟩ := List.mem_map.1 (isControl_dispatcher.1 hc)
  exact (h.opcodes.numeric_ne_control hop hcontrol).2 e.symm

theorem opcodeText_ordinal (h : c.Valid) {op : Opcode} (hop : op ∈ c.opcodes.all) :
    c.dispatcher.opcodeText op.ordinal = op.name := by
  rw [Dispatcher.opcodeText, get?_names, filter_eq_singleton_of_nodup h.opcodes.ordinals_nodup hop]
  rfl

end Valid

theorem opcodeText_unknown {opcode : UInt32} (h : ∀ op ∈ c.opcodes.all, op.ordinal ≠ opcode) :
    c.dispatcher.opcodeText opcode = "opcode #" ++ toString opcode.toNat := by
  have hnone : c.opcodes.all.filter (·.ordinal == opcode) = [] :=
    List.filter_eq_nil_iff.2 fun op hop => by simpa using h op hop
  rw [Dispatcher.opcodeText, get?_names, hnone]
  rfl

/-! ## The dispatcher -/

theorem routing_exact {decl : CatalogDecl} (hb : decl.build = .ok c) :
    ∃ d, Dispatcher.ofCatalog c = .ok d ∧
      (∀ key handler element,
        (∃ route, d.route? key = some route ∧ route.handler = handler ∧ route.element = element) ↔
          ∃ op ∈ c.opcodes.numeric, ∃ type ∈ c.types.types, type.name ∉ decl.exclude ∧
            key.toNat / c.scheme.base.toNat = op.ordinal.toNat ∧
            key.toNat % c.scheme.base.toNat = type.ordinal.toNat ∧
            c.stub op = handler ∧ type = element) ∧
      (∀ opcode, d.isControl opcode = true ↔
        ∃ control ∈ c.opcodes.controls, control.ordinal = opcode) ∧
      (∀ op ∈ c.opcodes.numeric, d.isControl op.ordinal = false) ∧
      (∀ op ∈ c.opcodes.all, d.opcodeText op.ordinal = op.name) ∧
      ∀ opcode, (∀ op ∈ c.opcodes.all, op.ordinal ≠ opcode) →
        d.opcodeText opcode = "opcode #" ++ toString opcode.toNat := by
  obtain ⟨shaped, -, rfl, h⟩ := CatalogDecl.build_eq_ok_iff.1 hb
  refine ⟨_, h.ofCatalog_eq, fun key handler element => ?_, fun opcode => ?_,
    fun op => h.isControl_numeric, fun op => h.opcodeText_ordinal, fun opcode => opcodeText_unknown⟩
  · simp only [h.route?_eq_some_iff_div_mod]
    constructor
    · rintro ⟨_, ⟨⟨op, type⟩, hp, hq, hm, rfl⟩, rfl, rfl⟩
      obtain ⟨hop, ht⟩ := mem_pairs.1 hp
      obtain ⟨ht, hx⟩ := TypeCatalog.mem_dispatchable.1 ht
      exact ⟨op, hop, type, ht, hx, hq, hm, rfl, rfl⟩
    · rintro ⟨op, hop, type, ht, hx, hq, hm, rfl, rfl⟩
      have hp : (op, type) ∈ (decl.resolved shaped).pairs :=
        mem_pairs.2 ⟨hop, TypeCatalog.mem_dispatchable.2 ⟨ht, hx⟩⟩
      exact ⟨_, ⟨(op, type), hp, hq, hm, rfl⟩, rfl, rfl⟩
  · rw [isControl_dispatcher, List.mem_map]

theorem routing_exact_addMul :
    CatalogDecl.addMul.build = .ok addMul ∧ ∃ d, Dispatcher.ofCatalog addMul = .ok d ∧
      (∃ route, d.route? 201 = some route ∧
        route.handler = { name := "mul", opcode := "MUL", arity := 2, operands := ["op1", "op2"] } ∧
        route.element = { name := "FLOAT64", token := "f64", ordinal := 1 }) ∧
      d.isControl 0 = true ∧ d.isControl 2 = false ∧ d.opcodeText 2 = "MUL" ∧
      d.opcodeText 3 = "opcode #3" := by
  obtain ⟨d, hd, hroute, hcontrol, hnumeric, hname, hunknown⟩ := routing_exact build_addMul
  let sync : Opcode := ⟨"SYNC", 0, .control⟩
  let mul : Opcode := ⟨"MUL", 2, .numeric ⟨2, by decide, by decide⟩⟩
  let float64 : ElementType := ⟨"FLOAT64", "f64", 1⟩
  have hmul : mul ∈ addMul.opcodes.numeric := by decide
  refine ⟨build_addMul, d, hd, (hroute 201 _ _).2 ?_, (hcontrol 0).2 ⟨sync, by decide, rfl⟩,
    hnumeric mul hmul, hname mul (by decide), hunknown 3 (by decide)⟩
  exact ⟨mul, hmul, float64, by decide, by decide, by decide, by decide, by decide +kernel, rfl⟩

end Catalog

end DispatchGen
