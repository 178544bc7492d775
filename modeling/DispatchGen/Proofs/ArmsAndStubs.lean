import DispatchGen.Proofs.Routing

/-!
# Arms and stubs

A table and the stubs are emitted apart from each other and meet through the names of handlers alone.
`Catalog.arms_match_stubs`: each arm of an accepted catalog calls one stub, which is of the arm's
opcode and has the operands that the opcode's one group asks for (`Stub.Serves`), and each stub is
called by one arm of its opcode for every type that is not excluded. Both rest on names that occur
once: no two numeric opcodes share a handler, and no two groups share an opcode.
-/

namespace DispatchGen

/-- A stub is what an arm calls: of the arm's opcode and arity, which is that of the opcode's group,
with the operands `op1`, `op2` and so on, as many as that and no two alike. -/
structure Stub.Serves (stub : Stub) (arm : Arm) (group : OpcodeGroup) : Prop where
  opcode : stub.opcode = arm.opcode
  arity : stub.arity = arm.arity
  group_arity : stub.arity = group.arity.count
  operandCount : stub.operandCount = stub.arity
  operands : ∀ i < stub.arity, stub.operands[i]? = some ("op" ++ toString (i + 1))
  operands_nodup : stub.operands.Nodup

theorem nodup_operandNames (count : Nat) : (operandNames count).Nodup := by
  refine List.Nodup.map ?_ List.nodup_range
  intro i j h
  have hdigits : Nat.toDigits 10 (i + 1) = Nat.toDigits 10 (j + 1) := by
    rw [← Nat.toList_repr, ← Nat.toList_repr]
    exact congrArg String.toList ((String.append_right_inj "op").1 h)
  have hnumber : i + 1 = j + 1 := calc
    i + 1 = Nat.ofDigitChars 10 (Nat.toDigits 10 (i + 1)) 0 := Nat.ofDigitChars_ten_toDigits.symm
    _ = Nat.ofDigitChars 10 (Nat.toDigits 10 (j + 1)) 0 := by rw [hdigits]
    _ = j + 1 := Nat.ofDigitChars_ten_toDigits
  omega

/-! ## Lists of lists -/

/-- A test that depends on the origin alone. -/
theorem filter_flatMap_of_forall {α β : Type} {f : α → List β} {p : β → Bool} {q : α → Bool}
    (h : ∀ x, ∀ y ∈ f x, p y = q x) (xs : List α) :
    (xs.flatMap f).filter p = (xs.filter q).flatMap f := by
  induction xs with
  | nil => rfl
  | cons x xs ih =>
    rw [List.flatMap_cons, List.filter_append, ih]
    cases hq : q x with
    | true =>
      have hall : (f x).filter p = f x := List.filter_eq_self.2 fun y hy => (h x y hy).trans hq
      rw [hall, List.filter_cons_of_pos hq, List.flatMap_cons]
    | false =>
      have hnone : (f x).filter p = [] :=
        List.filter_eq_nil_iff.2 fun y hy => by simp [h x y hy, hq]
      rw [hnone, List.filter_cons_of_neg (by simp [hq]), List.nil_append]

/-- Among lists that share no member, one holds a given member. -/
theorem filter_contains_eq_singleton {α β : Type} [BEq β] [LawfulBEq β] {f : α → List β}
    {xs : List α} (h : (xs.flatMap f).Nodup) {x : α} (hx : x ∈ xs) {b : β} (hb : b ∈ f x) :
    xs.filter (fun y => (f y).contains b) = [x] := by
  induction xs with
  | nil => simp at hx
  | cons y xs ih =>
    rw [List.flatMap_cons, List.nodup_append] at h
    obtain ⟨-, hrest, hdisjoint⟩ := h
    rcases List.mem_cons.1 hx with rfl | hx
    · have hnone : xs.filter (fun y => (f y).contains b) = [] := by
        refine List.filter_eq_nil_iff.2 fun z hz hc => ?_
        have hm : b ∈ xs.flatMap f := List.mem_flatMap.2 ⟨z, hz, List.contains_iff_mem.1 hc⟩
        exact hdisjoint b hb b hm rfl
      rw [List.filter_cons, if_pos (List.contains_iff_mem.2 hb), hnone]
    · have hne : ¬ (f y).contains b = true := fun hc =>
        hdisjoint b (List.contains_iff_mem.1 hc) b (List.mem_flatMap.2 ⟨x, hx, hb⟩) rfl
      rw [List.filter_cons, if_neg hne, ih hrest hx]

namespace Catalog

variable {c : Catalog}

/-! ## From arms to stubs -/

namespace Valid

/-- One group holds a numeric opcode. -/
theorem filter_groups (h : c.Valid) {group : OpcodeGroup} (hg : group ∈ c.opcodes.groups)
    {op : Opcode} (hop : op ∈ group.opcodes) :
    c.opcodes.groups.filter (fun g => (g.opcodes.map (·.name)).contains op.name) = [group] := by
  have hnames : (c.opcodes.groups.flatMap fun g => g.opcodes.map (·.name)).Nodup := by
    rw [← List.map_flatMap]
    exact h.numeric_names_nodup
  exact filter_contains_eq_singleton hnames hg (List.mem_map_of_mem hop)

theorem serves_arm (h : c.Valid) {group : OpcodeGroup} (hg : group ∈ c.opcodes.groups) {op : Opcode}
    (hop : op ∈ group.opcodes) (type : ElementType) : (c.stub op).Serves (c.arm op type) group where
  opcode := rfl
  arity := rfl
  group_arity := by
    rw [stub, Opcode.arity?, h.opcodes.numeric_kind group hg op hop]
    rfl
  operandCount := operandCount_stub op
  operands := fun _ hi => getElem?_operandNames hi
  operands_nodup := nodup_operandNames _

end Valid

/-! ## From stubs to arms -/

theorem map_name_dispatchable :
    c.types.dispatchable.map (·.name) =
      (c.types.types.map (·.name)).filter (· ∉ c.types.exclusions) := by
  rw [dispatchable_eq_filter, List.filter_map]
  rfl

namespace Valid

/-- The arms that call the handler of an opcode are the opcode's own. -/
theorem filter_arms (h : c.Valid) {op : Opcode} (hop : op ∈ c.opcodes.numeric) :
    c.table.arms.filter (·.handler == (c.stub op).name) =
      c.types.dispatchable.map (c.arm op) := by
  have harms : c.table.arms =
      c.opcodes.numeric.flatMap fun op => c.types.dispatchable.map (c.arm op) := by
    simp only [table, pairs, List.map_flatMap, List.map_map, Function.comp_def]
  have horigin : ∀ o, ∀ arm ∈ c.types.dispatchable.map (c.arm o),
      (arm.handler == c.handlerName op) = (c.handlerName o == c.handlerName op) := by
    intro o arm harm
    obtain ⟨type, -, rfl⟩ := List.mem_map.1 harm
    rfl
  change c.table.arms.filter (·.handler == c.handlerName op) = _
  rw [harms, filter_flatMap_of_forall horigin, filter_eq_singleton_of_nodup h.handlers_nodup hop,
    List.flatMap_singleton]

theorem map_pairing_callers (h : c.Valid) {op : Opcode} (hop : op ∈ c.opcodes.numeric) :
    (c.table.arms.filter (·.handler == (c.stub op).name)).map Arm.pairing =
      ((c.types.types.map (·.name)).filter (· ∉ c.types.exclusions)).map fun element =>
        { opcode := op.name, element } := by
  rw [h.filter_arms hop, ← map_name_dispatchable, List.map_map, List.map_map]
  rfl

end Valid

/-! ## The match -/

/-- Each arm calls one stub, and each stub is called by its opcode's arms, one for every type that is
not excluded; control opcodes have no stub. -/
theorem arms_match_stubs {decl : CatalogDecl} (hb : decl.build = .ok c) :
    ∃ t, c.emitTable = .ok t ∧
      (∀ arm ∈ t.arms, ∃ stub group, c.stubs.filter (·.name == arm.handler) = [stub] ∧
        c.opcodes.groups.filter (fun g => (g.opcodes.map (·.name)).contains arm.opcode) = [group] ∧
        stub.Serves arm group) ∧
      (∀ stub ∈ c.stubs, (t.arms.filter (·.handler == stub.name)).map Arm.pairing =
        ((decl.types.map (·.name)).filter (· ∉ decl.exclude)).map fun element =>
          { opcode := stub.opcode, element }) ∧
      ∀ stub ∈ c.stubs, ∀ control ∈ c.opcodes.controls, stub.opcode ≠ control.name := by
  obtain ⟨shaped, -, rfl, h⟩ := CatalogDecl.build_eq_ok_iff.1 hb
  refine ⟨_, h.emitTable_eq, ?_, ?_, ?_⟩
  · intro arm harm
    obtain ⟨op, hop, type, -, rfl⟩ := mem_table_arms.1 harm
    obtain ⟨group, hg, hm⟩ := List.mem_flatMap.1 hop
    exact ⟨_, group, h.filter_stubs hop, h.filter_groups hg hm, h.serves_arm hg hm type⟩
  · intro stub hstub
    obtain ⟨op, hop, rfl⟩ := List.mem_map.1 hstub
    rw [← TypeDecl.map_name_resolveAll decl.types]
    exact h.map_pairing_callers hop
  · intro stub hstub control hcontrol
    obtain ⟨op, hop, rfl⟩ := List.mem_map.1 hstub
    exact (h.opcodes.numeric_ne_control hop hcontrol).1

theorem arms_match_stubs_addMul :
    CatalogDecl.addMul.build = .ok addMul ∧
      addMul.stubs.map (·.name) = ["add", "mul"] ∧
      ∃ t, addMul.emitTable = .ok t ∧ ∀ stub ∈ addMul.stubs,
        (t.arms.filter (·.handler == stub.name)).map (fun arm => (arm.opcode, arm.element)) =
          [(stub.opcode, "INT32"), (stub.opcode, "FLOAT64")] := by
  obtain ⟨t, ht, -, hcallers, -⟩ := arms_match_stubs build_addMul
  refine ⟨build_addMul, by decide +kernel, t, ht, ?_⟩
  intro stub hstub
  have hpairs := congrArg (List.map fun p : Pairing => (p.opcode, p.element)) (hcallers stub hstub)
  rw [List.map_map, List.map_map] at hpairs
  have htypes : (CatalogDecl.addMul.types.map (·.name)).filter
      (· ∉ CatalogDecl.addMul.exclude) = ["INT32", "FLOAT64"] := by decide
  rw [htypes] at hpairs
  exact hpairs

end Catalog

end DispatchGen
