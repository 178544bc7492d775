import DispatchGen.Proofs.Acceptance
import DispatchGen.Proofs.Draining
import DispatchGen.Source.Artifact

/-!
# Emission

`Catalog.emitTable_exhaustive`: the table of an accepted catalog has one arm for every numeric opcode
and every type that is not excluded, in declaration order, under distinct keys, and nothing else.
Its own verification cannot turn it down (`Catalog.emitTable_eq`), by the exact specification of
`Table.verify` (`Table.verify_eq_ok_iff`) and the distinct keys of the pairs.
-/

namespace DispatchGen

/-! ## Verification -/

namespace Table

theorem verify_eq_ok_iff {t : Table} {c : Catalog}
    (h : (c.pairs.map fun (op, type) => c.key op type).Nodup) :
    t.verify c = .ok () ↔
      (t.arms.map (·.key)).Nodup ∧
        (∀ pair ∈ c.pairs, (t.lookup? (c.key pair.1 pair.2)).map Arm.pairing =
          some { opcode := pair.1.name, element := pair.2.name }) ∧
        ∀ arm ∈ t.arms, arm.key ∈ c.pairs.map fun (op, type) => c.key op type := by
  rw [verify_eq_scan t h, scan]
  simp only [check_bind_eq_ok, checkKeys_eq_ok_iff, checkEach_eq_ok_iff_forall]
  simp [checkPair, checkOrigin]

end Table

/-! ## The catalog's own table -/

namespace Catalog

variable {c : Catalog}

theorem map_key_table :
    c.table.arms.map (·.key) = c.pairs.map fun (op, type) => c.key op type := by
  simp only [table, List.map_map, Function.comp_def]
  rfl

theorem arm_mem_table {op : Opcode} {type : ElementType} (h : (op, type) ∈ c.pairs) :
    c.arm op type ∈ c.table.arms :=
  List.mem_map.2 ⟨_, h, rfl⟩

namespace Valid

theorem table_keys_nodup (h : c.Valid) : (c.table.arms.map (·.key)).Nodup := by
  rw [map_key_table]
  exact h.keys_nodup

/-- Every arm is found under its key. -/
theorem lookup_table (h : c.Valid) {arm : Arm} (ha : arm ∈ c.table.arms) :
    c.table.lookup? arm.key = some arm :=
  (find?_eq_some_iff_of_nodup h.table_keys_nodup).2 ⟨ha, rfl⟩

theorem verify_table (h : c.Valid) : c.table.verify c = .ok () := by
  refine (Table.verify_eq_ok_iff h.keys_nodup).2
    ⟨h.table_keys_nodup, fun (op, type) hp => ?_, fun arm ha => ?_⟩
  · have hl : c.table.lookup? (c.key op type) = some (c.arm op type) :=
      h.lookup_table (arm_mem_table hp)
    rw [hl]
    rfl
  · rw [← map_key_table]
    exact List.mem_map_of_mem ha

theorem pairs_ne_nil (h : c.Valid) : c.pairs ≠ [] := by
  obtain ⟨op, hop⟩ := List.exists_mem_of_ne_nil _ h.numeric_ne_nil
  obtain ⟨type, ht⟩ := List.exists_mem_of_ne_nil _ h.dispatchable_ne_nil
  exact List.ne_nil_of_mem (mem_pairs.2 ⟨hop, ht⟩)

/-- A valid catalog emits its table. -/
theorem emitTable_eq (h : c.Valid) : c.emitTable = .ok c.table := by
  have hne : c.table.arms.isEmpty = false := by simpa [table] using h.pairs_ne_nil
  rw [emitTable, hne, h.verify_table]
  rfl

theorem generate_eq (h : c.Valid) {o : Options} (ho : o.validate = .ok ()) (parts : Parts) :
    c.generate o parts = .ok (render c.table c.stubs o parts) := by
  rw [generate, ho, h.emitTable_eq]
  rfl

end Valid

/-! ## The arms in declaration order -/

/-- The arm of an opcode of `group` with a type. -/
def armIn (c : Catalog) (group : OpcodeGroup) (op : Opcode) (type : ElementType) : Arm where
  key := UInt64.ofNat (op.ordinal.toNat * c.scheme.base.toNat + type.ordinal.toNat)
  opcode := op.name
  opcodeOrdinal := op.ordinal
  element := type.name
  elementOrdinal := type.ordinal
  token := type.token
  arity := group.arity.count
  handler := c.naming.handlerName op.name

/-- One arm per opcode of a group and type that is not excluded: groups, then the opcodes of a group,
then types. -/
def armsInOrder (c : Catalog) : List Arm :=
  c.opcodes.groups.flatMap fun group => group.opcodes.flatMap fun op =>
    (c.types.types.filter fun type => type.name ∉ c.types.exclusions).map fun type =>
      c.armIn group op type

theorem dispatchable_eq_filter :
    c.types.dispatchable = c.types.types.filter fun type => type.name ∉ c.types.exclusions := by
  simp [TypeCatalog.dispatchable, TypeCatalog.isExcluded]

theorem toNat_key (c : Catalog) (op : Opcode) (type : ElementType) :
    (c.key op type).toNat = op.ordinal.toNat * c.scheme.base.toNat + type.ordinal.toNat :=
  KeyScheme.toNat_derive ..

theorem arm_eq_armIn {group : OpcodeGroup} {op : Opcode} (hk : op.kind = .numeric group.arity)
    (type : ElementType) : c.arm op type = c.armIn group op type := by
  rw [arm, armIn, ← toNat_key, UInt64.ofNat_toNat, Opcode.arity?, hk]
  rfl

theorem Valid.table_arms (h : c.Valid) : c.table.arms = c.armsInOrder := by
  have hgroup : ∀ group ∈ c.opcodes.groups, (group.opcodes.flatMap fun op =>
      c.types.dispatchable.map fun type => c.arm op type) =
      group.opcodes.flatMap fun op => c.types.dispatchable.map fun type => c.armIn group op type :=
    fun group hg => List.flatMap_congr fun op hop => List.map_congr_left fun type _ =>
      arm_eq_armIn (h.opcodes.numeric_kind group hg op hop) type
  rw [armsInOrder, ← dispatchable_eq_filter, ← List.flatMap_congr hgroup]
  simp [table, pairs, OpcodeCatalog.numeric, List.map_flatMap, List.flatMap_assoc,
    Function.comp_def]

/-- Every arm names a numeric opcode and a type that is not excluded. -/
theorem mem_table_arms {arm : Arm} :
    arm ∈ c.table.arms ↔
      ∃ op ∈ c.opcodes.numeric, ∃ type ∈ c.types.dispatchable, c.arm op type = arm := by
  simp only [table, List.mem_map, Prod.exists, mem_pairs]
  constructor
  · rintro ⟨op, type, ⟨hop, ht⟩, rfl⟩
    exact ⟨op, hop, type, ht, rfl⟩
  · rintro ⟨op, hop, type, ht, rfl⟩
    exact ⟨op, type, ⟨hop, ht⟩, rfl⟩

end Catalog

/-- Every opcode name, group by group, with every element name. -/
def pairings (groups : List (List String)) (elements : List String) : List Pairing :=
  groups.flatMap fun opcodes => opcodes.flatMap fun opcode =>
    elements.map fun element => { opcode, element }

/-- The pairs of a declaration by name, in declaration order. -/
def CatalogDecl.pairingsInOrder (decl : CatalogDecl) : List Pairing :=
  pairings (decl.groups.map fun group => group.opcodes.map (·.name))
    ((decl.types.map (·.name)).filter (· ∉ decl.exclude))

theorem Catalog.map_pairing_armsInOrder {c : Catalog} :
    c.armsInOrder.map Arm.pairing =
      pairings (c.opcodes.groups.map fun group => group.opcodes.map (·.name))
        ((c.types.types.map (·.name)).filter (· ∉ c.types.exclusions)) := by
  simp only [armsInOrder, pairings, List.map_flatMap, List.map_map, List.flatMap_map,
    List.filter_map, Function.comp_def]
  rfl

/-- Resolving a declaration keeps the order of its pairs. -/
theorem CatalogDecl.pairings_resolved {decl : CatalogDecl}
    {shaped : List (Arity × List OpcodeDecl)} (hs : Shaped decl.groups shaped) :
    (decl.resolved shaped).armsInOrder.map Arm.pairing = decl.pairingsInOrder := by
  have htypes : (decl.resolved shaped).types.types.map (·.name) = decl.types.map (·.name) :=
    TypeDecl.map_name_resolveAll _
  have hgroups : (decl.resolved shaped).opcodes.groups.map (fun g => g.opcodes.map (·.name)) =
      decl.groups.map fun g => g.opcodes.map (·.name) := by
    calc (decl.resolved shaped).opcodes.groups.map (fun g => g.opcodes.map (·.name))
        = (shaped.map Prod.snd).map (List.map (·.name)) := by
          rw [List.map_map]
          exact OpcodeGroup.map_names_number
      _ = decl.groups.map fun g => g.opcodes.map (·.name) := by
          rw [← hs.opcodes, List.map_map]
          rfl
  rw [Catalog.map_pairing_armsInOrder, htypes, hgroups]
  rfl

theorem Catalog.emitTable_exhaustive {decl : CatalogDecl} {c : Catalog} (h : decl.build = .ok c) :
    ∃ t, c.emitTable = .ok t ∧ t.arms = c.armsInOrder ∧
      t.arms.map Arm.pairing = decl.pairingsInOrder ∧
      (∀ arm ∈ t.arms, arm.key.toNat =
        arm.opcodeOrdinal.toNat * c.scheme.base.toNat + arm.elementOrdinal.toNat) ∧
      (t.arms.map (·.key)).Nodup ∧ t.arms.length = c.pairCount ∧
      (∀ arm ∈ t.arms, arm.element ∉ decl.exclude ∧ ∀ control ∈ c.opcodes.controls,
        arm.opcode ≠ control.name ∧ arm.opcodeOrdinal ≠ control.ordinal) ∧
      ∀ group ∈ c.opcodes.groups, ∀ op ∈ group.opcodes, ∀ type ∈ c.types.types,
        type.name ∉ decl.exclude → t.lookup? (c.key op type) = some (c.armIn group op type) := by
  obtain ⟨shaped, hs, rfl, hc⟩ := CatalogDecl.build_eq_ok_iff.1 h
  refine ⟨_, hc.emitTable_eq, hc.table_arms, ?_, ?_, hc.table_keys_nodup, ?_, ?_, ?_⟩
  · rw [hc.table_arms, CatalogDecl.pairings_resolved hs]
  · intro arm ha
    obtain ⟨op, _, type, _, rfl⟩ := mem_table_arms.1 ha
    exact toNat_key ..
  · rw [← length_pairs, table, List.length_map]
  · intro arm ha
    obtain ⟨op, hop, type, ht, rfl⟩ := mem_table_arms.1 ha
    exact ⟨(TypeCatalog.mem_dispatchable.1 ht).2, fun _ => hc.opcodes.numeric_ne_control hop⟩
  · intro group hg op hop type ht hx
    have hp : (op, type) ∈ (decl.resolved shaped).pairs :=
      mem_pairs.2 ⟨List.mem_flatMap.2 ⟨group, hg, hop⟩, TypeCatalog.mem_dispatchable.2 ⟨ht, hx⟩⟩
    rw [← arm_eq_armIn (hc.opcodes.numeric_kind group hg op hop)]
    exact hc.lookup_table (arm_mem_table hp)

theorem Catalog.emitTable_exhaustive_mixed :
    ∃ c, CatalogDecl.mixed.build = .ok c ∧ ∃ t, c.emitTable = .ok t ∧
      t.arms.map (fun arm => (arm.opcode, arm.element)) =
        [("VE_NEG", "INT32"), ("VE_NEG", "FLOAT64"), ("ADD", "INT32"), ("ADD", "FLOAT64"),
          ("MUL", "INT32"), ("MUL", "FLOAT64")] ∧ (t.arms.map (·.key)).Nodup := by
  obtain ⟨c, hc⟩ := exists_eq_ok (x := CatalogDecl.mixed.build) (by decide +kernel)
  obtain ⟨t, ht, -, hp, -, hk, -⟩ := Catalog.emitTable_exhaustive hc
  refine ⟨c, hc, t, ht, ?_, hk⟩
  have hnames := congrArg (List.map fun p : Pairing => (p.opcode, p.element)) hp
  rw [List.map_map] at hnames
  exact hnames.trans (by decide)

end DispatchGen
