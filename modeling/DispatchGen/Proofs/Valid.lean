import DispatchGen.Proofs.Checks
import Mathlib.Data.List.Nodup

/-!
# What an accepted catalog promises

`Catalog.Valid` collects what the validators hold a catalog to, and each validator has an exact
specification: `TypeCatalog.ofTypes_eq_ok_iff`, `OpcodeCatalog.ofDecls_eq_ok_iff`,
`Catalog.ofParts_eq_ok_iff` and, for the whole, `CatalogDecl.build_eq_ok_iff`. Later stages assume
`Catalog.Valid` and never look at the checks again (`CatalogDecl.valid_of_build`).
-/

namespace DispatchGen

/-! ## Types -/

namespace TypeCatalog

structure Valid (c : TypeCatalog) : Prop where
  nonempty : c.types ≠ []
  names : ∀ type ∈ c.types, Text.isIdentifier type.name
  tokens : ∀ type ∈ c.types, Text.isTypeToken type.token
  names_nodup : (c.types.map (·.name)).Nodup
  ordinals_nodup : (c.types.map (·.ordinal)).Nodup
  exclusions_declared : ∀ name ∈ c.exclusions, name ∈ c.types.map (·.name)

theorem checkTypes_eq_ok_iff {types : List ElementType} :
    checkEach checkType [] types = .ok () ↔
      (∀ type ∈ types, Text.isIdentifier type.name ∧ Text.isTypeToken type.token) ∧
        (types.map (·.name)).Nodup ∧ (types.map (·.ordinal)).Nodup := by
  rw [checkEach_eq_ok_iff_pairwise checkType_eq_ok_iff, List.pairwise_and_iff, List.Nodup,
    List.Nodup, List.pairwise_map, List.pairwise_map]

theorem ofTypes_eq_ok_iff {types : List ElementType} {exclusions : List String}
    {c : TypeCatalog} : ofTypes types exclusions = .ok c ↔ c = { types, exclusions } ∧ c.Valid := by
  unfold ofTypes
  simp only [guard_eq_ok, check_bind_eq_ok, checkTypes_eq_ok_iff, checkEach_eq_ok_iff_forall,
    checkExclusion_eq_ok_iff, pure_eq_ok, List.isEmpty_iff]
  constructor
  · rintro ⟨hne, ⟨hids, hn, ho⟩, hex, rfl⟩
    exact ⟨rfl, hne, fun t ht => (hids t ht).1, fun t ht => (hids t ht).2, hn, ho, hex⟩
  · rintro ⟨rfl, h⟩
    exact ⟨h.nonempty, ⟨fun t ht => ⟨h.names t ht, h.tokens t ht⟩, h.names_nodup, h.ordinals_nodup⟩,
      h.exclusions_declared, rfl⟩

variable {c : TypeCatalog}

theorem mem_dispatchable {type : ElementType} :
    type ∈ c.dispatchable ↔ type ∈ c.types ∧ type.name ∉ c.exclusions := by
  simp [dispatchable, isExcluded]

theorem foldl_max_lt {types : List ElementType} {start bound : UInt32} :
    types.foldl (fun largest type => max largest type.ordinal) start < bound ↔
      start < bound ∧ ∀ type ∈ types, type.ordinal < bound := by
  induction types generalizing start with
  | nil => simp
  | cons t types ih =>
    have hmax : max start t.ordinal < bound ↔ start < bound ∧ t.ordinal < bound := by
      simp only [Max.max, UInt32.lt_iff_toNat_lt, UInt32.le_iff_toNat_le]
      split <;> omega
    rw [List.foldl_cons, ih, hmax]
    simp [and_assoc]

/-- The largest ordinal is below a bound when every ordinal is; there is at least one. -/
theorem maxOrdinal_lt_iff (hne : c.types ≠ []) {bound : UInt32} :
    c.maxOrdinal < bound ↔ ∀ type ∈ c.types, type.ordinal < bound := by
  rw [maxOrdinal, foldl_max_lt]
  refine ⟨fun h => h.2, fun h => ⟨?_, h⟩⟩
  obtain ⟨t, ht⟩ := List.exists_mem_of_ne_nil _ hne
  have := h t ht
  simp only [UInt32.lt_iff_toNat_lt, UInt32.toNat_zero] at this ⊢
  omega

end TypeCatalog

/-! ## Opcodes -/

theorem Arity.count_injective : Function.Injective fun a : Arity => (a.count : Int) := by
  rintro ⟨m, _, _⟩ ⟨n, _, _⟩ h
  simpa [Int.ofNat_inj] using h

/-- The arity groups behind the declared ones, before their opcodes have ordinals. -/
def Shaped (groups : List GroupDecl) (shaped : List (Arity × List OpcodeDecl)) : Prop :=
  groups.map (fun group => (group.arity.toInt, group.opcodes)) =
    shaped.map fun group => ((group.1.count : Int), group.2)

theorem shape_eq_ok_iff {groups : List GroupDecl} {shaped : List (Arity × List OpcodeDecl)} :
    (groups.mapM fun group => return (← group.requireArity, group.opcodes) :
      Except Fault (List (Arity × List OpcodeDecl))) = .ok shaped ↔ Shaped groups shaped := by
  induction groups generalizing shaped with
  | nil => cases shaped <;> simp [Shaped, pure_eq_ok]
  | cons g groups ih =>
    simp only [List.mapM_cons, bind_eq_ok, pure_eq_ok, GroupDecl.requireArity_eq_ok_iff, ih]
    constructor
    · rintro ⟨_, ⟨a, ha, rfl⟩, rest, hrest, rfl⟩
      simpa [Shaped, ha] using hrest
    · intro h
      match shaped, h with
      | [], h => simp [Shaped] at h
      | (a, decls) :: rest, h =>
        simp only [Shaped, List.map_cons, List.cons.injEq, Prod.mk.injEq] at h
        exact ⟨(a, decls), ⟨a, h.1.1.symm, by rw [h.1.2]⟩, rest, h.2, rfl⟩

namespace Shaped

variable {groups : List GroupDecl} {shaped : List (Arity × List OpcodeDecl)}
  (hs : Shaped groups shaped)
include hs

theorem arities : groups.map (·.arity.toInt) = shaped.map fun group => (group.1.count : Int) := by
  simpa [Function.comp_def] using congrArg (List.map Prod.fst) hs

theorem opcodes : groups.map (·.opcodes) = shaped.map Prod.snd := by
  simpa [Function.comp_def] using congrArg (List.map Prod.snd) hs

theorem supported : ∀ group ∈ groups, 1 ≤ group.arity.toInt ∧ group.arity.toInt ≤ maxArity := by
  intro g hg
  have hm : g.arity.toInt ∈ shaped.map fun group => (group.1.count : Int) :=
    hs.arities ▸ List.mem_map_of_mem hg
  obtain ⟨⟨a, _⟩, _, ha⟩ := List.mem_map.1 hm
  have h1 := a.one_le
  have h8 := a.le_max
  simp only at ha
  omega

theorem arities_nodup_iff : (groups.map (·.arity)).Nodup ↔ (shaped.map Prod.fst).Nodup := by
  have hint : Function.Injective Int64.toInt := fun _ _ => Int64.toInt_inj.1
  rw [← List.nodup_map_iff hint, ← List.nodup_map_iff Arity.count_injective, List.map_map,
    List.map_map]
  exact iff_of_eq (congrArg List.Nodup hs.arities)

theorem nonempty_iff :
    (∀ group ∈ groups, group.opcodes ≠ []) ↔ ∀ group ∈ shaped, group.2 ≠ [] := by
  have h : (∀ decls ∈ groups.map (·.opcodes), decls ≠ []) ↔
      ∀ decls ∈ shaped.map Prod.snd, decls ≠ [] := by rw [hs.opcodes]
  rwa [List.forall_mem_map, List.forall_mem_map] at h

end Shaped

theorem exists_shaped {groups : List GroupDecl}
    (h : ∀ group ∈ groups, 1 ≤ group.arity.toInt ∧ group.arity.toInt ≤ maxArity) :
    ∃ shaped, Shaped groups shaped := by
  induction groups with
  | nil => exact ⟨[], rfl⟩
  | cons g groups ih =>
    obtain ⟨shaped, hs⟩ := ih fun group hg => h group (List.mem_cons_of_mem _ hg)
    obtain ⟨a, ha⟩ := GroupDecl.exists_requireArity.2 (h g List.mem_cons_self)
    refine ⟨(a, g.opcodes) :: shaped, ?_⟩
    simpa [Shaped, GroupDecl.requireArity_eq_ok_iff.1 ha] using hs

/-! ## Numbering -/

theorem OpcodeDecl.kind_of_mem_number {kind : OpcodeKind} {start : Nat} {decls : List OpcodeDecl}
    {op : Opcode} (h : op ∈ number kind start decls) : op.kind = kind := by
  obtain ⟨_, _, rfl⟩ := List.mem_map.1 h
  rfl

theorem OpcodeDecl.map_name_number {kind : OpcodeKind} {start : Nat} {decls : List OpcodeDecl} :
    (number kind start decls).map (·.name) = decls.map (·.name) := by
  calc (number kind start decls).map (·.name)
      = ((decls.zipIdx start).map Prod.fst).map (·.name) := by
        simp only [number, List.map_map, Function.comp_def]
    _ = decls.map (·.name) := by rw [List.zipIdx_map_fst]

namespace OpcodeGroup

variable {start : Nat} {shaped : List (Arity × List OpcodeDecl)}

theorem map_arity_number : (number start shaped).map (·.arity) = shaped.map Prod.fst := by
  induction shaped generalizing start with
  | nil => rfl
  | cons group shaped ih => simp [number, ih]

theorem map_names_number :
    (number start shaped).map (fun group => group.opcodes.map (·.name)) =
      shaped.map fun group => group.2.map (·.name) := by
  induction shaped generalizing start with
  | nil => rfl
  | cons group shaped ih => simp [number, ih, OpcodeDecl.map_name_number]

theorem kind_of_mem_number {group : OpcodeGroup} {op : Opcode} (hg : group ∈ number start shaped)
    (hop : op ∈ group.opcodes) : op.kind = .numeric group.arity := by
  induction shaped generalizing start with
  | nil => simp [number] at hg
  | cons _ shaped ih =>
    rcases List.mem_cons.1 hg with rfl | hg
    · exact OpcodeDecl.kind_of_mem_number hop
    · exact ih hg

theorem nonempty_number_iff :
    (∀ group ∈ number start shaped, group.opcodes ≠ []) ↔ ∀ group ∈ shaped, group.2 ≠ [] := by
  induction shaped generalizing start with
  | nil => simp [number]
  | cons group shaped ih => simp [number, ih, OpcodeDecl.number]

end OpcodeGroup

namespace OpcodeCatalog

/-- The catalog of shaped groups and control declarations: controls are numbered first. -/
def numbered (controls : List OpcodeDecl) (shaped : List (Arity × List OpcodeDecl)) :
    OpcodeCatalog where
  groups := OpcodeGroup.number controls.length shaped
  controls := OpcodeDecl.number .control 0 controls

theorem numbered_groups (controls : List OpcodeDecl) (shaped : List (Arity × List OpcodeDecl)) :
    (numbered controls shaped).groups = OpcodeGroup.number controls.length shaped :=
  rfl

structure Valid (c : OpcodeCatalog) : Prop where
  arities_nodup : (c.groups.map (·.arity)).Nodup
  groups_nonempty : ∀ group ∈ c.groups, group.opcodes ≠ []
  numeric_kind : ∀ group ∈ c.groups, ∀ op ∈ group.opcodes, op.kind = .numeric group.arity
  control_kind : ∀ op ∈ c.controls, op.kind = .control
  names : ∀ op ∈ c.all, Text.isIdentifier op.name
  names_nodup : (c.all.map (·.name)).Nodup
  ordinals_nodup : (c.all.map (·.ordinal)).Nodup

theorem checkNames_eq_ok_iff {ops : List Opcode} :
    checkEach checkName [] ops = .ok () ↔
      (∀ op ∈ ops, Text.isIdentifier op.name) ∧ (ops.map (·.name)).Nodup := by
  rw [checkEach_eq_ok_iff_pairwise checkName_eq_ok_iff, List.Nodup, List.pairwise_map]

theorem checkOrdinals_eq_ok_iff {ops : List Opcode} :
    checkEach checkOrdinal [] ops = .ok () ↔ (ops.map (·.ordinal)).Nodup := by
  rw [checkEach_eq_ok_iff_pairwise_of checkOrdinal_eq_ok_iff, List.Nodup, List.pairwise_map]

theorem checkShapes_eq_ok_iff {groups : List GroupDecl} :
    checkEach GroupDecl.checkShape [] groups = .ok () ↔
      (∀ group ∈ groups, (1 ≤ group.arity.toInt ∧ group.arity.toInt ≤ maxArity) ∧
        group.opcodes ≠ []) ∧ (groups.map (·.arity)).Nodup := by
  rw [checkEach_eq_ok_iff_pairwise GroupDecl.checkShape_eq_ok_iff, List.Nodup, List.pairwise_map]

theorem ofDecls_eq_ok_iff {groups : List GroupDecl} {controls : List OpcodeDecl}
    {c : OpcodeCatalog} :
    ofDecls groups controls = .ok c ↔
      ∃ shaped, Shaped groups shaped ∧ c = numbered controls shaped ∧ c.Valid := by
  unfold ofDecls
  simp only [check_bind_eq_ok]
  rw [bind_eq_ok]
  simp only [check_bind_eq_ok, checkShapes_eq_ok_iff, shape_eq_ok_iff, checkNames_eq_ok_iff,
    checkOrdinals_eq_ok_iff, pure_eq_ok]
  constructor
  · rintro ⟨⟨hshape, harity⟩, shaped, hs, ⟨hids, hnames⟩, hords, rfl⟩
    refine ⟨shaped, hs, rfl, ?_, ?_, ?_, ?_, hids, hnames, hords⟩
    · simp only [OpcodeGroup.map_arity_number]
      exact hs.arities_nodup_iff.1 harity
    · exact OpcodeGroup.nonempty_number_iff.2 (hs.nonempty_iff.1 fun g hg => (hshape g hg).2)
    · exact fun g hg op hop => OpcodeGroup.kind_of_mem_number hg hop
    · exact fun op hop => OpcodeDecl.kind_of_mem_number hop
  · rintro ⟨shaped, hs, rfl, h⟩
    have hne := hs.nonempty_iff.2 (OpcodeGroup.nonempty_number_iff.1 h.groups_nonempty)
    have harity := h.arities_nodup
    rw [numbered_groups, OpcodeGroup.map_arity_number] at harity
    exact ⟨⟨fun g hg => ⟨hs.supported g hg, hne g hg⟩, hs.arities_nodup_iff.2 harity⟩, shaped, hs,
      ⟨h.names, h.names_nodup⟩, h.ordinals_nodup, rfl⟩

theorem Valid.numeric_ne_control {c : OpcodeCatalog} (h : c.Valid) {op control : Opcode}
    (hop : op ∈ c.numeric) (hc : control ∈ c.controls) :
    op.name ≠ control.name ∧ op.ordinal ≠ control.ordinal := by
  have hn := h.names_nodup
  have ho := h.ordinals_nodup
  rw [all, List.map_append, List.nodup_append] at hn ho
  exact ⟨(hn.2.2 _ (List.mem_map_of_mem hc) _ (List.mem_map_of_mem hop)).symm,
    (ho.2.2 _ (List.mem_map_of_mem hc) _ (List.mem_map_of_mem hop)).symm⟩

end OpcodeCatalog

/-! ## Catalogs -/

theorem KeyScheme.forTypes_eq_ok_iff {base : UInt32} {types : TypeCatalog} {scheme : KeyScheme} :
    forTypes base types = .ok scheme ↔ types.maxOrdinal < base ∧ { base } = scheme := by
  rw [forTypes]
  split <;> simp [*]

namespace Catalog

structure Valid (c : Catalog) : Prop where
  types : c.types.Valid
  opcodes : c.opcodes.Valid
  ordinal_lt_base : ∀ type ∈ c.types.types, type.ordinal < c.scheme.base
  handlers : ∀ op ∈ c.opcodes.numeric, Text.isIdentifier (c.handlerName op)
  handlers_nodup : (c.opcodes.numeric.map c.handlerName).Nodup
  dispatchable_ne_nil : c.types.dispatchable ≠ []
  numeric_ne_nil : c.opcodes.numeric ≠ []

theorem forTypes_eq_ok_iff {types : TypeCatalog} (ht : types.Valid) {base : UInt32}
    {scheme : KeyScheme} :
    KeyScheme.forTypes base types = .ok scheme ↔
      (∀ type ∈ types.types, type.ordinal < base) ∧ { base } = scheme := by
  rw [KeyScheme.forTypes_eq_ok_iff, TypeCatalog.maxOrdinal_lt_iff ht.nonempty]

theorem ofParts_eq_ok_iff {name : String} {types : TypeCatalog} {opcodes : OpcodeCatalog}
    {base : UInt32} {naming : Naming} {c : Catalog} (ht : types.Valid) (ho : opcodes.Valid) :
    ofParts name types opcodes base naming = .ok c ↔
      c = { name, types, opcodes, scheme := { base }, naming } ∧ c.Valid := by
  unfold ofParts
  rw [bind_eq_ok]
  simp only [check_bind_eq_ok, guard_eq_ok, forTypes_eq_ok_iff ht, pure_eq_ok,
    checkEach_eq_ok_iff_pairwise (checkHandler_eq_ok_iff naming), Bool.or_eq_true,
    List.isEmpty_iff, not_or]
  constructor
  · rintro ⟨_, ⟨hbase, rfl⟩, ⟨hids, hnodup⟩, ⟨hd, hn⟩, rfl⟩
    exact ⟨rfl, ht, ho, hbase, hids, List.pairwise_map.2 hnodup, hd, hn⟩
  · rintro ⟨rfl, h⟩
    exact ⟨_, ⟨h.ordinal_lt_base, rfl⟩, ⟨h.handlers, List.pairwise_map.1 h.handlers_nodup⟩,
      ⟨h.dispatchable_ne_nil, h.numeric_ne_nil⟩, rfl⟩

end Catalog

/-- The catalog of a declaration whose groups are shaped as given. -/
def CatalogDecl.resolved (decl : CatalogDecl) (shaped : List (Arity × List OpcodeDecl)) :
    Catalog where
  name := decl.name
  types := { types := TypeDecl.resolveAll decl.types, exclusions := decl.exclude }
  opcodes := OpcodeCatalog.numbered decl.control shaped
  scheme := { base := decl.base }
  naming := decl.naming

theorem CatalogDecl.build_eq_ok_iff {decl : CatalogDecl} {c : Catalog} :
    decl.build = .ok c ↔
      ∃ shaped, Shaped decl.groups shaped ∧ c = decl.resolved shaped ∧ c.Valid := by
  unfold build
  simp only [bind_eq_ok, TypeCatalog.ofTypes_eq_ok_iff, OpcodeCatalog.ofDecls_eq_ok_iff]
  constructor
  · rintro ⟨_, ⟨rfl, ht⟩, _, ⟨shaped, hs, rfl, ho⟩, h⟩
    obtain ⟨rfl, hc⟩ := (Catalog.ofParts_eq_ok_iff ht ho).1 h
    exact ⟨shaped, hs, rfl, hc⟩
  · rintro ⟨shaped, hs, rfl, hc⟩
    exact ⟨_, ⟨rfl, hc.types⟩, _, ⟨shaped, hs, rfl, hc.opcodes⟩,
      (Catalog.ofParts_eq_ok_iff hc.types hc.opcodes).2 ⟨rfl, hc⟩⟩

theorem CatalogDecl.valid_of_build {decl : CatalogDecl} {c : Catalog} (h : decl.build = .ok c) :
    c.Valid := by
  obtain ⟨_, _, _, hc⟩ := build_eq_ok_iff.1 h
  exact hc

end DispatchGen
