import DispatchGen.Proofs.ArmsAndStubs
import DispatchGen.Proofs.Growth
import Mathlib.Data.List.Perm.Subperm

/-!
# The partition of the opcodes

An accepted opcode catalog is its declaration, resolved: the control set and the groups hold the
declared names in their order, and the `n`-th opcode of all has the ordinal it asks for or else the
ordinal `n` (`OpcodeCatalog.getElem?_all_numbered`), whatever the opcodes before it ask for. Ordinals
and names occur once, hence a lookup finds the one opcode there is. Every opcode is filed once: as a
control opcode, or in one group, whose arity it has (`OpcodeCatalog.Filed`).
`OpcodeCatalog.ofDecls_partitions` says all this of every catalog that `OpcodeCatalog.ofDecls` returns.
-/

namespace DispatchGen

/-- What an opcode is, by the place of its declaration. -/
def Place.kind : Place → OpcodeKind
  | controlSet => .control
  | group arity => .numeric arity

/-- The ordinal of a declaration that stands at a position. -/
def OpcodeDecl.ordinalAt (decl : OpcodeDecl) (position : Nat) : UInt32 :=
  decl.ordinal.getD (UInt32.ofNat position)

namespace OpcodeCatalog

/-- Where an opcode of the catalog is kept: by its kind, by the control set and by the groups alike. -/
structure Filed (c : OpcodeCatalog) (op : Opcode) : Prop where
  isControl_iff : c.isControl op = true ↔ op ∈ c.controls
  kind_iff : op.isControl = true ↔ op ∈ c.controls
  control : op ∈ c.controls →
    op.arity? = none ∧ c.groups.filter (fun group => group.opcodes.contains op) = []
  numeric : op ∉ c.controls → ∃ group, op.arity? = some group.arity ∧
    c.groups.filter (fun g => g.opcodes.contains op) = [group]

/-! ## Numbering -/

/-- Resolved groups have the arities and the names of the declared ones. -/
theorem map_groups_numbered {groups : List GroupDecl} {controls : List OpcodeDecl}
    {shaped : List (Arity × List OpcodeDecl)} (hs : Shaped groups shaped) :
    (numbered controls shaped).groups.map
        (fun group => ((group.arity.count : Int), group.opcodes.map (·.name))) =
      groups.map fun group => (group.arity.toInt, group.opcodes.map (·.name)) := by
  have hnames : ∀ start, (OpcodeGroup.number start shaped).map
      (fun group => ((group.arity.count : Int), group.opcodes.map (·.name))) =
        shaped.map fun group => ((group.1.count : Int), group.2.map (·.name)) := by
    clear hs
    induction shaped with
    | nil => exact fun _ => rfl
    | cons group shaped ih =>
      intro start
      rw [OpcodeGroup.number, List.map_cons, ih, OpcodeDecl.map_name_number, List.map_cons]
  have hshaped := congrArg (List.map (Prod.map id (List.map fun op : OpcodeDecl => op.name))) hs
  rw [List.map_map, List.map_map] at hshaped
  exact (hnames _).trans hshaped.symm

/-- Every declaration with its place, controls first. -/
def declared (controls : List OpcodeDecl) (shaped : List (Arity × List OpcodeDecl)) :
    List (Place × OpcodeDecl) :=
  controls.map (Prod.mk .controlSet) ++ (spread shaped).map (Prod.map .group id)

section
variable {controls : List OpcodeDecl} {shaped : List (Arity × List OpcodeDecl)}

theorem map_snd_declared :
    (declared controls shaped).map Prod.snd = controls ++ shaped.flatMap Prod.snd := by
  have hspread : (spread shaped).map Prod.snd = shaped.flatMap Prod.snd := by
    simp [spread, List.map_flatMap, Function.comp_def]
  rw [declared, List.map_append, List.map_map, List.map_map, ← hspread]
  simp [Function.comp_def]

/-- Positions are counted over all declarations. -/
theorem all_numbered : (numbered controls shaped).all =
    (declared controls shaped).zipIdx.map fun ((place, decl), position) =>
      { name := decl.name, ordinal := decl.ordinalAt position, kind := place.kind } := by
  have hnumeric : (numbered controls shaped).numeric =
      ((spread shaped).zipIdx controls.length).map OpcodeDecl.numbered :=
    OpcodeGroup.flatMap_opcodes_number ..
  rw [all, hnumeric, declared, List.zipIdx_append, List.map_append, List.zipIdx_map,
    List.zipIdx_map, List.map_map, List.map_map, List.length_map, Nat.zero_add]
  rfl

theorem getElem?_all_numbered (n : Nat) : (numbered controls shaped).all[n]? =
    (declared controls shaped)[n]?.map fun (place, decl) =>
      { name := decl.name, ordinal := decl.ordinalAt n, kind := place.kind } := by
  rw [all_numbered, List.getElem?_map, List.getElem?_zipIdx, Option.map_map, Nat.zero_add]
  rfl

end

namespace Valid

variable {c : OpcodeCatalog} (h : c.Valid)
include h

/-- There are no more opcodes than ordinals. -/
theorem length_all_le : c.all.length ≤ 2 ^ 32 := by
  have hnat : Function.Injective UInt32.toNat := fun _ _ => UInt32.toNat_inj.1
  have hnodup : ((c.all.map (·.ordinal)).map UInt32.toNat).Nodup := h.ordinals_nodup.map hnat
  have hsub : (c.all.map (·.ordinal)).map UInt32.toNat ⊆ List.range (2 ^ 32) := by
    intro n hm
    obtain ⟨ordinal, -, rfl⟩ := List.mem_map.1 hm
    exact List.mem_range.2 ordinal.toNat_lt
  have hlength := (List.subperm_of_subset hnodup hsub).length_le
  rwa [List.length_map, List.length_map, List.length_range] at hlength

/-! ## Filing -/

theorem not_mem_controls {op : Opcode} (hop : op ∈ c.numeric) : op ∉ c.controls := fun hc =>
  (h.numeric_ne_control hop hc).1 rfl

theorem isControl_iff {op : Opcode} (hop : op ∈ c.all) :
    c.isControl op = true ↔ op ∈ c.controls := by
  simp only [isControl, List.any_eq_true, beq_iff_eq]
  constructor
  · rintro ⟨control, hc, hname⟩
    have hall : control ∈ c.all := List.mem_append_left _ hc
    rwa [← List.inj_on_of_nodup_map h.names_nodup hall hop hname]
  · exact fun hc => ⟨op, hc, rfl⟩

theorem kind_control {op : Opcode} (hc : op ∈ c.controls) :
    op.isControl = true ∧ op.arity? = none := by
  rw [Opcode.isControl, Opcode.arity?, h.control_kind op hc]
  exact ⟨rfl, rfl⟩

theorem kind_numeric {group : OpcodeGroup} (hg : group ∈ c.groups) {op : Opcode}
    (hop : op ∈ group.opcodes) : op.isControl = false ∧ op.arity? = some group.arity := by
  rw [Opcode.isControl, Opcode.arity?, h.numeric_kind group hg op hop]
  exact ⟨rfl, rfl⟩

theorem numeric_nodup : c.numeric.Nodup :=
  (h.names_nodup.sublist ((List.sublist_append_right ..).map _)).of_map

/-- No opcode is kept twice. -/
theorem filed {op : Opcode} (hop : op ∈ c.all) : c.Filed op := by
  by_cases hc : op ∈ c.controls
  · have hkind := h.kind_control hc
    refine ⟨h.isControl_iff hop, iff_of_true hkind.1 hc, fun _ => ⟨hkind.2, ?_⟩,
      fun hn => absurd hc hn⟩
    refine List.filter_eq_nil_iff.2 fun group hg hm => ?_
    have hnumeric : op ∈ c.numeric := List.mem_flatMap.2 ⟨group, hg, List.contains_iff_mem.1 hm⟩
    exact h.not_mem_controls hnumeric hc
  · obtain ⟨group, hg, hm⟩ := List.mem_flatMap.1 ((List.mem_append.1 hop).resolve_left hc)
    have hkind := h.kind_numeric hg hm
    refine ⟨h.isControl_iff hop, iff_of_false (by simp [hkind.1]) hc, fun hn => absurd hn hc,
      fun _ => ⟨group, hkind.2, ?_⟩⟩
    exact filter_contains_eq_singleton h.numeric_nodup hg hm

end Valid

/-! ## The partition -/

/-- An accepted catalog keeps every declaration where it was declared and numbers all in one row;
names and ordinals lead to the one opcode that has them. -/
theorem ofDecls_partitions {groups : List GroupDecl} {controls : List OpcodeDecl}
    {c : OpcodeCatalog} (h : ofDecls groups controls = .ok c) :
    c.controls.map (·.name) = controls.map (·.name) ∧
      c.groups.map (fun group => ((group.arity.count : Int), group.opcodes.map (·.name))) =
        groups.map (fun group => (group.arity.toInt, group.opcodes.map (·.name))) ∧
      c.all.length = (controls ++ groups.flatMap (·.opcodes)).length ∧
      (∀ (n : Nat) (decl : OpcodeDecl), (controls ++ groups.flatMap (·.opcodes))[n]? = some decl →
        ∃ op, c.all[n]? = some op ∧ op.name = decl.name ∧
          op.ordinal.toNat = (decl.ordinal.map UInt32.toNat).getD n) ∧
      (∀ ordinal op, c.byOrdinal? ordinal = some op ↔ op ∈ c.all ∧ op.ordinal = ordinal) ∧
      (∀ ordinal, c.byOrdinal? ordinal = none ↔ ordinal ∉ c.all.map (·.ordinal)) ∧
      (∀ name op, c.get? name = some op ↔ op ∈ c.all ∧ op.name = name) ∧
      (∀ name, c.get? name = none ↔ name ∉ c.all.map (·.name)) ∧
      ∀ op ∈ c.all, c.Filed op := by
  obtain ⟨shaped, hs, rfl, hc⟩ := ofDecls_eq_ok_iff.1 h
  have hdecls : groups.flatMap (·.opcodes) = shaped.flatMap Prod.snd := by
    rw [List.flatMap, hs.opcodes, List.flatMap]
  have hlength : (numbered controls shaped).all.length =
      (controls ++ groups.flatMap (·.opcodes)).length := by
    rw [all_numbered, List.length_map, List.length_zipIdx, hdecls, ← map_snd_declared,
      List.length_map]
  refine ⟨OpcodeDecl.map_name_number, ?_, hlength, ?_,
    fun ordinal op => find?_eq_some_iff_of_nodup hc.ordinals_nodup, fun ordinal => ?_,
    fun name op => find?_eq_some_iff_of_nodup hc.names_nodup, fun name => ?_,
    fun op hop => hc.filed hop⟩
  · exact map_groups_numbered hs
  · intro n decl hn
    have hlt : n < 2 ^ 32 := by
      have := (List.getElem?_eq_some_iff.1 hn).1
      have := hc.length_all_le
      omega
    rw [hdecls, ← map_snd_declared, List.getElem?_map, Option.map_eq_some_iff] at hn
    obtain ⟨⟨place, decl⟩, hn, rfl⟩ := hn
    refine ⟨_, by rw [getElem?_all_numbered, hn, Option.map_some], rfl, toNat_resolve hlt⟩
  · simp [byOrdinal?]
  · simp [get?]

/-- Explicit ordinals take up their positions: behind `NONE = 9` and `ADD = 0`, the second and the
fifth opcode still have the ordinals 1 and 4. -/
theorem ofDecls_partitions_mixed :
    let groups : List GroupDecl :=
      [⟨1, [{ name := "NEG" }]⟩, ⟨2, [{ name := "ADD", ordinal := some 0 }, { name := "MUL" }]⟩]
    let controls : List OpcodeDecl := [{ name := "NONE", ordinal := some 9 }, { name := "SYNC" }]
    ∃ c, ofDecls groups controls = .ok c ∧
      c.groups.map (fun group => ((group.arity.count : Int), group.opcodes.map (·.name))) =
        [(1, ["NEG"]), (2, ["ADD", "MUL"])] ∧
      (∃ sync, c.all[1]? = some sync ∧ sync.name = "SYNC" ∧ sync.ordinal.toNat = 1) ∧
      (∃ mul, c.all[4]? = some mul ∧ mul.name = "MUL" ∧ mul.ordinal.toNat = 4 ∧
        c.byOrdinal? 4 = some mul ∧ c.get? "MUL" = some mul ∧ c.Filed mul) := by
  intro groups controls
  obtain ⟨c, hc⟩ := exists_eq_ok (x := ofDecls groups controls) (by decide +kernel)
  obtain ⟨-, hgroups, -, hall, hordinal, -, hname, -, hfiled⟩ := ofDecls_partitions hc
  obtain ⟨sync, hsync, hsyncName, hsyncOrdinal⟩ := hall 1 { name := "SYNC" } rfl
  obtain ⟨mul, hmul, hmulName, hmulOrdinal⟩ := hall 4 { name := "MUL" } rfl
  have hmem : mul ∈ c.all := List.mem_of_getElem? hmul
  have hfour : mul.ordinal = 4 := UInt32.toNat_inj.1 hmulOrdinal
  exact ⟨c, hc, hgroups, ⟨sync, hsync, hsyncName, hsyncOrdinal⟩, mul, hmul, hmulName, hmulOrdinal,
    (hordinal 4 mul).2 ⟨hmem, hfour⟩, (hname "MUL" mul).2 ⟨hmem, hmulName⟩, hfiled mul hmem⟩

end OpcodeCatalog

end DispatchGen
