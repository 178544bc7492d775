import DispatchGen.Proofs.KeySpace
import Mathlib.Data.Multiset.Bind

/-!
# The order of declarations

With explicit ordinals nothing depends on where a type or an opcode is declared. Declarations that
differ in order alone (`CatalogDecl.Reorders`) are accepted together, and their dispatchers run every
batch alike, call by call (`CatalogDecl.order_irrelevant`). Resolving them gives catalogs that differ
in order alone (`Catalog.Reorders`), and such catalogs have the same pairs. A dispatcher asks for
pairs, control opcodes and names by ordinals and keys that occur once, so it finds the same whatever
the order is.
-/

namespace DispatchGen

/-! ## Declarations -/

/-- A group, without the order of its opcodes. -/
def GroupDecl.unordered (group : GroupDecl) : Int64 × Multiset OpcodeDecl :=
  (group.arity, group.opcodes)

namespace CatalogDecl

/-- Every type and every opcode says which ordinal it has. -/
structure Explicit (decl : CatalogDecl) : Prop where
  types : ∀ type ∈ decl.types, type.ordinal.isSome
  opcodes : ∀ op ∈ decl.opcodeDecls, op.ordinal.isSome

/-- The same declarations in another order: the types, the exclusions (of which some may be repeated),
the control opcodes, the groups and the opcodes of each group. Names of catalogs do not matter. -/
structure Reorders (decl decl' : CatalogDecl) : Prop where
  base : decl.base = decl'.base
  naming : decl.naming = decl'.naming
  types : decl.types.Perm decl'.types
  exclude : ∀ name, name ∈ decl.exclude ↔ name ∈ decl'.exclude
  control : decl.control.Perm decl'.control
  groups : (decl.groups.map GroupDecl.unordered).Perm (decl'.groups.map GroupDecl.unordered)

end CatalogDecl

/-- Lists of lists that are the same in any order have the same members in any order. -/
theorem perm_flatMap_of_unordered {α β : Type} {f : α → List β} {xs ys : List α}
    (h : (xs.map fun x => (f x : Multiset β)).Perm (ys.map fun y => (f y : Multiset β))) :
    (xs.flatMap f).Perm (ys.flatMap f) := by
  have hjoin (zs : List α) :
      ((zs.flatMap f : List β) : Multiset β) =
        Multiset.join (zs.map fun z => (f z : Multiset β)) := by
    rw [List.flatMap_def, ← Multiset.coe_join, List.map_map]
    rfl
  rw [← Multiset.coe_eq_coe, hjoin, hjoin, Multiset.coe_eq_coe.2 h]

namespace CatalogDecl.Reorders

variable {decl decl' : CatalogDecl}

theorem symm (h : decl.Reorders decl') : decl'.Reorders decl where
  base := h.base.symm
  naming := h.naming.symm
  types := h.types.symm
  exclude name := (h.exclude name).symm
  control := h.control.symm
  groups := h.groups.symm

theorem opcodeDecls (h : decl.Reorders decl') : decl.opcodeDecls.Perm decl'.opcodeDecls := by
  have hopcodes := h.groups.map Prod.snd
  rw [List.map_map, List.map_map] at hopcodes
  exact h.control.append (perm_flatMap_of_unordered hopcodes)

theorem explicit (h : decl.Reorders decl') (he : decl.Explicit) : decl'.Explicit where
  types type ht := he.types type (h.types.mem_iff.2 ht)
  opcodes op hop := he.opcodes op (h.opcodeDecls.mem_iff.2 hop)

end CatalogDecl.Reorders

/-! ## Resolving explicit ordinals -/

/-- A function of members and positions that does not look at the positions. -/
theorem map_zipIdx_of_forall {α β : Type} {f : α × Nat → β} {g : α → β} {xs : List α}
    (h : ∀ x ∈ xs, ∀ i, f (x, i) = g x) (start : Nat) : (xs.zipIdx start).map f = xs.map g := by
  calc (xs.zipIdx start).map f
      = (xs.zipIdx start).map (g ∘ Prod.fst) :=
        List.map_congr_left fun p hp => h p.1 (List.fst_mem_of_mem_zipIdx hp) p.2
    _ = xs.map g := by rw [← List.map_map, List.zipIdx_map_fst]

theorem TypeDecl.resolveAll_of_explicit {decls : List TypeDecl}
    (h : ∀ type ∈ decls, type.ordinal.isSome) : resolveAll decls = decls.map (·.resolve 0) := by
  refine map_zipIdx_of_forall (fun type ht position => ?_) 0
  obtain ⟨ordinal, ho⟩ := Option.isSome_iff_exists.1 (h type ht)
  simp only [resolve, ho, Option.getD_some]

/-- The opcode of a declaration that says which ordinal it has. -/
def OpcodeDecl.resolve (kind : OpcodeKind) (decl : OpcodeDecl) : Opcode where
  name := decl.name
  ordinal := decl.ordinal.getD 0
  kind := kind

theorem OpcodeDecl.number_of_explicit {kind : OpcodeKind} {decls : List OpcodeDecl}
    (h : ∀ op ∈ decls, op.ordinal.isSome) (start : Nat) :
    number kind start decls = decls.map (resolve kind) := by
  refine map_zipIdx_of_forall (fun op hop position => ?_) start
  obtain ⟨ordinal, ho⟩ := Option.isSome_iff_exists.1 (h op hop)
  simp only [resolve, ho, Option.getD_some]

/-- A group behind which there is an arity, without the order of its opcodes. -/
def Shaped.unordered (group : Arity × List OpcodeDecl) : Arity × Multiset OpcodeDecl :=
  (group.1, group.2)

/-- A resolved group, without the order of its opcodes. -/
def OpcodeGroup.unordered (group : OpcodeGroup) : Arity × Multiset Opcode :=
  (group.arity, group.opcodes)

theorem OpcodeGroup.map_unordered_number {shaped : List (Arity × List OpcodeDecl)}
    (h : ∀ op ∈ shaped.flatMap Prod.snd, op.ordinal.isSome) (start : Nat) :
    (number start shaped).map unordered =
      (shaped.map Shaped.unordered).map fun group =>
        (group.1, group.2.map (OpcodeDecl.resolve (.numeric group.1))) := by
  induction shaped generalizing start with
  | nil => rfl
  | cons group shaped ih =>
    rw [List.flatMap_cons, List.forall_mem_append] at h
    rw [number, List.map_cons, ih h.2, unordered, OpcodeDecl.number_of_explicit h.1]
    rfl

/-! ## Catalogs -/

/-- The same types, exclusions and opcodes in another order, under the same base and naming rule. -/
structure Catalog.Reorders (c c' : Catalog) : Prop where
  scheme : c.scheme = c'.scheme
  naming : c.naming = c'.naming
  types : c.types.types.Perm c'.types.types
  exclusions : ∀ name, name ∈ c.types.exclusions ↔ name ∈ c'.types.exclusions
  controls : c.opcodes.controls.Perm c'.opcodes.controls
  groups : (c.opcodes.groups.map OpcodeGroup.unordered).Perm
    (c'.opcodes.groups.map OpcodeGroup.unordered)

namespace Shaped

variable {groups groups' : List GroupDecl} {shaped shaped' : List (Arity × List OpcodeDecl)}

theorem map_unordered (hs : Shaped groups shaped) :
    (groups.map GroupDecl.unordered).map (Prod.map Int64.toInt id) =
      (shaped.map unordered).map (Prod.map (fun a : Arity => (a.count : Int)) id) := by
  have hforget :=
    congrArg (List.map (Prod.map id (Multiset.ofList : List OpcodeDecl → Multiset OpcodeDecl))) hs
  rw [List.map_map, List.map_map] at hforget
  rw [List.map_map, List.map_map]
  exact hforget

/-- Groups that are the same in any order have shapes that are the same in any order. -/
theorem perm (hs : Shaped groups shaped) (hs' : Shaped groups' shaped')
    (h : (groups.map GroupDecl.unordered).Perm (groups'.map GroupDecl.unordered)) :
    (shaped.map unordered).Perm (shaped'.map unordered) := by
  have hmap := h.map (Prod.map Int64.toInt id)
  rw [hs.map_unordered, hs'.map_unordered] at hmap
  exact (List.map_perm_map_iff (Arity.count_injective.prodMap Function.injective_id)).1 hmap

end Shaped

theorem CatalogDecl.Reorders.resolved {decl decl' : CatalogDecl}
    {shaped shaped' : List (Arity × List OpcodeDecl)} (h : decl.Reorders decl')
    (he : decl.Explicit) (hs : Shaped decl.groups shaped) (hs' : Shaped decl'.groups shaped') :
    (decl.resolved shaped).Reorders (decl'.resolved shaped') where
  scheme := congrArg KeyScheme.mk h.base
  naming := h.naming
  types := by
    have he' := h.explicit he
    simp only [CatalogDecl.resolved, TypeDecl.resolveAll_of_explicit he.types,
      TypeDecl.resolveAll_of_explicit he'.types]
    exact h.types.map _
  exclusions := h.exclude
  controls := by
    have he' := h.explicit he
    simp only [CatalogDecl.resolved, OpcodeCatalog.numbered]
    rw [OpcodeDecl.number_of_explicit fun op hop => he.opcodes op (List.mem_append_left _ hop),
      OpcodeDecl.number_of_explicit fun op hop => he'.opcodes op (List.mem_append_left _ hop)]
    exact h.control.map _
  groups := by
    have he' := h.explicit he
    simp only [CatalogDecl.resolved, OpcodeCatalog.numbered]
    rw [OpcodeGroup.map_unordered_number, OpcodeGroup.map_unordered_number]
    · exact (hs.perm hs' h.groups).map _
    · rw [CatalogDecl.flatMap_shaped hs']
      exact fun op hop => he'.opcodes op (List.mem_append_right _ hop)
    · rw [CatalogDecl.flatMap_shaped hs]
      exact fun op hop => he.opcodes op (List.mem_append_right _ hop)

namespace Catalog.Reorders

variable {c c' : Catalog}

section
variable (h : c.Reorders c')
include h

theorem numeric : c.opcodes.numeric.Perm c'.opcodes.numeric := by
  have hopcodes := h.groups.map Prod.snd
  rw [List.map_map, List.map_map] at hopcodes
  exact perm_flatMap_of_unordered hopcodes

theorem all : c.opcodes.all.Perm c'.opcodes.all :=
  h.controls.append h.numeric

theorem dispatchable : c.types.dispatchable.Perm c'.types.dispatchable := by
  have hexcluded : c.types.isExcluded = c'.types.isExcluded := by
    funext type
    rw [Bool.eq_iff_iff, TypeCatalog.isExcluded, TypeCatalog.isExcluded, List.contains_iff_mem,
      List.contains_iff_mem, h.exclusions]
  rw [TypeCatalog.dispatchable, TypeCatalog.dispatchable, hexcluded]
  exact h.types.filter _

theorem pairs : c.pairs.Perm c'.pairs :=
  h.numeric.product h.dispatchable

theorem handlerName : c.handlerName = c'.handlerName := by
  funext op
  rw [Catalog.handlerName, h.naming, Catalog.handlerName]

theorem stub : c.stub = c'.stub := by
  funext op
  rw [Catalog.stub, h.handlerName, Catalog.stub]

theorem key : c.key = c'.key := by
  funext op type
  rw [Catalog.key, h.scheme, Catalog.key]

theorem arms : c.table.arms.Perm c'.table.arms := by
  have harm : (fun p : Opcode × ElementType => c.arm p.1 p.2) = fun p => c'.arm p.1 p.2 := by
    funext p
    rw [Catalog.arm, h.key, h.handlerName, Catalog.arm]
  exact (h.pairs.map _).trans (by rw [harm]; exact .refl _)

/-- Every group has its counterpart. -/
theorem exists_group {group : OpcodeGroup} (hg : group ∈ c'.opcodes.groups) :
    ∃ g ∈ c.opcodes.groups, g.arity = group.arity ∧ g.opcodes.Perm group.opcodes := by
  obtain ⟨g, hm, he⟩ := List.mem_map.1 (h.groups.mem_iff.2 (List.mem_map_of_mem hg))
  obtain ⟨ha, ho⟩ := Prod.mk.inj he
  exact ⟨g, hm, ha, Multiset.coe_eq_coe.1 ho⟩

theorem arities : (c.opcodes.groups.map (·.arity)).Perm (c'.opcodes.groups.map (·.arity)) := by
  have harities := h.groups.map Prod.fst
  rwa [List.map_map, List.map_map] at harities

/-! ### Validity -/

theorem typesValid (ht : c.types.Valid) : c'.types.Valid where
  nonempty hnil := by
    have hp := h.types
    rw [hnil, List.perm_nil] at hp
    exact ht.nonempty hp
  names type hm := ht.names type (h.types.mem_iff.2 hm)
  tokens type hm := ht.tokens type (h.types.mem_iff.2 hm)
  names_nodup := (h.types.map _).nodup_iff.1 ht.names_nodup
  ordinals_nodup := (h.types.map _).nodup_iff.1 ht.ordinals_nodup
  exclusions_declared name hm :=
    (h.types.map _).mem_iff.1 (ht.exclusions_declared name ((h.exclusions name).2 hm))

theorem opcodesValid (ho : c.opcodes.Valid) : c'.opcodes.Valid where
  arities_nodup := h.arities.nodup_iff.1 ho.arities_nodup
  groups_nonempty group hg := by
    obtain ⟨g, hm, -, hp⟩ := h.exists_group hg
    intro hnil
    rw [hnil, List.perm_nil] at hp
    exact ho.groups_nonempty g hm hp
  numeric_kind group hg op hop := by
    obtain ⟨g, hm, ha, hp⟩ := h.exists_group hg
    rw [← ha]
    exact ho.numeric_kind g hm op (hp.mem_iff.2 hop)
  control_kind op hop := ho.control_kind op (h.controls.mem_iff.2 hop)
  names op hop := ho.names op (h.all.mem_iff.2 hop)
  names_nodup := (h.all.map _).nodup_iff.1 ho.names_nodup
  ordinals_nodup := (h.all.map _).nodup_iff.1 ho.ordinals_nodup

theorem valid (hc : c.Valid) : c'.Valid where
  types := h.typesValid hc.types
  opcodes := h.opcodesValid hc.opcodes
  ordinal_lt_base type ht := by
    rw [← h.scheme]
    exact hc.ordinal_lt_base type (h.types.mem_iff.2 ht)
  handlers op hop := by
    rw [← h.handlerName]
    exact hc.handlers op (h.numeric.mem_iff.2 hop)
  handlers_nodup := by
    rw [← h.handlerName]
    exact (h.numeric.map _).nodup_iff.1 hc.handlers_nodup
  dispatchable_ne_nil hnil := by
    have hp := h.dispatchable
    rw [hnil, List.perm_nil] at hp
    exact hc.dispatchable_ne_nil hp
  numeric_ne_nil hnil := by
    have hp := h.numeric
    rw [hnil, List.perm_nil] at hp
    exact hc.numeric_ne_nil hp

/-! ### Dispatching -/

theorem isControl (opcode : UInt32) :
    c.dispatcher.isControl opcode = c'.dispatcher.isControl opcode := by
  rw [Bool.eq_iff_iff, isControl_dispatcher, isControl_dispatcher, (h.controls.map _).mem_iff]

theorem opcodeText (hc : c.Valid) (opcode : UInt32) :
    c.dispatcher.opcodeText opcode = c'.dispatcher.opcodeText opcode := by
  by_cases hop : ∃ op ∈ c.opcodes.all, op.ordinal = opcode
  · obtain ⟨op, hop, rfl⟩ := hop
    rw [hc.opcodeText_ordinal hop, (h.valid hc).opcodeText_ordinal (h.all.mem_iff.1 hop)]
  · have hn : ∀ op ∈ c.opcodes.all, op.ordinal ≠ opcode := fun op hm e => hop ⟨op, hm, e⟩
    rw [opcodeText_unknown hn, opcodeText_unknown fun op hm => hn op (h.all.mem_iff.2 hm)]

theorem route? (hc : c.Valid) (key : UInt64) :
    c.dispatcher.route? key = c'.dispatcher.route? key := by
  have hroute : c.route = c'.route := by
    funext pair
    rw [route, h.key, h.stub, route]
  refine Option.ext fun r => ?_
  rw [hc.route?_eq_some_iff, (h.valid hc).route?_eq_some_iff, hroute, h.key]
  simp only [h.pairs.mem_iff]

theorem step (hc : c.Valid) (i : Instruction) : c.dispatcher.step i = c'.dispatcher.step i := by
  have hscheme : c.dispatcher.scheme = c'.dispatcher.scheme := h.scheme
  rw [Dispatcher.step, h.isControl, h.opcodeText hc, hscheme]
  simp only [h.route? hc]
  rfl

end

end Catalog.Reorders

/-! ## Acceptance and runs -/

theorem CatalogDecl.Reorders.accepted {decl decl' : CatalogDecl} (h : decl.Reorders decl')
    (he : decl.Explicit) {c : Catalog} (hb : decl.build = .ok c) :
    ∃ c', decl'.build = .ok c' ∧ c.Reorders c' := by
  obtain ⟨shaped, hs, rfl, hc⟩ := build_eq_ok_iff.1 hb
  have hsupported : ∀ group ∈ decl'.groups,
      1 ≤ group.arity.toInt ∧ group.arity.toInt ≤ maxArity := by
    intro group hg
    obtain ⟨g, hm, e⟩ := List.mem_map.1 (h.groups.mem_iff.2 (List.mem_map_of_mem hg))
    have harity : g.arity = group.arity := congrArg Prod.fst e
    rw [← harity]
    exact hs.supported g hm
  obtain ⟨shaped', hs'⟩ := exists_shaped hsupported
  have hr := h.resolved he hs hs'
  exact ⟨_, build_eq_ok_iff.2 ⟨shaped', hs', rfl, hr.valid hc⟩, hr⟩

/-- Declarations with explicit ordinals may stand in any order: the same are accepted, and they give
dispatchers that run every batch to the same end with the same calls, and the same arms. -/
theorem CatalogDecl.order_irrelevant {decl decl' : CatalogDecl} (he : decl.Explicit)
    (h : decl.Reorders decl') :
    ((∃ c, decl.build = .ok c) ↔ ∃ c', decl'.build = .ok c') ∧
      ∀ c c', decl.build = .ok c → decl'.build = .ok c' →
        ∃ d d' t t', Dispatcher.ofCatalog c = .ok d ∧ Dispatcher.ofCatalog c' = .ok d' ∧
          (∀ batch, d.execute batch = d'.execute batch) ∧
          c.emitTable = .ok t ∧ c'.emitTable = .ok t' ∧ t.arms.Perm t'.arms := by
  constructor
  · constructor
    · rintro ⟨c, hb⟩
      obtain ⟨c', hb', -⟩ := h.accepted he hb
      exact ⟨c', hb'⟩
    · rintro ⟨c', hb'⟩
      obtain ⟨c, hb, -⟩ := h.symm.accepted (h.explicit he) hb'
      exact ⟨c, hb⟩
  · intro c c' hb hb'
    obtain ⟨_, hb'', hr⟩ := h.accepted he hb
    obtain rfl := Except.ok.inj (hb''.symm.trans hb')
    have hc := valid_of_build hb
    have hc' := valid_of_build hb'
    exact ⟨_, _, _, _, hc.ofCatalog_eq, hc'.ofCatalog_eq, Dispatcher.execute_congr (hr.step hc),
      hc.emitTable_eq, hc'.emitTable_eq, hr.arms⟩

/-- Three groups, declared forwards and backwards, with an exclusion repeated on one side. -/
theorem CatalogDecl.order_irrelevant_backwards :
    let int32 : TypeDecl := { name := "INT32", ordinal := some 3 }
    let float64 : TypeDecl := { name := "FLOAT64", ordinal := some 1 }
    let unknown : TypeDecl := { name := "UNKNOWN", ordinal := some 0 }
    let none : OpcodeDecl := { name := "NONE", ordinal := some 9 }
    let sync : OpcodeDecl := { name := "SYNC", ordinal := some 4 }
    let neg : OpcodeDecl := { name := "NEG", ordinal := some 2 }
    let add : OpcodeDecl := { name := "ADD", ordinal := some 0 }
    let mul : OpcodeDecl := { name := "MUL", ordinal := some 7 }
    let forwards : CatalogDecl := {
      types := [int32, float64, unknown], exclude := ["UNKNOWN", "UNKNOWN"]
      control := [none, sync], groups := [⟨1, [neg]⟩, ⟨2, [add, mul]⟩] }
    let backwards : CatalogDecl := {
      types := [unknown, float64, int32], exclude := ["UNKNOWN"]
      control := [sync, none], groups := [⟨2, [mul, add]⟩, ⟨1, [neg]⟩] }
    forwards.Explicit ∧ forwards.Reorders backwards ∧
      ∃ c c' d d' t t', forwards.build = .ok c ∧ backwards.build = .ok c' ∧
        Dispatcher.ofCatalog c = .ok d ∧ Dispatcher.ofCatalog c' = .ok d' ∧
        (∀ batch, d.execute batch = d'.execute batch) ∧
        c.emitTable = .ok t ∧ c'.emitTable = .ok t' ∧ t.arms.Perm t'.arms := by
  intro int32 float64 unknown none sync neg add mul forwards backwards
  have he : forwards.Explicit := ⟨by decide, by decide⟩
  have hr : forwards.Reorders backwards := {
    base := rfl
    naming := rfl
    types := by decide
    exclude := by simp [forwards, backwards]
    control := by decide
    groups := by decide }
  obtain ⟨hiff, hruns⟩ := CatalogDecl.order_irrelevant he hr
  obtain ⟨c, hb⟩ : ∃ c, forwards.build = .ok c := exists_eq_ok (by decide +kernel)
  obtain ⟨c', hb'⟩ := hiff.1 ⟨c, hb⟩
  obtain ⟨d, d', t, t', h⟩ := hruns c c' hb hb'
  exact ⟨he, hr, c, c', d, d', t, t', hb, hb', h⟩

end DispatchGen
