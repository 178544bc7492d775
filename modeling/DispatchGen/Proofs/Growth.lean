import DispatchGen.Proofs.KeySpace
import Mathlib.Data.List.Flatten
import Mathlib.Data.Prod.Basic

/-!
# Growing a catalog at its end

A declaration may grow without harm to stored batches: by types behind its own, by opcodes in its last
group, by groups behind that, and by exclusions of the types it gains (`CatalogDecl.Grows`). Positions
are counted from the front, so whatever was declared before keeps its ordinal, explicit or not, and
the types and numeric opcodes of the old catalog are a prefix of the new ones (`Catalog.Grows`). Hence
every arm is kept as it was, and a batch that ended well does so again, with the same calls
(`CatalogDecl.growth_keeps_batches`). A batch that was refused need not be refused any more.
-/

namespace DispatchGen

/-! ## Declarations -/

namespace CatalogDecl

/-- `larger` declares what `decl` does, under the same base, naming and control opcodes, and more
behind it. What it excludes in addition are types that `decl` does not have. -/
structure Grows (decl larger : CatalogDecl) : Prop where
  base : larger.base = decl.base
  naming : larger.naming = decl.naming
  control : larger.control = decl.control
  types : ∃ added, larger.types = decl.types ++ added ∧
    ∀ name ∈ larger.exclude, name ∈ decl.exclude ∨ name ∈ added.map (·.name)
  exclude : ∀ name ∈ decl.exclude, name ∈ larger.exclude
  groups : ∃ front last opcodes added, decl.groups = front ++ [last] ∧
    larger.groups = front ++ { last with opcodes := last.opcodes ++ opcodes } :: added

end CatalogDecl

/-! ## Numbering -/

/-- Every member of the lists, with the mark of its list. -/
def spread {α β : Type} (lists : List (α × List β)) : List (α × β) :=
  lists.flatMap fun (mark, members) => members.map (Prod.mk mark)

theorem spread_map {α β γ : Type} (f : α → γ) (lists : List (α × List β)) :
    spread (lists.map (Prod.map f id)) = (spread lists).map (Prod.map f id) := by
  simp only [spread, List.flatMap_map, List.map_flatMap, List.map_map]
  rfl

theorem TypeDecl.resolveAll_prefix (decls added : List TypeDecl) :
    resolveAll decls <+: resolveAll (decls ++ added) := by
  unfold resolveAll
  rw [List.zipIdx_append, List.map_append]
  exact List.prefix_append ..

/-- The opcode of a declaration in a group, at its position. -/
def OpcodeDecl.numbered : (Arity × OpcodeDecl) × Nat → Opcode
  | ((arity, decl), position) =>
    { name := decl.name, ordinal := decl.ordinal.getD (UInt32.ofNat position)
      kind := .numeric arity }

/-- Numbering group by group is numbering all declarations at once. -/
theorem OpcodeGroup.flatMap_opcodes_number (start : Nat)
    (shaped : List (Arity × List OpcodeDecl)) :
    (number start shaped).flatMap (·.opcodes) =
      ((spread shaped).zipIdx start).map OpcodeDecl.numbered := by
  induction shaped generalizing start with
  | nil => rfl
  | cons group shaped ih =>
    obtain ⟨arity, decls⟩ := group
    have hspread : spread ((arity, decls) :: shaped) = decls.map (Prod.mk arity) ++ spread shaped :=
      List.flatMap_cons
    rw [number, List.flatMap_cons, ih, hspread, List.zipIdx_append, List.map_append,
      List.length_map, List.zipIdx_map, List.map_map]
    rfl

theorem OpcodeGroup.number_prefix {shaped shaped' : List (Arity × List OpcodeDecl)}
    (h : spread shaped <+: spread shaped') (start : Nat) :
    (number start shaped).flatMap (·.opcodes) <+:
      (number start shaped').flatMap (·.opcodes) := by
  obtain ⟨rest, hrest⟩ := h
  rw [flatMap_opcodes_number, flatMap_opcodes_number, ← hrest, List.zipIdx_append,
    List.map_append]
  exact List.prefix_append ..

namespace CatalogDecl.Grows

variable {decl larger : CatalogDecl} (h : decl.Grows larger)
include h

theorem spread_groups :
    spread (decl.groups.map fun group => (group.arity.toInt, group.opcodes)) <+:
      spread (larger.groups.map fun group => (group.arity.toInt, group.opcodes)) := by
  obtain ⟨front, last, opcodes, added, hs, hs'⟩ := h.groups
  rw [hs, hs']
  simp only [spread, List.map_append, List.map_cons, List.map_nil, List.flatMap_append,
    List.flatMap_cons, List.flatMap_nil, List.append_nil, List.append_assoc]
  exact (List.prefix_append_right_inj _).2 (List.prefix_append ..)

/-- The opcodes behind the groups are a prefix, as those in the groups are. -/
theorem spread_shaped {shaped shaped' : List (Arity × List OpcodeDecl)}
    (hs : Shaped decl.groups shaped) (hs' : Shaped larger.groups shaped') :
    spread shaped <+: spread shaped' := by
  have hmark : Function.Injective (Prod.map (fun a : Arity => (a.count : Int)) id :
      Arity × OpcodeDecl → Int × OpcodeDecl) :=
    Arity.count_injective.prodMap Function.injective_id
  have hspread := h.spread_groups
  rw [hs, hs'] at hspread
  change spread (shaped.map (Prod.map (fun a : Arity => (a.count : Int)) id)) <+:
    spread (shaped'.map (Prod.map (fun a : Arity => (a.count : Int)) id)) at hspread
  rw [spread_map, spread_map, List.prefix_map_iff] at hspread
  obtain ⟨members, hprefix, hmap⟩ := hspread
  rw [List.map_injective_iff.2 hmark hmap]
  exact hprefix

end CatalogDecl.Grows

/-! ## Catalogs -/

/-- The types and numeric opcodes of `c'` begin with those of `c`, and of the types in `c` the same are
excluded; everything else is as it was. -/
structure Catalog.Grows (c c' : Catalog) : Prop where
  scheme : c'.scheme = c.scheme
  naming : c'.naming = c.naming
  types : c.types.types <+: c'.types.types
  excluded : ∀ type ∈ c.types.types, c'.types.isExcluded type = c.types.isExcluded type
  controls : c'.opcodes.controls = c.opcodes.controls
  numeric : c.opcodes.numeric <+: c'.opcodes.numeric

theorem CatalogDecl.Grows.resolved {decl larger : CatalogDecl} (h : decl.Grows larger)
    {shaped shaped' : List (Arity × List OpcodeDecl)} (hs : Shaped decl.groups shaped)
    (hs' : Shaped larger.groups shaped') (hn : (larger.types.map (·.name)).Nodup) :
    (decl.resolved shaped).Grows (larger.resolved shaped') := by
  obtain ⟨added, htypes, hexclude⟩ := h.types
  refine ⟨congrArg KeyScheme.mk h.base, h.naming, ?_, ?_, ?_, ?_⟩
  · show TypeDecl.resolveAll decl.types <+: TypeDecl.resolveAll larger.types
    rw [htypes]
    exact TypeDecl.resolveAll_prefix ..
  · intro type ht
    show larger.exclude.contains type.name = decl.exclude.contains type.name
    rw [Bool.eq_iff_iff, List.contains_iff_mem, List.contains_iff_mem]
    refine ⟨fun hx => ?_, h.exclude type.name⟩
    rcases hexclude type.name hx with hx | hx
    · exact hx
    · -- the type would be declared twice
      have hname : type.name ∈ decl.types.map (·.name) := by
        rw [← TypeDecl.map_name_resolveAll]
        exact List.mem_map_of_mem ht
      rw [htypes, List.map_append, List.nodup_append] at hn
      exact absurd rfl (hn.2.2 _ hname _ hx)
  · show OpcodeDecl.number .control 0 larger.control = OpcodeDecl.number .control 0 decl.control
    rw [h.control]
  · show (OpcodeGroup.number decl.control.length shaped).flatMap (·.opcodes) <+:
      (OpcodeGroup.number larger.control.length shaped').flatMap (·.opcodes)
    rw [h.control]
    exact OpcodeGroup.number_prefix (h.spread_shaped hs hs') _

namespace Catalog.Grows

variable {c c' : Catalog} (h : c.Grows c')
include h

theorem handlerName : c'.handlerName = c.handlerName := by
  funext op
  rw [Catalog.handlerName, h.naming, Catalog.handlerName]

theorem key : c'.key = c.key := by
  funext op type
  rw [Catalog.key, h.scheme, Catalog.key]

theorem stub : c'.stub = c.stub := by
  funext op
  rw [Catalog.stub, h.handlerName, Catalog.stub]

theorem dispatchable : c.types.dispatchable.Sublist c'.types.dispatchable := by
  obtain ⟨added, hadded⟩ := h.types
  have hkept : c.types.types.filter (!c'.types.isExcluded ·) = c.types.dispatchable :=
    List.filter_congr fun type ht => by rw [h.excluded type ht]
  rw [← hkept, TypeCatalog.dispatchable, ← hadded, List.filter_append]
  exact List.sublist_append_left ..

theorem pairs : c.pairs.Sublist c'.pairs := by
  have hopcodes : c.pairs.Sublist
      (c'.opcodes.numeric.flatMap fun op => c.types.dispatchable.map fun type => (op, type)) :=
    h.numeric.sublist.flatMap _
  exact hopcodes.trans (List.Sublist.flatMap_right _ fun op _ => h.dispatchable.map _)

theorem arms : c.table.arms.Sublist c'.table.arms := by
  have harm : (fun p : Opcode × ElementType => c'.arm p.1 p.2) = fun p => c.arm p.1 p.2 := by
    funext p
    rw [Catalog.arm, h.key, h.handlerName, Catalog.arm]
  have hmap := h.pairs.map fun p : Opcode × ElementType => c'.arm p.1 p.2
  rw [harm] at hmap
  exact hmap.trans (by rw [← harm]; exact .refl _)

/-! ### Steps -/

theorem isControl (opcode : UInt32) :
    c'.dispatcher.isControl opcode = c.dispatcher.isControl opcode := by
  rw [Bool.eq_iff_iff, isControl_dispatcher, isControl_dispatcher, h.controls]

theorem reads {opcode element : UInt32} {pair : Opcode × ElementType}
    (hr : c.Reads opcode element pair) : c'.Reads opcode element pair where
  mem := h.pairs.subset hr.mem
  opcode_eq := by rw [h.scheme]; exact hr.opcode_eq
  element_eq := by rw [h.scheme]; exact hr.element_eq

/-- A step that is no refusal stays as it was. -/
theorem step (hc : c.Valid) (hc' : c'.Valid) {i : Instruction}
    (hi : (c.dispatcher.step i).refusal? = none) : c'.dispatcher.step i = c.dispatcher.step i := by
  cases hcontrol : c.dispatcher.isControl i.opcode with
  | true =>
    obtain ⟨control, hm, hordinal⟩ := List.mem_map.1 (isControl_dispatcher.1 hcontrol)
    have hm' : control ∈ c'.opcodes.controls := h.controls ▸ hm
    rw [Dispatcher.step_skipped hcontrol, Dispatcher.step_skipped ((h.isControl _).trans hcontrol),
      ← hordinal, hc.opcodeText_ordinal (List.mem_append_left _ hm),
      hc'.opcodeText_ordinal (List.mem_append_left _ hm')]
  | false =>
    have hcontrol' := (h.isControl i.opcode).trans hcontrol
    by_cases hr : ∃ element pair, i.operands.head? = some element ∧ c.Reads i.opcode element pair
    · obtain ⟨element, pair, ho, hr⟩ := hr
      rw [hc.step_reads hcontrol ho hr, hc'.step_reads hcontrol' ho (h.reads hr), h.key, call, call,
        h.stub]
    · rw [hc.step_unread hcontrol fun element pair ho hx => hr ⟨element, pair, ho, hx⟩] at hi
      cases hi

end Catalog.Grows

/-- Where an accepted declaration has grown at its end and is still accepted, the arms are those there
were and more, and every batch that ended well ends well with the same calls. -/
theorem CatalogDecl.growth_keeps_batches {decl larger : CatalogDecl} {c c' : Catalog}
    (hg : decl.Grows larger) (hb : decl.build = .ok c) (hb' : larger.build = .ok c') :
    ∃ t t' d d', c.emitTable = .ok t ∧ c'.emitTable = .ok t' ∧
      Dispatcher.ofCatalog c = .ok d ∧ Dispatcher.ofCatalog c' = .ok d' ∧
      t.arms.Sublist t'.arms ∧
      ∀ batch, (d.execute batch).status = .success → d'.execute batch = d.execute batch := by
  obtain ⟨shaped, hs, rfl, hc⟩ := build_eq_ok_iff.1 hb
  obtain ⟨shaped', hs', rfl, hc'⟩ := build_eq_ok_iff.1 hb'
  have hnames : (larger.types.map (·.name)).Nodup := by
    rw [← TypeDecl.map_name_resolveAll]
    exact hc'.types.names_nodup
  have h := hg.resolved hs hs' hnames
  refine ⟨_, _, _, _, hc.emitTable_eq, hc'.emitTable_eq, hc.ofCatalog_eq, hc'.ofCatalog_eq, h.arms,
    fun batch hsuccess => ?_⟩
  exact Dispatcher.execute_eq_of_success (fun i => h.step hc hc') hsuccess

/-- `addMul` with two more types, one of them excluded, one more opcode in its group and a group of its
own for another; the ordinals of `BOOL` and `NEG` are their positions. -/
theorem CatalogDecl.growth_keeps_batches_addMul :
    let larger : CatalogDecl := { addMul with
      types := addMul.types ++ [{ name := "BOOL" }, { name := "UNKNOWN", ordinal := some 7 }]
      exclude := ["UNKNOWN"]
      groups := [⟨2, [{ name := "ADD" }, { name := "MUL" }, { name := "SUB", ordinal := some 9 }]⟩,
        ⟨1, [{ name := "NEG" }]⟩] }
    let batch : List Instruction := [⟨0, []⟩, ⟨2, [1, 1]⟩]
    addMul.Grows larger ∧ ∃ c' t t' d d', larger.build = .ok c' ∧
      Catalog.addMul.emitTable = .ok t ∧ c'.emitTable = .ok t' ∧
      Dispatcher.ofCatalog Catalog.addMul = .ok d ∧ Dispatcher.ofCatalog c' = .ok d' ∧
      t.arms.Sublist t'.arms ∧ (d.execute batch).status = .success ∧
      d'.execute batch = d.execute batch := by
  intro larger batch
  have hg : addMul.Grows larger := by
    refine ⟨rfl, rfl, rfl, ⟨_, rfl, by simp [larger]⟩, by simp [addMul], ?_⟩
    exact ⟨[], ⟨2, [{ name := "ADD" }, { name := "MUL" }]⟩, _, _, rfl, rfl⟩
  obtain ⟨c', hb'⟩ : ∃ c', larger.build = .ok c' := exists_eq_ok (by decide +kernel)
  obtain ⟨t, t', d, d', ht, ht', hd, hd', harms, hbatch⟩ := growth_keeps_batches hg build_addMul hb'
  have hsuccess : (d.execute batch).status = .success := by
    obtain rfl : Catalog.addMul.dispatcher = d :=
      Except.ok.inj ((valid_of_build build_addMul).ofCatalog_eq.symm.trans hd)
    decide +kernel
  exact ⟨hg, c', t, t', d, d', hb', ht, ht', hd, hd', harms, hsuccess, hbatch batch hsuccess⟩

end DispatchGen
