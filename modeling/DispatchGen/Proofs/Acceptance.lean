import DispatchGen.Proofs.Valid
import Mathlib.Algebra.Group.Nat.Defs

/-!
# Acceptance

`CatalogDecl.WellFormed` says what a declaration must be in terms of the declaration alone: names,
tokens and explicit ordinals as written, and positions as numbers. The builder accepts exactly the
well-formed declarations (`CatalogDecl.accepted_iff_wellFormed`). The way there is
`CatalogDecl.valid_resolved_iff`: the resolved catalog is valid when its declaration is well formed,
because resolving keeps the names in order and gives every declaration the ordinal it asks for, or
its position (`OpcodeCatalog.map_ordinal_numbered`).
-/

namespace DispatchGen

/-! ## Well-formed declarations -/

/-- The ordinals that declarations get in their order: the explicit one, else the position. -/
def resolvedOrdinals (explicit : List (Option UInt32)) (start : Nat := 0) : List Nat :=
  (explicit.zipIdx start).map fun (ordinal, position) => (ordinal.map UInt32.toNat).getD position

/-- The token that stands for the type in generated code. -/
def TypeDecl.tokenText (decl : TypeDecl) : String :=
  decl.token.getD (Text.lowercase decl.name)

namespace CatalogDecl

section
variable (decl : CatalogDecl)

def numericDecls : List OpcodeDecl :=
  decl.groups.flatMap (·.opcodes)

/-- Every declared opcode, controls first. -/
def opcodeDecls : List OpcodeDecl :=
  decl.control ++ decl.numericDecls

def typeOrdinals : List Nat :=
  resolvedOrdinals (decl.types.map (·.ordinal))

def opcodeOrdinals : List Nat :=
  resolvedOrdinals (decl.opcodeDecls.map (·.ordinal))

/-- The handlers of the numeric opcodes, in their order. -/
def handlers : List String :=
  decl.numericDecls.map (decl.naming.handlerName ·.name)

structure WellFormed : Prop where
  types_nonempty : decl.types ≠ []
  type_names : ∀ type ∈ decl.types, Text.isIdentifier type.name
  type_tokens : ∀ type ∈ decl.types, Text.isTypeToken type.tokenText
  type_names_nodup : (decl.types.map (·.name)).Nodup
  type_ordinals_nodup : decl.typeOrdinals.Nodup
  exclusions_declared : ∀ name ∈ decl.exclude, name ∈ decl.types.map (·.name)
  arities_supported : ∀ group ∈ decl.groups, 1 ≤ group.arity.toInt ∧ group.arity.toInt ≤ 8
  arities_nodup : (decl.groups.map (·.arity)).Nodup
  groups_nonempty : ∀ group ∈ decl.groups, group.opcodes ≠ []
  opcode_names : ∀ op ∈ decl.opcodeDecls, Text.isIdentifier op.name
  opcode_names_nodup : (decl.opcodeDecls.map (·.name)).Nodup
  opcode_ordinals_nodup : decl.opcodeOrdinals.Nodup
  base_exceeds : ∀ ordinal ∈ decl.typeOrdinals, ordinal < decl.base.toNat
  handler_names : ∀ handler ∈ decl.handlers, Text.isIdentifier handler
  handlers_nodup : decl.handlers.Nodup
  some_dispatchable : ∃ type ∈ decl.types, type.name ∉ decl.exclude
  some_numeric : decl.numericDecls ≠ []

end

end CatalogDecl

/-- A condition on the images of two lists that have the same images. -/
theorem forall_mem_iff_of_map_eq {α β γ : Type} {f : α → γ} {g : β → γ} {xs : List α} {ys : List β}
    (h : xs.map f = ys.map g) {P : γ → Prop} : (∀ x ∈ xs, P (f x)) ↔ ∀ y ∈ ys, P (g y) := by
  rw [← List.forall_mem_map, h, List.forall_mem_map]

/-! ## Resolving keeps names and gives ordinals -/

theorem toNat_resolve {explicit : Option UInt32} {position : Nat} (h : position < 2 ^ 32) :
    (explicit.getD (UInt32.ofNat position)).toNat =
      (explicit.map UInt32.toNat).getD position := by
  cases explicit with
  | none => simpa using UInt32.toNat_ofNat_of_lt' h
  | some => rfl

/-- Positions below `2 ^ 32` survive as ordinals. -/
theorem map_toNat_resolve {explicit : List (Option UInt32)} {start : Nat}
    (h : start + explicit.length ≤ 2 ^ 32) :
    ((explicit.zipIdx start).map fun (ordinal, position) =>
      (ordinal.getD (UInt32.ofNat position)).toNat) = resolvedOrdinals explicit start := by
  refine List.map_congr_left fun (ordinal, position) hm => toNat_resolve ?_
  have := (List.mem_zipIdx hm).2.1
  omega

theorem resolvedOrdinals_append {xs ys : List (Option UInt32)} {start : Nat} :
    resolvedOrdinals (xs ++ ys) start =
      resolvedOrdinals xs start ++ resolvedOrdinals ys (start + xs.length) := by
  simp [resolvedOrdinals, List.zipIdx_append]

namespace TypeDecl

variable {decls : List TypeDecl}

theorem map_name_resolveAll (decls : List TypeDecl) :
    (resolveAll decls).map (·.name) = decls.map (·.name) := by
  calc (resolveAll decls).map (·.name)
      = (decls.zipIdx.map Prod.fst).map (·.name) := by
        simp only [resolveAll, List.map_map, Function.comp_def]
        rfl
    _ = decls.map (·.name) := by rw [List.zipIdx_map_fst]

theorem map_token_resolveAll (decls : List TypeDecl) :
    (resolveAll decls).map (·.token) = decls.map (·.tokenText) := by
  calc (resolveAll decls).map (·.token)
      = (decls.zipIdx.map Prod.fst).map (·.tokenText) := by
        simp only [resolveAll, List.map_map, Function.comp_def]
        rfl
    _ = decls.map (·.tokenText) := by rw [List.zipIdx_map_fst]

theorem map_ordinal_resolveAll (h : decls.length ≤ 2 ^ 32) :
    (resolveAll decls).map (·.ordinal.toNat) = resolvedOrdinals (decls.map (·.ordinal)) := by
  rw [← map_toNat_resolve (by simpa using h), List.zipIdx_map]
  simp only [resolveAll, List.map_map, Function.comp_def]
  rfl

end TypeDecl

theorem OpcodeDecl.map_ordinal_number {kind : OpcodeKind} {start : Nat} {decls : List OpcodeDecl}
    (h : start + decls.length ≤ 2 ^ 32) :
    (number kind start decls).map (·.ordinal.toNat) =
      resolvedOrdinals (decls.map (·.ordinal)) start := by
  rw [← map_toNat_resolve (by simpa using h), List.zipIdx_map]
  simp only [number, List.map_map, Function.comp_def]
  rfl

namespace OpcodeGroup

variable {start : Nat} {shaped : List (Arity × List OpcodeDecl)}

theorem map_name_opcodes_number :
    ((number start shaped).flatMap (·.opcodes)).map (·.name) =
      (shaped.flatMap Prod.snd).map (·.name) := by
  induction shaped generalizing start with
  | nil => rfl
  | cons group shaped ih => simp [number, OpcodeDecl.map_name_number, ih]

theorem map_ordinal_opcodes_number (h : start + (shaped.flatMap Prod.snd).length ≤ 2 ^ 32) :
    ((number start shaped).flatMap (·.opcodes)).map (·.ordinal.toNat) =
      resolvedOrdinals ((shaped.flatMap Prod.snd).map (·.ordinal)) start := by
  induction shaped generalizing start with
  | nil => rfl
  | cons group shaped ih =>
    rw [List.flatMap_cons, List.length_append] at h
    rw [number, List.flatMap_cons, List.map_append, List.flatMap_cons, List.map_append,
      resolvedOrdinals_append, OpcodeDecl.map_ordinal_number (by omega), ih (by omega),
      List.length_map]

end OpcodeGroup

namespace OpcodeCatalog

variable {controls : List OpcodeDecl} {shaped : List (Arity × List OpcodeDecl)}

theorem map_name_numbered :
    (numbered controls shaped).all.map (·.name) =
      (controls ++ shaped.flatMap Prod.snd).map (·.name) := by
  rw [all, List.map_append, List.map_append]
  exact congrArg₂ _ OpcodeDecl.map_name_number OpcodeGroup.map_name_opcodes_number

theorem map_ordinal_numbered (h : (controls ++ shaped.flatMap Prod.snd).length ≤ 2 ^ 32) :
    (numbered controls shaped).all.map (·.ordinal.toNat) =
      resolvedOrdinals ((controls ++ shaped.flatMap Prod.snd).map (·.ordinal)) := by
  rw [List.length_append] at h
  rw [all, List.map_append, List.map_append, resolvedOrdinals_append, List.length_map]
  refine congrArg₂ _ (OpcodeDecl.map_ordinal_number (by omega)) ?_
  rw [Nat.zero_add]
  exact OpcodeGroup.map_ordinal_opcodes_number h

end OpcodeCatalog

namespace CatalogDecl

variable {decl : CatalogDecl} {shaped : List (Arity × List OpcodeDecl)}

theorem flatMap_shaped (hs : Shaped decl.groups shaped) :
    shaped.flatMap Prod.snd = decl.numericDecls := by
  rw [List.flatMap, ← hs.opcodes, numericDecls, List.flatMap]

theorem handlers_resolved (hs : Shaped decl.groups shaped) :
    (decl.resolved shaped).opcodes.numeric.map (decl.resolved shaped).handlerName =
      decl.handlers := by
  have hn : (decl.resolved shaped).opcodes.numeric.map (·.name) =
      decl.numericDecls.map (·.name) :=
    OpcodeGroup.map_name_opcodes_number.trans (by rw [flatMap_shaped hs])
  calc (decl.resolved shaped).opcodes.numeric.map (decl.resolved shaped).handlerName
      = ((decl.resolved shaped).opcodes.numeric.map (·.name)).map decl.naming.handlerName := by
        rw [List.map_map]
        rfl
    _ = decl.handlers := by
        rw [hn, List.map_map]
        rfl

theorem dispatchable_resolved_ne_nil :
    (decl.resolved shaped).types.dispatchable ≠ [] ↔
      ∃ type ∈ decl.types, type.name ∉ decl.exclude := by
  have hall : (∀ type ∈ TypeDecl.resolveAll decl.types, type.name ∈ decl.exclude) ↔
      ∀ type ∈ decl.types, type.name ∈ decl.exclude :=
    forall_mem_iff_of_map_eq (P := (· ∈ decl.exclude)) (TypeDecl.map_name_resolveAll _)
  have hnil : (decl.resolved shaped).types.dispatchable = [] ↔
      ∀ type ∈ TypeDecl.resolveAll decl.types, type.name ∈ decl.exclude := by
    simp [List.eq_nil_iff_forall_not_mem, TypeCatalog.mem_dispatchable, resolved]
  rw [Ne, hnil, hall]
  simp

theorem types_valid_iff (ht : decl.types.length ≤ 2 ^ 32) :
    (decl.resolved shaped).types.Valid ↔
      decl.types ≠ [] ∧ (∀ type ∈ decl.types, Text.isIdentifier type.name) ∧
        (∀ type ∈ decl.types, Text.isTypeToken type.tokenText) ∧
        (decl.types.map (·.name)).Nodup ∧ decl.typeOrdinals.Nodup ∧
        ∀ name ∈ decl.exclude, name ∈ decl.types.map (·.name) := by
  have hnat : Function.Injective UInt32.toNat := fun _ _ => UInt32.toNat_inj.1
  have hname := TypeDecl.map_name_resolveAll decl.types
  have hne : TypeDecl.resolveAll decl.types ≠ [] ↔ decl.types ≠ [] := by simp [TypeDecl.resolveAll]
  have hids := forall_mem_iff_of_map_eq (P := fun name => Text.isIdentifier name = true) hname
  have htokens := forall_mem_iff_of_map_eq (P := fun token => Text.isTypeToken token = true)
    (TypeDecl.map_token_resolveAll decl.types)
  have hords : ((TypeDecl.resolveAll decl.types).map (·.ordinal)).Nodup ↔
      decl.typeOrdinals.Nodup := by
    rw [← List.nodup_map_iff hnat, List.map_map, typeOrdinals, ← TypeDecl.map_ordinal_resolveAll ht]
    rfl
  rw [← hne, ← hids, ← htokens, ← hords, ← hname]
  exact ⟨fun h => ⟨h.nonempty, h.names, h.tokens, h.names_nodup, h.ordinals_nodup,
    h.exclusions_declared⟩, fun ⟨h1, h2, h3, h4, h5, h6⟩ => ⟨h1, h2, h3, h4, h5, h6⟩⟩

theorem opcodes_valid_iff (hs : Shaped decl.groups shaped)
    (ho : decl.opcodeDecls.length ≤ 2 ^ 32) :
    (decl.resolved shaped).opcodes.Valid ↔
      (decl.groups.map (·.arity)).Nodup ∧ (∀ group ∈ decl.groups, group.opcodes ≠ []) ∧
        (∀ op ∈ decl.opcodeDecls, Text.isIdentifier op.name) ∧
        (decl.opcodeDecls.map (·.name)).Nodup ∧ decl.opcodeOrdinals.Nodup := by
  have hnat : Function.Injective UInt32.toNat := fun _ _ => UInt32.toNat_inj.1
  have hflat : decl.control ++ shaped.flatMap Prod.snd = decl.opcodeDecls := by
    rw [flatMap_shaped hs, opcodeDecls]
  have hname : (decl.resolved shaped).opcodes.all.map (·.name) =
      decl.opcodeDecls.map (·.name) := by
    rw [← hflat]
    exact OpcodeCatalog.map_name_numbered
  have hids := forall_mem_iff_of_map_eq (P := fun name => Text.isIdentifier name = true) hname
  have hords : ((decl.resolved shaped).opcodes.all.map (·.ordinal)).Nodup ↔
      decl.opcodeOrdinals.Nodup := by
    rw [← List.nodup_map_iff hnat, List.map_map, opcodeOrdinals, ← hflat,
      ← OpcodeCatalog.map_ordinal_numbered (by rw [hflat]; exact ho)]
    rfl
  rw [hs.arities_nodup_iff, hs.nonempty_iff, ← hids, ← hords, ← hname]
  constructor
  · intro h
    refine ⟨?_, OpcodeGroup.nonempty_number_iff.1 h.groups_nonempty, h.names, h.names_nodup,
      h.ordinals_nodup⟩
    rw [← OpcodeGroup.map_arity_number]
    exact h.arities_nodup
  · rintro ⟨ha, hne, hid, hn, hord⟩
    refine ⟨?_, OpcodeGroup.nonempty_number_iff.2 hne,
      fun _ hg _ hop => OpcodeGroup.kind_of_mem_number hg hop,
      fun _ hop => OpcodeDecl.kind_of_mem_number hop, hid, hn, hord⟩
    rw [← OpcodeGroup.map_arity_number] at ha
    exact ha

/-- A resolved catalog is valid when its declaration is well formed; the arities are already
supported, as the groups have a shape. -/
theorem valid_resolved_iff (hs : Shaped decl.groups shaped) (ht : decl.types.length ≤ 2 ^ 32)
    (ho : decl.opcodeDecls.length ≤ 2 ^ 32) : (decl.resolved shaped).Valid ↔ decl.WellFormed := by
  have hhandlers := handlers_resolved hs
  have hids : (∀ op ∈ (decl.resolved shaped).opcodes.numeric,
      Text.isIdentifier ((decl.resolved shaped).handlerName op)) ↔
      ∀ handler ∈ decl.handlers, Text.isIdentifier handler := by
    rw [← hhandlers, List.forall_mem_map]
  have hbase : (∀ type ∈ (decl.resolved shaped).types.types,
      type.ordinal < (decl.resolved shaped).scheme.base) ↔
      ∀ ordinal ∈ decl.typeOrdinals, ordinal < decl.base.toNat := by
    rw [typeOrdinals, ← TypeDecl.map_ordinal_resolveAll ht, List.forall_mem_map]
    exact Iff.rfl
  have hnumeric : (decl.resolved shaped).opcodes.numeric ≠ [] ↔ decl.numericDecls ≠ [] := by
    rw [Ne, ← List.map_eq_nil_iff (f := (decl.resolved shaped).handlerName), hhandlers, handlers,
      List.map_eq_nil_iff]
  constructor
  · intro h
    obtain ⟨t1, t2, t3, t4, t5, t6⟩ := (types_valid_iff ht).1 h.types
    obtain ⟨o1, o2, o3, o4, o5⟩ := (opcodes_valid_iff hs ho).1 h.opcodes
    exact {
      types_nonempty := t1
      type_names := t2
      type_tokens := t3
      type_names_nodup := t4
      type_ordinals_nodup := t5
      exclusions_declared := t6
      arities_supported := hs.supported
      arities_nodup := o1
      groups_nonempty := o2
      opcode_names := o3
      opcode_names_nodup := o4
      opcode_ordinals_nodup := o5
      base_exceeds := hbase.1 h.ordinal_lt_base
      handler_names := hids.1 h.handlers
      handlers_nodup := hhandlers ▸ h.handlers_nodup
      some_dispatchable := dispatchable_resolved_ne_nil.1 h.dispatchable_ne_nil
      some_numeric := hnumeric.1 h.numeric_ne_nil }
  · intro h
    exact {
      types := (types_valid_iff ht).2 ⟨h.types_nonempty, h.type_names, h.type_tokens,
        h.type_names_nodup, h.type_ordinals_nodup, h.exclusions_declared⟩
      opcodes := (opcodes_valid_iff hs ho).2 ⟨h.arities_nodup, h.groups_nonempty, h.opcode_names,
        h.opcode_names_nodup, h.opcode_ordinals_nodup⟩
      ordinal_lt_base := hbase.2 h.base_exceeds
      handlers := hids.2 h.handler_names
      handlers_nodup := hhandlers ▸ h.handlers_nodup
      dispatchable_ne_nil := dispatchable_resolved_ne_nil.2 h.some_dispatchable
      numeric_ne_nil := hnumeric.2 h.some_numeric }

/-- The builder accepts exactly the well-formed declarations. -/
theorem accepted_iff_wellFormed (decl : CatalogDecl) (ht : decl.types.length < 2 ^ 32)
    (ho : decl.opcodeDecls.length < 2 ^ 32) :
    (∃ c, decl.build = .ok c) ↔ decl.WellFormed := by
  simp only [build_eq_ok_iff]
  constructor
  · rintro ⟨_, shaped, hs, rfl, hc⟩
    exact (valid_resolved_iff hs (Nat.le_of_lt ht) (Nat.le_of_lt ho)).1 hc
  · intro h
    obtain ⟨shaped, hs⟩ := exists_shaped h.arities_supported
    exact ⟨_, shaped, hs, rfl, (valid_resolved_iff hs (Nat.le_of_lt ht) (Nat.le_of_lt ho)).2 h⟩

/-- A declaration in which explicit and default ordinals, controls and groups mix. -/
def mixed : CatalogDecl where
  base := 4
  naming := { opcodePrefix := "VE_", handlerPrefix := "run_" }
  types := [{ name := "INT32", token := some "i32", ordinal := some 3 }, { name := "FLOAT64" },
    { name := "UNKNOWN" }]
  exclude := ["UNKNOWN", "UNKNOWN"]
  control := [{ name := "NONE", ordinal := some 9 }, { name := "SYNC" }]
  groups := [⟨1, [{ name := "VE_NEG" }]⟩,
    ⟨2, [{ name := "ADD", ordinal := some 0 }, { name := "MUL" }]⟩]

theorem wellFormed_mixed :
    (mixed.types.length < 2 ^ 32 ∧ mixed.opcodeDecls.length < 2 ^ 32) ∧
      (∃ c, mixed.build = .ok c) ∧ mixed.WellFormed := by
  have hok : ∃ c, mixed.build = .ok c := exists_eq_ok (by decide +kernel)
  exact ⟨by decide, hok, (accepted_iff_wellFormed mixed (by decide) (by decide)).1 hok⟩

end CatalogDecl

/-- Two binary opcodes on two types, under the default base. -/
def CatalogDecl.addMul : CatalogDecl where
  name := "add-mul"
  types := [{ name := "INT32", token := some "i32" }, { name := "FLOAT64", token := some "f64" }]
  control := [{ name := "SYNC" }]
  groups := [⟨2, [{ name := "ADD" }, { name := "MUL" }]⟩]

/-- `addMul`, resolved: `SYNC`, `ADD` and `MUL` have the ordinals 0, 1 and 2. -/
def Catalog.addMul : Catalog :=
  CatalogDecl.addMul.resolved
    [(⟨2, by decide, by decide⟩, [{ name := "ADD" }, { name := "MUL" }])]

theorem build_addMul : CatalogDecl.addMul.build = .ok Catalog.addMul := by
  decide +kernel

end DispatchGen
