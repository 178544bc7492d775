import DispatchGen.Proofs.Acceptance
import DispatchGen.Proofs.Complaints
import DispatchGen.Proofs.OpcodePartition

/-!
# What a refusal says

Building a catalog goes through eight stages (`BuildStage`), each of which holds the declaration to a
condition of its own (`CatalogDecl.Passes`). A declaration may fail several of them at once, and in
several places; `CatalogDecl.refusal_explained` says that a refusal is always about the earliest stage
that the declaration fails, and that what it names is there: the fault describes a flaw of the
declaration in that stage (`CatalogDecl.Flaw`). Where a fault names two declarations, these stand at
two positions, the first named in front of the second (`InOrder`).
-/

namespace DispatchGen

/-- The stages of building a catalog. -/
inductive BuildStage where
  | types
  | exclusions
  | groupShapes
  | opcodeNames
  | opcodeOrdinals
  | base
  | handlers
  | emptiness
deriving DecidableEq, Repr

/-- The stages come in this order. -/
def BuildStage.index : BuildStage → Nat
  | types => 0
  | exclusions => 1
  | groupShapes => 2
  | opcodeNames => 3
  | opcodeOrdinals => 4
  | base => 5
  | handlers => 6
  | emptiness => 7

theorem BuildStage.index_injective : Function.Injective index := by
  intro a b h
  cases a <;> cases b <;> first | rfl | cases h

/-! ## Stages and flaws of a declaration -/

/-- The operand count of the group a place is in; the control set has none. -/
def Place.count? : Place → Option Int
  | controlSet => none
  | group arity => some arity.count

/-- The ordinal of a declaration that stands at a position. -/
def TypeDecl.ordinalAt (decl : TypeDecl) (position : Nat) : UInt32 :=
  decl.ordinal.getD (UInt32.ofNat position)

namespace CatalogDecl

section
variable (decl : CatalogDecl)

/-- Every opcode declaration, with the operand count of its group. -/
def placedOpcodes : List (Option Int × OpcodeDecl) :=
  decl.control.map (Prod.mk none) ++
    (spread (decl.groups.map fun group => (group.arity.toInt, group.opcodes))).map (Prod.map some id)

/-- The ordinals the types have at run time; positions count modulo `2 ^ 32`. -/
def typeWords : List UInt32 :=
  decl.types.zipIdx.map fun (type, position) => type.ordinalAt position

/-- The ordinals the opcodes have at run time. -/
def opcodeWords : List UInt32 :=
  decl.opcodeDecls.zipIdx.map fun (op, position) => op.ordinalAt position

/-- The declaration meets the condition of a stage. -/
def Passes : BuildStage → Prop
  | .types =>
    decl.types ≠ [] ∧
      (∀ type ∈ decl.types, Text.isIdentifier type.name ∧ Text.isTypeToken type.tokenText) ∧
      (decl.types.map (·.name)).Nodup ∧ decl.typeWords.Nodup
  | .exclusions => ∀ name ∈ decl.exclude, name ∈ decl.types.map (·.name)
  | .groupShapes =>
    (∀ group ∈ decl.groups,
      (1 ≤ group.arity.toInt ∧ group.arity.toInt ≤ maxArity) ∧ group.opcodes ≠ []) ∧
      (decl.groups.map (·.arity)).Nodup
  | .opcodeNames =>
    (∀ op ∈ decl.opcodeDecls, Text.isIdentifier op.name) ∧ (decl.opcodeDecls.map (·.name)).Nodup
  | .opcodeOrdinals => decl.opcodeWords.Nodup
  | .base => ∀ ordinal ∈ decl.typeWords, ordinal < decl.base
  | .handlers => (∀ handler ∈ decl.handlers, Text.isIdentifier handler) ∧ decl.handlers.Nodup
  | .emptiness => (∃ type ∈ decl.types, type.name ∉ decl.exclude) ∧ decl.numericDecls ≠ []

/-- What is wrong with a declaration in a stage, in the words of a fault. -/
inductive Flaw : BuildStage → Fault → Prop where
  | noTypes (empty : decl.types = []) : Flaw .types .noTypes
  | typeName {type : TypeDecl} (mem : type ∈ decl.types)
      (invalid : Text.isIdentifier type.name = false) : Flaw .types (.invalidSymbol type.name)
  | typeToken {type : TypeDecl} (mem : type ∈ decl.types)
      (invalid : Text.isTypeToken type.tokenText = false) :
      Flaw .types (.invalidSymbol type.tokenText)
  | repeatedType {i j : Nat} {first second : TypeDecl} {name : String}
      (order : InOrder decl.types i j first second) (first_name : first.name = name)
      (second_name : second.name = name) : Flaw .types (.repeatedType name)
  | sharedTypeOrdinal {i j : Nat} {first second : TypeDecl} {ordinal : UInt32}
      (order : InOrder decl.types i j first second) (names : first.name ≠ second.name)
      (first_ordinal : first.ordinalAt i = ordinal) (second_ordinal : second.ordinalAt j = ordinal) :
      Flaw .types (.sharedTypeOrdinal ordinal first.name second.name)
  | unknownExclusion {name : String} (mem : name ∈ decl.exclude)
      (unknown : name ∉ decl.types.map (·.name)) : Flaw .exclusions (.unknownExclusion name)
  | unsupportedArity {group : GroupDecl} (mem : group ∈ decl.groups)
      (unsupported : ¬ (1 ≤ group.arity.toInt ∧ group.arity.toInt ≤ maxArity)) :
      Flaw .groupShapes (.unsupportedArity group.arity.toInt)
  | emptyGroup {group : GroupDecl} {count : Nat} (mem : group ∈ decl.groups)
      (arity : group.arity.toInt = count) (empty : group.opcodes = []) :
      Flaw .groupShapes (.emptyGroup count)
  | repeatedArity {i j : Nat} {first second : GroupDecl} {count : Nat}
      (order : InOrder decl.groups i j first second) (first_arity : first.arity.toInt = count)
      (second_arity : second.arity.toInt = count) : Flaw .groupShapes (.repeatedArity count)
  | opcodeName {op : OpcodeDecl} (mem : op ∈ decl.opcodeDecls)
      (invalid : Text.isIdentifier op.name = false) : Flaw .opcodeNames (.invalidSymbol op.name)
  /-- The first place is not the control set, or the second is the control set as well. -/
  | repeatedOpcode {i j : Nat} {p q : Place} {first second : OpcodeDecl} {name : String}
      (order : InOrder decl.placedOpcodes i j (p.count?, first) (q.count?, second))
      (first_name : first.name = name) (second_name : second.name = name)
      (places : p = .controlSet → q = .controlSet) :
      Flaw .opcodeNames (.repeatedOpcode name p q)
  | controlInGroup {i j count : Nat} {first second : OpcodeDecl} {name : String}
      (order : InOrder decl.placedOpcodes i j (none, first) (some (count : Int), second))
      (first_name : first.name = name) (second_name : second.name = name) :
      Flaw .opcodeNames (.controlInGroup name count)
  | sharedOpcodeOrdinal {i j : Nat} {first second : OpcodeDecl} {ordinal : UInt32}
      (order : InOrder decl.opcodeDecls i j first second) (names : first.name ≠ second.name)
      (first_ordinal : first.ordinalAt i = ordinal) (second_ordinal : second.ordinalAt j = ordinal) :
      Flaw .opcodeOrdinals (.sharedOpcodeOrdinal ordinal first.name second.name)
  | baseTooSmall {largest : UInt32} (mem : largest ∈ decl.typeWords)
      (largest_le : ∀ ordinal ∈ decl.typeWords, ordinal ≤ largest) (small : decl.base ≤ largest) :
      Flaw .base (.baseTooSmall decl.base largest)
  | handlerName {op : OpcodeDecl} (mem : op ∈ decl.numericDecls)
      (invalid : Text.isIdentifier (decl.naming.handlerName op.name) = false) :
      Flaw .handlers (.invalidSymbol (decl.naming.handlerName op.name))
  | sharedHandler {i j : Nat} {first second : OpcodeDecl} {handler : String}
      (order : InOrder decl.numericDecls i j first second) (names : first.name ≠ second.name)
      (first_handler : decl.naming.handlerName first.name = handler)
      (second_handler : decl.naming.handlerName second.name = handler) :
      Flaw .handlers (.sharedHandler handler first.name second.name)
  | allExcluded (excluded : ∀ type ∈ decl.types, type.name ∈ decl.exclude) :
      Flaw .emptiness .nothingToDispatch
  | noNumeric (empty : decl.numericDecls = []) : Flaw .emptiness .nothingToDispatch

end

end CatalogDecl

/-! ## Stage by stage

For each stage, in the terms of the declaration: passing its check is meeting its condition, and its
error describes a flaw.
-/

/-- A member of one of two lists with the same images has its like in the other. -/
theorem exists_mem_of_map_eq {α β γ : Type} {f : α → γ} {g : β → γ} {xs : List α} {ys : List β}
    (h : xs.map f = ys.map g) {x : α} (hx : x ∈ xs) : ∃ y ∈ ys, g y = f x :=
  List.mem_map.1 (h ▸ List.mem_map_of_mem hx)

namespace CatalogDecl

variable {decl : CatalogDecl} {shaped : List (Arity × List OpcodeDecl)} {fault : Fault}

/-! ### Types and exclusions -/

theorem typeWords_eq : decl.typeWords = (TypeDecl.resolveAll decl.types).map (·.ordinal) := by
  rw [typeWords, TypeDecl.resolveAll, List.map_map]
  rfl

theorem resolveAll_eq_nil_iff : TypeDecl.resolveAll decl.types = [] ↔ decl.types = [] := by
  rw [TypeDecl.resolveAll, List.map_eq_nil_iff, List.zipIdx_eq_nil_iff]

theorem passes_types_iff : decl.Passes .types ↔
    TypeDecl.resolveAll decl.types ≠ [] ∧
      checkEach TypeCatalog.checkType [] (TypeDecl.resolveAll decl.types) = .ok () := by
  have hname := TypeDecl.map_name_resolveAll decl.types
  have hne : TypeDecl.resolveAll decl.types ≠ [] ↔ decl.types ≠ [] :=
    not_congr resolveAll_eq_nil_iff
  have hids := forall_mem_iff_of_map_eq (P := fun name => Text.isIdentifier name = true) hname
  have htokens := forall_mem_iff_of_map_eq (P := fun token => Text.isTypeToken token = true)
    (TypeDecl.map_token_resolveAll decl.types)
  rw [Passes, TypeCatalog.checkTypes_eq_ok_iff, hne, forall₂_and, forall₂_and, hids, htokens,
    hname, typeWords_eq]

theorem passes_exclusions_iff : decl.Passes .exclusions ↔
    checkEach (fun _ => TypeCatalog.checkExclusion (TypeDecl.resolveAll decl.types)) []
      decl.exclude = .ok () := by
  simp only [Passes, checkEach_eq_ok_iff_forall, TypeCatalog.checkExclusion_eq_ok_iff,
    TypeDecl.map_name_resolveAll]

theorem flaw_of_checkTypes
    (h : checkEach TypeCatalog.checkType [] (TypeDecl.resolveAll decl.types) = .error fault) :
    decl.Flaw .types fault := by
  obtain ⟨before, type, hm, horder, hcheck⟩ := exists_of_checkEach_eq_error h
  -- types in order are declarations in order
  have horder' : ∀ first ∈ before, ∃ i j x y, InOrder decl.types i j x y ∧ x.resolve i = first ∧
      y.resolve j = type := by
    intro first hfirst
    obtain ⟨i, j, ho⟩ := horder first hfirst
    obtain ⟨_, _, hzip, hx, hy⟩ := ho.of_map
    obtain ⟨x, y, hxy, rfl, rfl⟩ := hzip.of_zipIdx
    exact ⟨i, j, x, y, hxy, hx, hy⟩
  rcases TypeCatalog.checkType_eq_error hcheck with ⟨hname, rfl⟩ | ⟨htoken, rfl⟩ |
    ⟨first, hfirst, hname, rfl⟩ | ⟨first, hfirst, hname, hordinal, rfl⟩
  · obtain ⟨⟨x, i⟩, hx, rfl⟩ := List.mem_map.1 hm
    exact .typeName (List.fst_mem_of_mem_zipIdx hx) hname
  · obtain ⟨⟨x, i⟩, hx, rfl⟩ := List.mem_map.1 hm
    exact .typeToken (List.fst_mem_of_mem_zipIdx hx) htoken
  · obtain ⟨i, j, x, y, ho, rfl, rfl⟩ := horder' first hfirst
    exact .repeatedType ho hname rfl
  · obtain ⟨i, j, x, y, ho, rfl, rfl⟩ := horder' first hfirst
    exact .sharedTypeOrdinal ho hname hordinal rfl

theorem flaw_of_checkExclusions
    (h : checkEach (fun _ => TypeCatalog.checkExclusion (TypeDecl.resolveAll decl.types)) []
      decl.exclude = .error fault) : decl.Flaw .exclusions fault := by
  obtain ⟨_, name, hm, -, hcheck⟩ := exists_of_checkEach_eq_error h
  obtain ⟨hunknown, rfl⟩ := TypeCatalog.checkExclusion_eq_error_iff.1 hcheck
  rw [TypeDecl.map_name_resolveAll] at hunknown
  exact .unknownExclusion hm hunknown

/-- What the type catalog is refused for. -/
theorem ofTypes_eq_error
    (h : TypeCatalog.ofTypes (TypeDecl.resolveAll decl.types) decl.exclude = .error fault) :
    decl.Flaw .types fault ∨ decl.Passes .types ∧ decl.Flaw .exclusions fault := by
  unfold TypeCatalog.ofTypes at h
  rcases guard_eq_error.1 h with ⟨hempty, rfl⟩ | ⟨hne, h⟩
  · exact .inl (.noTypes (resolveAll_eq_nil_iff.1 (List.isEmpty_iff.1 hempty)))
  rcases check_bind_eq_error.1 h with h | ⟨htypes, h⟩
  · exact .inl (flaw_of_checkTypes h)
  rcases check_bind_eq_error.1 h with h | ⟨-, h⟩
  · exact .inr ⟨passes_types_iff.2 ⟨by simpa using hne, htypes⟩, flaw_of_checkExclusions h⟩
  · exact absurd h pure_ne_error

theorem passes_of_ofTypes {types : TypeCatalog}
    (h : TypeCatalog.ofTypes (TypeDecl.resolveAll decl.types) decl.exclude = .ok types) :
    types = ⟨TypeDecl.resolveAll decl.types, decl.exclude⟩ ∧
      decl.Passes .types ∧ decl.Passes .exclusions := by
  unfold TypeCatalog.ofTypes at h
  rw [guard_eq_ok, check_bind_eq_ok, check_bind_eq_ok, pure_eq_ok] at h
  obtain ⟨hne, htypes, hexclusions, rfl⟩ := h
  exact ⟨rfl, passes_types_iff.2 ⟨by simpa using hne, htypes⟩, passes_exclusions_iff.2 hexclusions⟩

/-! ### Opcodes -/

theorem flaw_of_checkShapes (h : checkEach GroupDecl.checkShape [] decl.groups = .error fault) :
    decl.Flaw .groupShapes fault := by
  obtain ⟨before, group, hm, horder, hcheck⟩ := exists_of_checkEach_eq_error h
  rcases GroupDecl.checkShape_eq_error hcheck with ⟨harity, rfl⟩ |
    ⟨count, hcount, ⟨hempty, rfl⟩ | ⟨first, hfirst, harity, rfl⟩⟩
  · exact .unsupportedArity hm harity
  · exact .emptyGroup hm hcount hempty
  · obtain ⟨i, j, ho⟩ := horder first hfirst
    exact .repeatedArity ho (by rw [harity, hcount]) hcount

/-- Two opcodes in order are two declarations in order. -/
theorem inOrder_declared {i j : Nat} {first second : Opcode}
    (h : InOrder (OpcodeCatalog.numbered decl.control shaped).all i j first second) :
    ∃ p q x y, InOrder (OpcodeCatalog.declared decl.control shaped) i j (p, x) (q, y) ∧
      first = ⟨x.name, x.ordinalAt i, p.kind⟩ ∧ second = ⟨y.name, y.ordinalAt j, q.kind⟩ := by
  rw [OpcodeCatalog.all_numbered] at h
  obtain ⟨_, _, hzip, rfl, rfl⟩ := h.of_map
  obtain ⟨⟨p, x⟩, ⟨q, y⟩, hxy, rfl, rfl⟩ := hzip.of_zipIdx
  exact ⟨p, q, x, y, hxy, rfl, rfl⟩

section
variable (hs : Shaped decl.groups shaped)
include hs

theorem placedOpcodes_eq : decl.placedOpcodes =
    (OpcodeCatalog.declared decl.control shaped).map (Prod.map Place.count? id) := by
  have hgroups : spread (decl.groups.map fun group => (group.arity.toInt, group.opcodes)) =
      (spread shaped).map (Prod.map (fun arity : Arity => (arity.count : Int)) id) := by
    rw [← spread_map]
    exact congrArg spread hs
  rw [placedOpcodes, hgroups, OpcodeCatalog.declared, List.map_append, List.map_map, List.map_map,
    List.map_map]
  rfl

theorem opcodeDecls_eq : decl.opcodeDecls =
    (OpcodeCatalog.declared decl.control shaped).map Prod.snd := by
  rw [OpcodeCatalog.map_snd_declared, flatMap_shaped hs, opcodeDecls]

theorem map_name_all : (OpcodeCatalog.numbered decl.control shaped).all.map (·.name) =
    decl.opcodeDecls.map (·.name) := by
  rw [OpcodeCatalog.map_name_numbered, flatMap_shaped hs, opcodeDecls]

theorem opcodeWords_eq : decl.opcodeWords =
    (OpcodeCatalog.numbered decl.control shaped).all.map (·.ordinal) := by
  rw [opcodeWords, opcodeDecls_eq hs, OpcodeCatalog.all_numbered, List.zipIdx_map, List.map_map,
    List.map_map]
  rfl

/-- The kinds of two opcodes tell where they were declared. -/
theorem flaw_of_clash {i j : Nat} {p q : Place} {x y : OpcodeDecl}
    (h : InOrder (OpcodeCatalog.declared decl.control shaped) i j (p, x) (q, y))
    (hname : x.name = y.name) : decl.Flaw .opcodeNames
      (OpcodeCatalog.clash ⟨x.name, x.ordinalAt i, p.kind⟩ ⟨y.name, y.ordinalAt j, q.kind⟩) := by
  have ho := h.map (Prod.map Place.count? id)
  rw [← placedOpcodes_eq hs] at ho
  cases p with
  | controlSet =>
    cases q with
    | controlSet => exact .repeatedOpcode ho hname rfl fun _ => rfl
    | group arity => exact .controlInGroup ho hname rfl
  | group arity =>
    cases q with
    | controlSet => exact .repeatedOpcode (p := .group arity) ho hname rfl nofun
    | group => exact .repeatedOpcode (p := .group arity) ho hname rfl nofun

theorem flaw_of_checkNames (h : checkEach OpcodeCatalog.checkName []
    (OpcodeCatalog.numbered decl.control shaped).all = .error fault) :
    decl.Flaw .opcodeNames fault := by
  obtain ⟨before, op, hm, horder, hcheck⟩ := exists_of_checkEach_eq_error h
  rcases OpcodeCatalog.checkName_eq_error hcheck with ⟨hname, rfl⟩ | ⟨first, hfirst, hname, rfl⟩
  · obtain ⟨x, hx, hxname⟩ := exists_mem_of_map_eq (map_name_all hs) hm
    rw [← hxname] at hname ⊢
    exact .opcodeName hx hname
  · obtain ⟨i, j, ho⟩ := horder first hfirst
    obtain ⟨p, q, x, y, hxy, rfl, rfl⟩ := inOrder_declared ho
    exact flaw_of_clash hs hxy hname

theorem flaw_of_checkOrdinals (hnames : (decl.opcodeDecls.map (·.name)).Nodup)
    (h : checkEach OpcodeCatalog.checkOrdinal []
      (OpcodeCatalog.numbered decl.control shaped).all = .error fault) :
    decl.Flaw .opcodeOrdinals fault := by
  obtain ⟨before, op, hm, horder, hcheck⟩ := exists_of_checkEach_eq_error h
  obtain ⟨first, hfirst, hordinal, rfl⟩ := OpcodeCatalog.checkOrdinal_eq_error hcheck
  obtain ⟨i, j, ho⟩ := horder first hfirst
  obtain ⟨p, q, x, y, hxy, rfl, rfl⟩ := inOrder_declared ho
  have hdecls := hxy.map Prod.snd
  rw [← opcodeDecls_eq hs] at hdecls
  exact .sharedOpcodeOrdinal hdecls (hdecls.ne_of_nodup_map hnames) hordinal rfl

theorem passes_opcodeNames_iff : decl.Passes .opcodeNames ↔
    checkEach OpcodeCatalog.checkName []
      (OpcodeCatalog.numbered decl.control shaped).all = .ok () := by
  have hname := map_name_all hs
  have hids := forall_mem_iff_of_map_eq (P := fun name => Text.isIdentifier name = true) hname
  rw [Passes, OpcodeCatalog.checkNames_eq_ok_iff, hids, hname]

theorem passes_opcodeOrdinals_iff : decl.Passes .opcodeOrdinals ↔
    checkEach OpcodeCatalog.checkOrdinal []
      (OpcodeCatalog.numbered decl.control shaped).all = .ok () := by
  rw [Passes, OpcodeCatalog.checkOrdinals_eq_ok_iff, opcodeWords_eq hs]

end

/-- What the opcode catalog is refused for. -/
theorem ofDecls_eq_error (h : OpcodeCatalog.ofDecls decl.groups decl.control = .error fault) :
    decl.Flaw .groupShapes fault ∨ decl.Passes .groupShapes ∧
      (decl.Flaw .opcodeNames fault ∨
        decl.Passes .opcodeNames ∧ decl.Flaw .opcodeOrdinals fault) := by
  unfold OpcodeCatalog.ofDecls at h
  rcases check_bind_eq_error.1 h with h | ⟨hshapes, h⟩
  · exact .inl (flaw_of_checkShapes h)
  have hgroups := OpcodeCatalog.checkShapes_eq_ok_iff.1 hshapes
  refine .inr ⟨hgroups, ?_⟩
  -- the groups have passed, so that each has an arity
  obtain ⟨shaped, hs⟩ := exists_shaped fun group hg => (hgroups.1 group hg).1
  rw [shape_eq_ok_iff.2 hs] at h
  rcases check_bind_eq_error.1 h with h | ⟨hnames, h⟩
  · exact .inl (flaw_of_checkNames hs h)
  have hpasses := (passes_opcodeNames_iff hs).2 hnames
  rcases check_bind_eq_error.1 h with h | ⟨-, h⟩
  · exact .inr ⟨hpasses, flaw_of_checkOrdinals hs hpasses.2 h⟩
  · exact absurd h pure_ne_error

theorem passes_of_ofDecls {opcodes : OpcodeCatalog}
    (h : OpcodeCatalog.ofDecls decl.groups decl.control = .ok opcodes) :
    ∃ shaped, Shaped decl.groups shaped ∧ opcodes = OpcodeCatalog.numbered decl.control shaped ∧
      decl.Passes .groupShapes ∧ decl.Passes .opcodeNames ∧ decl.Passes .opcodeOrdinals := by
  unfold OpcodeCatalog.ofDecls at h
  rw [check_bind_eq_ok, bind_eq_ok] at h
  obtain ⟨hshapes, shaped, hshaped, h⟩ := h
  have hs := shape_eq_ok_iff.1 hshaped
  rw [check_bind_eq_ok, check_bind_eq_ok, pure_eq_ok] at h
  obtain ⟨hnames, hordinals, rfl⟩ := h
  exact ⟨shaped, hs, rfl, OpcodeCatalog.checkShapes_eq_ok_iff.1 hshapes,
    (passes_opcodeNames_iff hs).2 hnames, (passes_opcodeOrdinals_iff hs).2 hordinals⟩

/-! ### Base, handlers, emptiness -/

theorem flaw_of_forTypes (hne : decl.types ≠ [])
    (h : KeyScheme.forTypes decl.base ⟨TypeDecl.resolveAll decl.types, decl.exclude⟩ =
      .error fault) : decl.Flaw .base fault := by
  obtain ⟨hbase, rfl⟩ := KeyScheme.forTypes_eq_error_iff.1 h
  have hne' : TypeDecl.resolveAll decl.types ≠ [] := mt resolveAll_eq_nil_iff.1 hne
  refine .baseTooSmall ?_ ?_ hbase
  · rw [typeWords_eq]
    exact TypeCatalog.maxOrdinal_mem hne'
  · rw [typeWords_eq, List.forall_mem_map]
    exact fun type ht => TypeCatalog.le_maxOrdinal ht

theorem passes_of_forTypes (hne : decl.types ≠ []) {scheme : KeyScheme}
    (h : KeyScheme.forTypes decl.base ⟨TypeDecl.resolveAll decl.types, decl.exclude⟩ =
      .ok scheme) : decl.Passes .base := by
  have hne' : TypeDecl.resolveAll decl.types ≠ [] := mt resolveAll_eq_nil_iff.1 hne
  rw [Passes, typeWords_eq, List.forall_mem_map]
  exact (TypeCatalog.maxOrdinal_lt_iff hne').1 (KeyScheme.forTypes_eq_ok_iff.1 h).1

section
variable (hs : Shaped decl.groups shaped)
include hs

theorem map_name_numeric : (OpcodeCatalog.numbered decl.control shaped).numeric.map (·.name) =
    decl.numericDecls.map (·.name) := by
  rw [← flatMap_shaped hs]
  exact OpcodeGroup.map_name_opcodes_number

theorem flaw_of_checkHandlers (hnames : (decl.opcodeDecls.map (·.name)).Nodup)
    (h : checkEach (Catalog.checkHandler decl.naming) []
      (OpcodeCatalog.numbered decl.control shaped).numeric = .error fault) :
    decl.Flaw .handlers fault := by
  obtain ⟨before, op, hm, horder, hcheck⟩ := exists_of_checkEach_eq_error h
  rcases Catalog.checkHandler_eq_error hcheck with ⟨hhandler, rfl⟩ | ⟨first, hfirst, hhandler, rfl⟩
  · obtain ⟨x, hx, hname⟩ := exists_mem_of_map_eq (map_name_numeric hs) hm
    rw [← hname] at hhandler ⊢
    exact .handlerName hx hhandler
  · obtain ⟨i, j, ho⟩ := horder first hfirst
    have hmap := ho.map (·.name)
    rw [map_name_numeric hs] at hmap
    obtain ⟨x, y, hxy, hx, hy⟩ := hmap.of_map
    have hnumeric : (decl.numericDecls.map (·.name)).Nodup :=
      hnames.sublist ((List.sublist_append_right ..).map _)
    rw [← hx, ← hy] at hhandler ⊢
    exact .sharedHandler hxy (hxy.ne_of_nodup_map hnumeric) hhandler rfl

theorem passes_handlers_iff : decl.Passes .handlers ↔
    checkEach (Catalog.checkHandler decl.naming) []
      (OpcodeCatalog.numbered decl.control shaped).numeric = .ok () := by
  have hhandlers : (OpcodeCatalog.numbered decl.control shaped).numeric.map
      (decl.naming.handlerName ·.name) = decl.handlers := handlers_resolved hs
  rw [checkEach_eq_ok_iff_pairwise (Catalog.checkHandler_eq_ok_iff decl.naming), Passes,
    ← hhandlers, List.forall_mem_map, List.Nodup, List.pairwise_map]

theorem flaw_of_empty
    (h : (decl.resolved shaped).types.dispatchable = [] ∨
      (decl.resolved shaped).opcodes.numeric = []) :
    decl.Flaw .emptiness .nothingToDispatch := by
  rcases h with hd | hn
  · refine .allExcluded fun type ht => ?_
    by_contra hx
    exact dispatchable_resolved_ne_nil.2 ⟨type, ht, hx⟩ hd
  · have hnames : decl.numericDecls.map (·.name) = [] :=
      (map_name_numeric hs).symm.trans (List.map_eq_nil_iff.2 hn)
    exact .noNumeric (List.map_eq_nil_iff.1 hnames)

/-- What a catalog of accepted parts is refused for. -/
theorem ofParts_eq_error (ht : decl.Passes .types) (hn : decl.Passes .opcodeNames)
    (h : Catalog.ofParts decl.name (decl.resolved shaped).types (decl.resolved shaped).opcodes
      decl.base decl.naming = .error fault) :
    decl.Flaw .base fault ∨ decl.Passes .base ∧
      (decl.Flaw .handlers fault ∨ decl.Passes .handlers ∧ decl.Flaw .emptiness fault) := by
  unfold Catalog.ofParts at h
  rcases bind_eq_error.1 h with h | ⟨scheme, hscheme, h⟩
  · exact .inl (flaw_of_forTypes ht.1 h)
  refine .inr ⟨passes_of_forTypes ht.1 hscheme, ?_⟩
  rcases check_bind_eq_error.1 h with h | ⟨hhandlers, h⟩
  · exact .inl (flaw_of_checkHandlers hs hn.2 h)
  refine .inr ⟨(passes_handlers_iff hs).2 hhandlers, ?_⟩
  rcases guard_eq_error.1 h with ⟨hempty, rfl⟩ | ⟨-, h⟩
  · rw [Bool.or_eq_true, List.isEmpty_iff, List.isEmpty_iff] at hempty
    exact flaw_of_empty hs hempty
  · exact absurd h pure_ne_error

end

/-! ## The first stage that fails -/

/-- The stages in front of `stage` have nothing to complain about. -/
def PassesBefore (decl : CatalogDecl) (stage : BuildStage) : Prop :=
  ∀ earlier : BuildStage, earlier.index < stage.index → decl.Passes earlier

theorem passesBefore_types : decl.PassesBefore .types := fun _ h => absurd h (Nat.not_lt_zero _)

theorem PassesBefore.next {stage next : BuildStage} (h : decl.PassesBefore stage)
    (hs : decl.Passes stage) (hn : next.index = stage.index + 1) : decl.PassesBefore next := by
  intro earlier hlt
  by_cases he : earlier.index < stage.index
  · exact h earlier he
  · obtain rfl : earlier = stage := BuildStage.index_injective (by omega)
    exact hs

theorem map_snd_placedOpcodes : decl.placedOpcodes.map Prod.snd = decl.opcodeDecls := by
  have hgroups : (spread (decl.groups.map fun group => (group.arity.toInt, group.opcodes))).map
      Prod.snd = decl.numericDecls := by
    simp [spread, numericDecls, List.map_flatMap, List.flatMap_map, Function.comp_def]
  rw [placedOpcodes, List.map_append, List.map_map, List.map_map, opcodeDecls, ← hgroups]
  simp [Function.comp_def]

/-- A flaw of a stage is a violation of its condition. -/
theorem Flaw.not_passes {stage : BuildStage} (h : decl.Flaw stage fault) : ¬ decl.Passes stage := by
  -- wherever they stand, two opcodes of one name are too many
  have hnames : ∀ {i j : Nat} {u v : Option Int × OpcodeDecl} {name : String},
      InOrder decl.placedOpcodes i j u v → u.2.name = name → v.2.name = name →
        ¬ decl.Passes .opcodeNames := by
    intro i j u v name order hu hv hp
    have hdecls := order.map Prod.snd
    rw [map_snd_placedOpcodes] at hdecls
    exact hdecls.ne_of_nodup_map hp.2 (hu.trans hv.symm)
  intro hp
  cases h with
  | noTypes empty => exact hp.1 empty
  | typeName mem invalid => exact Bool.false_ne_true (invalid.symm.trans (hp.2.1 _ mem).1)
  | typeToken mem invalid => exact Bool.false_ne_true (invalid.symm.trans (hp.2.1 _ mem).2)
  | repeatedType order hfirst hsecond =>
    exact order.ne_of_nodup_map hp.2.2.1 (hfirst.trans hsecond.symm)
  | sharedTypeOrdinal order _ hfirst hsecond =>
    exact order.zipIdx.ne_of_nodup_map hp.2.2.2 (hfirst.trans hsecond.symm)
  | unknownExclusion mem unknown => exact unknown (hp _ mem)
  | unsupportedArity mem unsupported => exact unsupported (hp.1 _ mem).1
  | emptyGroup mem _ empty => exact (hp.1 _ mem).2 empty
  | repeatedArity order hfirst hsecond =>
    exact order.ne_of_nodup_map hp.2 (Int64.toInt_inj.1 (hfirst.trans hsecond.symm))
  | opcodeName mem invalid => exact Bool.false_ne_true (invalid.symm.trans (hp.1 _ mem))
  | repeatedOpcode order hfirst hsecond => exact hnames order hfirst hsecond hp
  | controlInGroup order hfirst hsecond => exact hnames order hfirst hsecond hp
  | sharedOpcodeOrdinal order _ hfirst hsecond =>
    exact order.zipIdx.ne_of_nodup_map hp (hfirst.trans hsecond.symm)
  | baseTooSmall mem _ small => exact UInt32.not_lt.2 small (hp _ mem)
  | handlerName mem invalid =>
    exact Bool.false_ne_true (invalid.symm.trans (hp.1 _ (List.mem_map_of_mem mem)))
  | sharedHandler order _ hfirst hsecond =>
    exact order.ne_of_nodup_map hp.2 (hfirst.trans hsecond.symm)
  | allExcluded excluded =>
    obtain ⟨type, mem, hx⟩ := hp.1
    exact hx (excluded type mem)
  | noNumeric empty => exact hp.2 empty

theorem exists_flaw_of_build_eq_error (h : decl.build = .error fault) :
    ∃ stage, decl.PassesBefore stage ∧ decl.Flaw stage fault := by
  unfold build at h
  rcases bind_eq_error.1 h with h | ⟨types, htypes, h⟩
  · rcases ofTypes_eq_error h with hf | ⟨ht, hf⟩
    · exact ⟨.types, passesBefore_types, hf⟩
    · exact ⟨.exclusions, passesBefore_types.next ht rfl, hf⟩
  obtain ⟨rfl, ht, hx⟩ := passes_of_ofTypes htypes
  have hshapes : decl.PassesBefore .groupShapes := (passesBefore_types.next ht rfl).next hx rfl
  rcases bind_eq_error.1 h with h | ⟨opcodes, hopcodes, h⟩
  · rcases ofDecls_eq_error h with hf | ⟨hg, hf | ⟨hn, hf⟩⟩
    · exact ⟨.groupShapes, hshapes, hf⟩
    · exact ⟨.opcodeNames, hshapes.next hg rfl, hf⟩
    · exact ⟨.opcodeOrdinals, (hshapes.next hg rfl).next hn rfl, hf⟩
  obtain ⟨shaped, hs, rfl, hg, hn, ho⟩ := passes_of_ofDecls hopcodes
  have hbase : decl.PassesBefore .base := ((hshapes.next hg rfl).next hn rfl).next ho rfl
  rcases ofParts_eq_error hs ht hn h with hf | ⟨hb, hf | ⟨hh, hf⟩⟩
  · exact ⟨.base, hbase, hf⟩
  · exact ⟨.handlers, hbase.next hb rfl, hf⟩
  · exact ⟨.emptiness, (hbase.next hb rfl).next hh rfl, hf⟩

/-- A refused declaration is refused for the earliest stage that it fails, with a fault that describes
a flaw of it in that stage. -/
theorem refusal_explained {decl : CatalogDecl} {fault : Fault} (h : decl.build = .error fault) :
    ∃ stage, (∀ earlier : BuildStage, earlier.index < stage.index → decl.Passes earlier) ∧
      ¬ decl.Passes stage ∧ decl.Flaw stage fault := by
  obtain ⟨stage, hbefore, hflaw⟩ := exists_flaw_of_build_eq_error h
  exact ⟨stage, hbefore, hflaw.not_passes, hflaw⟩

/-- `ADD` is declared as a control opcode and again in the group of two operands. That the ordinals
and the base are wrong as well goes unsaid. -/
theorem refusal_explained_controlInGroup :
    let decl : CatalogDecl := { addMul with
      base := 1
      control := [{ name := "SYNC", ordinal := some 1 }, { name := "ADD" }] }
    decl.build = .error (.controlInGroup "ADD" 2) ∧ ¬ decl.Passes .opcodeOrdinals ∧
      ¬ decl.Passes .base ∧ decl.Passes .groupShapes ∧
      ∃ i j first second, InOrder decl.placedOpcodes i j (none, first) (some 2, second) ∧
        first.name = "ADD" ∧ second.name = "ADD" := by
  intro decl
  have h : decl.build = .error (.controlInGroup "ADD" 2) := by decide +kernel
  obtain ⟨stage, hbefore, -, hflaw⟩ := refusal_explained h
  cases hflaw with
  | controlInGroup order hfirst hsecond =>
    refine ⟨h, ?_, ?_, hbefore .groupShapes (by decide), _, _, _, _, order, hfirst, hsecond⟩
    · rw [Passes]
      decide +kernel
    · intro hbase
      exact absurd (hbase 1 (by decide +kernel)) (by decide)

end CatalogDecl

end DispatchGen
