import DispatchGen.Proofs.Valid

/-!
# What the catalog's checks complain about

The counterpart of the checks' `_eq_ok_iff`: for each check of `CatalogDecl.build`, what it has found
when it fails, and the fault that says so. A check that compares a member with earlier ones complains
about two members that stand in a list in this order (`InOrder`,
`exists_of_checkEach_eq_error`).
-/

namespace DispatchGen

/-! ## Two members in order -/

/-- `first` and `second` stand in a list at the positions `i` and `j`, in this order. -/
structure InOrder {α : Type} (xs : List α) (i j : Nat) (first second : α) : Prop where
  lt : i < j
  first_eq : xs[i]? = some first
  second_eq : xs[j]? = some second

namespace InOrder

variable {α β : Type} {xs : List α} {i j : Nat} {x y : α}

/-- A member in front of another. -/
theorem of_split {front rest : List α} (hs : xs = front ++ y :: rest) (hx : x ∈ front) :
    ∃ i j, InOrder xs i j x y := by
  obtain ⟨i, hi⟩ := List.mem_iff_getElem?.1 hx
  have hlt : i < front.length := (List.getElem?_eq_some_iff.1 hi).1
  refine ⟨i, front.length, hlt, ?_, ?_⟩
  · rw [hs, List.getElem?_append_left hlt, hi]
  · rw [hs, List.getElem?_append_right (Nat.le_refl _), Nat.sub_self, List.getElem?_cons_zero]

theorem map (h : InOrder xs i j x y) (f : α → β) : InOrder (xs.map f) i j (f x) (f y) where
  lt := h.lt
  first_eq := by rw [List.getElem?_map, h.first_eq, Option.map_some]
  second_eq := by rw [List.getElem?_map, h.second_eq, Option.map_some]

/-- Two images in order are those of two members in order. -/
theorem of_map {f : α → β} {u v : β} (h : InOrder (xs.map f) i j u v) :
    ∃ x y, InOrder xs i j x y ∧ f x = u ∧ f y = v := by
  have hfirst := h.first_eq
  have hsecond := h.second_eq
  rw [List.getElem?_map, Option.map_eq_some_iff] at hfirst hsecond
  obtain ⟨x, hx, rfl⟩ := hfirst
  obtain ⟨y, hy, rfl⟩ := hsecond
  exact ⟨x, y, ⟨h.lt, hx, hy⟩, rfl, rfl⟩

theorem zipIdx (h : InOrder xs i j x y) : InOrder xs.zipIdx i j (x, i) (y, j) where
  lt := h.lt
  first_eq := by rw [List.getElem?_zipIdx, h.first_eq, Option.map_some, Nat.zero_add]
  second_eq := by rw [List.getElem?_zipIdx, h.second_eq, Option.map_some, Nat.zero_add]

theorem of_zipIdx {u v : α × Nat} (h : InOrder xs.zipIdx i j u v) :
    ∃ x y, InOrder xs i j x y ∧ u = (x, i) ∧ v = (y, j) := by
  have hfirst := h.first_eq
  have hsecond := h.second_eq
  rw [List.getElem?_zipIdx, Option.map_eq_some_iff, Nat.zero_add] at hfirst hsecond
  obtain ⟨x, hx, rfl⟩ := hfirst
  obtain ⟨y, hy, rfl⟩ := hsecond
  exact ⟨x, y, ⟨h.lt, hx, hy⟩, rfl, rfl⟩

theorem not_nodup (h : InOrder xs i j x x) : ¬ xs.Nodup := fun hn =>
  List.nodup_iff_getElem?_ne_getElem?.1 hn i j h.lt (List.getElem?_eq_some_iff.1 h.second_eq).1
    (h.first_eq.trans h.second_eq.symm)

/-- Members without a key in common. -/
theorem ne_of_nodup_map (h : InOrder xs i j x y) {f : α → β} (hn : (xs.map f).Nodup) :
    f x ≠ f y := fun he => (he ▸ h.map f).not_nodup hn

end InOrder

/-! ## Stages and lists of checks -/

section
variable {ε α β : Type}

theorem bind_eq_error {x : Except ε α} {f : α → Except ε β} {e : ε} :
    (x >>= f) = .error e ↔ x = .error e ∨ ∃ a, x = .ok a ∧ f a = .error e := by
  cases x <;> simp [bind, Except.bind]

theorem throw_eq_error {e e' : ε} : (throw e : Except ε β) = .error e' ↔ e = e' := by
  simp [throw, throwThe, MonadExceptOf.throw]

theorem pure_ne_error {a : α} {e : ε} : (pure a : Except ε α) ≠ .error e := by
  simp [pure, Except.pure]

theorem guard_eq_error {p : Prop} [Decidable p] {e e' : ε} {rest : Unit → Except ε β} :
    (if p then throw e >>= rest else rest ()) = .error e' ↔
      p ∧ e = e' ∨ ¬ p ∧ rest () = .error e' := by
  split
  · next h => simp [h, bind_eq_error, throw_eq_error, throw_ne_ok]
  · next h => simp [h]

/-- The complaint is about a member, checked against members in front of it. -/
theorem exists_of_checkEach_eq_error {check : List α → α → Except ε Unit} {xs : List α} {e : ε}
    (h : checkEach check [] xs = .error e) :
    ∃ before x, x ∈ xs ∧ (∀ y ∈ before, ∃ i j, InOrder xs i j y x) ∧
      check before x = .error e := by
  obtain ⟨front, x, rest, hs, -, hx⟩ := checkEach_eq_error_iff.1 h
  rw [List.append_nil] at hx
  refine ⟨front.reverse, x, by simp [hs], fun y hy => ?_, hx⟩
  exact InOrder.of_split hs (List.mem_reverse.1 hy)

/-- What a search by a key finds. -/
theorem of_find?_key_eq_some [BEq β] [LawfulBEq β] {key : α → β} {k : β} {xs : List α} {x : α}
    (h : xs.find? (key · == k) = some x) : x ∈ xs ∧ key x = k :=
  ⟨List.mem_of_find?_eq_some h, beq_iff_eq.1 (List.find?_some h :)⟩

end

/-! ## The checks -/

theorem requireIdentifier_eq_error_iff {name : String} {fault : Fault} :
    requireIdentifier name = .error fault ↔
      Text.isIdentifier name = false ∧ fault = .invalidSymbol name := by
  unfold requireIdentifier
  cases Text.isIdentifier name <;> simp [eq_comm]

theorem requireTypeToken_eq_error_iff {text : String} {fault : Fault} :
    requireTypeToken text = .error fault ↔
      Text.isTypeToken text = false ∧ fault = .invalidSymbol text := by
  unfold requireTypeToken
  cases Text.isTypeToken text <;> simp [eq_comm]

/-! ### Types -/

namespace TypeCatalog

theorem checkType_eq_error {before : List ElementType} {type : ElementType} {fault : Fault}
    (h : checkType before type = .error fault) :
    (Text.isIdentifier type.name = false ∧ fault = .invalidSymbol type.name) ∨
      (Text.isTypeToken type.token = false ∧ fault = .invalidSymbol type.token) ∨
      (∃ first ∈ before, first.name = type.name ∧ fault = .repeatedType type.name) ∨
      ∃ first ∈ before, first.name ≠ type.name ∧ first.ordinal = type.ordinal ∧
        fault = .sharedTypeOrdinal type.ordinal first.name type.name := by
  unfold checkType at h
  rcases check_bind_eq_error.1 h with h | ⟨-, h⟩
  · exact .inl (requireIdentifier_eq_error_iff.1 h)
  rcases check_bind_eq_error.1 h with h | ⟨-, h⟩
  · exact .inr (.inl (requireTypeToken_eq_error_iff.1 h))
  rcases guard_eq_error.1 h with ⟨hname, rfl⟩ | ⟨hname, h⟩
  · obtain ⟨first, hf, hn⟩ := List.any_eq_true.1 hname
    exact .inr (.inr (.inl ⟨first, hf, beq_iff_eq.1 hn, rfl⟩))
  · split at h
    · next first hf =>
      obtain ⟨hm, ho⟩ := of_find?_key_eq_some hf
      have hn : first.name ≠ type.name := fun hn =>
        hname (List.any_eq_true.2 ⟨first, hm, beq_iff_eq.2 hn⟩)
      obtain rfl := throw_eq_error.1 h
      exact .inr (.inr (.inr ⟨first, hm, hn, ho, rfl⟩))
    · exact absurd h pure_ne_error

theorem checkExclusion_eq_error_iff {types : List ElementType} {name : String} {fault : Fault} :
    checkExclusion types name = .error fault ↔
      name ∉ types.map (·.name) ∧ fault = .unknownExclusion name := by
  rw [← checkExclusion_eq_ok_iff]
  unfold checkExclusion
  split <;> simp [eq_comm]

/-- No type has an ordinal above the largest. -/
theorem le_maxOrdinal {c : TypeCatalog} {type : ElementType} (ht : type ∈ c.types) :
    type.ordinal ≤ c.maxOrdinal := by
  have hne : c.types ≠ [] := List.ne_nil_of_mem ht
  by_contra hlt
  have := (maxOrdinal_lt_iff hne).1 (UInt32.not_le.1 hlt) type ht
  exact UInt32.lt_irrefl _ this

theorem foldl_max_mem (types : List ElementType) (start : UInt32) :
    types.foldl (fun largest type => max largest type.ordinal) start ∈
      start :: types.map (·.ordinal) := by
  induction types generalizing start with
  | nil => exact List.mem_singleton_self start
  | cons type types ih =>
    have hmax : max start type.ordinal = start ∨ max start type.ordinal = type.ordinal := by
      simp only [Max.max]
      split <;> simp
    rw [List.foldl_cons, List.map_cons]
    rcases List.mem_cons.1 (ih (max start type.ordinal)) with hm | hm
    · rw [hm]
      rcases hmax with hmax | hmax <;> simp [hmax]
    · exact List.mem_cons_of_mem _ (List.mem_cons_of_mem _ hm)

theorem maxOrdinal_mem {c : TypeCatalog} (hne : c.types ≠ []) :
    c.maxOrdinal ∈ c.types.map (·.ordinal) := by
  rcases List.mem_cons.1 (foldl_max_mem c.types 0) with hzero | hm
  · -- every ordinal is zero
    obtain ⟨type, ht⟩ := List.exists_mem_of_ne_nil _ hne
    have hle : type.ordinal ≤ 0 := hzero ▸ le_maxOrdinal ht
    have htype : type.ordinal = c.maxOrdinal := by
      rw [maxOrdinal, hzero]
      exact UInt32.le_zero_iff.1 hle
    exact htype ▸ List.mem_map_of_mem ht
  · exact hm

end TypeCatalog

/-! ### Opcodes -/

theorem GroupDecl.checkShape_eq_error {before : List GroupDecl} {group : GroupDecl} {fault : Fault}
    (h : checkShape before group = .error fault) :
    (¬ (1 ≤ group.arity.toInt ∧ group.arity.toInt ≤ maxArity) ∧
        fault = .unsupportedArity group.arity.toInt) ∨
      ∃ count : Nat, group.arity.toInt = count ∧
        ((group.opcodes = [] ∧ fault = .emptyGroup count) ∨
          ∃ first ∈ before, first.arity = group.arity ∧ fault = .repeatedArity count) := by
  unfold checkShape at h
  rcases bind_eq_error.1 h with h | ⟨arity, ha, h⟩
  · left
    rw [← exists_requireArity]
    refine ⟨fun ⟨a, ha⟩ => by simp [ha] at h, ?_⟩
    unfold requireArity at h
    split at h
    · cases h
    · exact (Except.error.inj h).symm
  · refine .inr ⟨arity.count, (requireArity_eq_ok_iff.1 ha).symm, ?_⟩
    rcases guard_eq_error.1 h with ⟨hempty, rfl⟩ | ⟨-, h⟩
    · exact .inl ⟨List.isEmpty_iff.1 hempty, rfl⟩
    · split at h
      · next hany =>
        obtain ⟨first, hf, hn⟩ := List.any_eq_true.1 hany
        obtain rfl := throw_eq_error.1 h
        exact .inr ⟨first, hf, beq_iff_eq.1 hn, rfl⟩
      · exact absurd h pure_ne_error

namespace OpcodeCatalog

theorem checkName_eq_error {before : List Opcode} {op : Opcode} {fault : Fault}
    (h : checkName before op = .error fault) :
    (Text.isIdentifier op.name = false ∧ fault = .invalidSymbol op.name) ∨
      ∃ first ∈ before, first.name = op.name ∧ fault = clash first op := by
  unfold checkName at h
  rcases check_bind_eq_error.1 h with h | ⟨-, h⟩
  · exact .inl (requireIdentifier_eq_error_iff.1 h)
  · split at h
    · next first hf =>
      obtain ⟨hm, hn⟩ := of_find?_key_eq_some hf
      obtain rfl := throw_eq_error.1 h
      exact .inr ⟨first, hm, hn, rfl⟩
    · exact absurd h pure_ne_error

theorem checkOrdinal_eq_error {before : List Opcode} {op : Opcode} {fault : Fault}
    (h : checkOrdinal before op = .error fault) :
    ∃ first ∈ before, first.ordinal = op.ordinal ∧
      fault = .sharedOpcodeOrdinal op.ordinal first.name op.name := by
  unfold checkOrdinal at h
  split at h
  · next first hf =>
    obtain ⟨hm, ho⟩ := of_find?_key_eq_some hf
    exact ⟨first, hm, ho, (Except.error.inj h).symm⟩
  · cases h

end OpcodeCatalog

/-! ### Base and handlers -/

theorem KeyScheme.forTypes_eq_error_iff {base : UInt32} {types : TypeCatalog} {fault : Fault} :
    forTypes base types = .error fault ↔
      base ≤ types.maxOrdinal ∧ fault = .baseTooSmall base types.maxOrdinal := by
  unfold forTypes
  rw [← UInt32.not_lt]
  split
  · next h => simp [h]
  · next h => simp [h, eq_comm]

theorem Catalog.checkHandler_eq_error {naming : Naming} {before : List Opcode} {op : Opcode}
    {fault : Fault} (h : checkHandler naming before op = .error fault) :
    (Text.isIdentifier (naming.handlerName op.name) = false ∧
        fault = .invalidSymbol (naming.handlerName op.name)) ∨
      ∃ first ∈ before, naming.handlerName first.name = naming.handlerName op.name ∧
        fault = .sharedHandler (naming.handlerName op.name) first.name op.name := by
  unfold checkHandler at h
  rcases check_bind_eq_error.1 h with h | ⟨-, h⟩
  · exact .inl (requireIdentifier_eq_error_iff.1 h)
  · split at h
    · next first hf =>
      obtain ⟨hm, hn⟩ := of_find?_key_eq_some hf
      obtain rfl := throw_eq_error.1 h
      exact .inr ⟨first, hm, hn, rfl⟩
    · exact absurd h pure_ne_error

end DispatchGen
