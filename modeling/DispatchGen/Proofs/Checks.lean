import DispatchGen.Catalog.Basic

/-!
# What the catalog's checks establish

Every check of `CatalogDecl.build` says something of one declaration alone and something of it
against each earlier declaration. `checkEach_eq_ok_iff_pairwise` turns a list of such checks into a
condition on every member and a condition on every two members, and each check below has its own
`_eq_ok_iff`: the check passes exactly when the condition holds.
-/

namespace DispatchGen

/-! ## Faults and stages -/

section
variable {ε α β : Type}

theorem bind_eq_ok {x : Except ε α} {f : α → Except ε β} {b : β} :
    (x >>= f) = .ok b ↔ ∃ a, x = .ok a ∧ f a = .ok b := by
  cases x <;> simp [bind, Except.bind]

theorem exists_eq_ok {x : Except ε α} (h : x.isOk = true) : ∃ a, x = .ok a := by
  cases x with
  | error => cases h
  | ok a => exact ⟨a, rfl⟩

/-- A check in front of the rest of a stage. -/
theorem check_bind_eq_ok {x : Except ε Unit} {f : Unit → Except ε β} {b : β} :
    (x >>= f) = .ok b ↔ x = .ok () ∧ f () = .ok b := by
  cases x <;> simp [bind, Except.bind]

theorem check_bind_eq_error {x : Except ε Unit} {f : Unit → Except ε β} {e : ε} :
    (x >>= f) = .error e ↔ x = .error e ∨ x = .ok () ∧ f () = .error e := by
  cases x <;> simp [bind, Except.bind]

theorem pure_eq_ok {a b : α} : (pure a : Except ε α) = .ok b ↔ a = b := by
  simp [pure, Except.pure]

theorem throw_ne_ok {e : ε} {b : β} : (throw e : Except ε β) ≠ .ok b := by
  simp [throw, throwThe, MonadExceptOf.throw]

/-- A conditional `throw` in front of the rest of a stage. -/
theorem guard_eq_ok {p : Prop} [Decidable p] {e : ε} {rest : Unit → Except ε β} {b : β} :
    (if p then throw e >>= rest else rest ()) = .ok b ↔ ¬p ∧ rest () = .ok b := by
  split
  · next h => simp [h, bind_eq_ok, throw_ne_ok]
  · next h => simp [h]

end

/-! ## Lists of checks -/

section
variable {α β ε : Type} {check : List α → α → Except ε Unit}

theorem forM_eq_ok_iff {check : α → Except ε Unit} {xs : List α} :
    forM xs check = .ok () ↔ ∀ x ∈ xs, check x = .ok () := by
  induction xs with
  | nil => simp [pure_eq_ok]
  | cons x xs ih => rw [List.forM_cons, check_bind_eq_ok, ih, List.forall_mem_cons]

theorem mapM_eq_pure_of_forall {m : Type → Type} [Monad m] [LawfulMonad m] {γ : Type} {f : α → m β}
    {g : γ → α} {k : γ → β} {xs : List γ} (h : ∀ x ∈ xs, f (g x) = pure (k x)) :
    (xs.map g).mapM f = pure (xs.map k) := by
  induction xs with
  | nil => rfl
  | cons x xs ih =>
    rw [List.map_cons, List.mapM_cons, h x List.mem_cons_self, pure_bind,
      ih fun y hy => h y (List.mem_cons_of_mem _ hy), pure_bind, List.map_cons]

/-- A traversal fails at the first member that it fails for, with the fault of that member. -/
theorem mapM_eq_error_iff {f : α → Except ε β} {xs : List α} {e : ε} :
    xs.mapM f = .error e ↔
      ∃ front x rest, xs = front ++ x :: rest ∧ (∀ y ∈ front, ∃ b, f y = .ok b) ∧
        f x = .error e := by
  induction xs with
  | nil => simp [pure, Except.pure]
  | cons x xs ih =>
    have hcons : (x :: xs).mapM f = .error e ↔
        f x = .error e ∨ (∃ b, f x = .ok b) ∧ xs.mapM f = .error e := by
      rw [List.mapM_cons]
      cases f x <;> cases xs.mapM f <;> simp [bind, Except.bind, pure, Except.pure]
    rw [hcons, ih]
    refine ⟨fun h => ?_, fun h => ?_⟩
    · rcases h with hx | ⟨hx, front, y, rest, rfl, hfront, hy⟩
      · exact ⟨[], x, xs, rfl, by simp, hx⟩
      · exact ⟨x :: front, y, rest, rfl, List.forall_mem_cons.2 ⟨hx, hfront⟩, hy⟩
    · obtain ⟨front, y, rest, hs, hfront, hy⟩ := h
      cases front with
      | nil =>
        obtain ⟨rfl, -⟩ := List.cons.inj hs
        exact .inl hy
      | cons z front =>
        obtain ⟨rfl, hrest⟩ := List.cons.inj hs
        obtain ⟨hx, hfront⟩ := List.forall_mem_cons.1 hfront
        exact .inr ⟨hx, front, y, rest, hrest, hfront, hy⟩

theorem map_of_mapM_eq_ok {γ : Type} {f : α → Except ε β} {g : α → γ} {k : β → γ}
    (hgk : ∀ x y, f x = .ok y → k y = g x) {xs : List α} {ys : List β} (h : xs.mapM f = .ok ys) :
    ys.map k = xs.map g := by
  induction xs generalizing ys with
  | nil =>
    obtain rfl : [] = ys := pure_eq_ok.1 h
    rfl
  | cons x xs ih =>
    simp only [List.mapM_cons, bind_eq_ok, pure_eq_ok] at h
    obtain ⟨y, hy, ys, hys, rfl⟩ := h
    rw [List.map_cons, List.map_cons, hgk x y hy, ih hys]

/-- Searching the results of a traversal finds what became of the member that the same search finds
among the inputs. -/
theorem find?_of_mapM_eq_ok {f : α → Except ε β} {p : β → Bool} {q : α → Bool}
    (hpq : ∀ x y, f x = .ok y → p y = q x) {xs : List α} {ys : List β} (h : xs.mapM f = .ok ys) :
    (xs.find? q = none ∧ ys.find? p = none) ∨
      ∃ x y, xs.find? q = some x ∧ ys.find? p = some y ∧ f x = .ok y := by
  induction xs generalizing ys with
  | nil =>
    obtain rfl : [] = ys := pure_eq_ok.1 h
    exact .inl ⟨rfl, rfl⟩
  | cons x xs ih =>
    simp only [List.mapM_cons, bind_eq_ok, pure_eq_ok] at h
    obtain ⟨y, hy, ys, hys, rfl⟩ := h
    rw [List.find?_cons, List.find?_cons, hpq x y hy]
    cases q x with
    | true => exact .inr ⟨x, y, rfl, rfl, hy⟩
    | false => exact ih hys

/-- Checks that only look at the member itself. -/
theorem checkEach_eq_ok_iff_forall {check : α → Except ε Unit} {before xs : List α} :
    checkEach (fun _ => check) before xs = .ok () ↔ ∀ x ∈ xs, check x = .ok () := by
  rw [checkEach_eq_ok_iff]
  refine ⟨fun h x hx => ?_, fun h front x rest hs => ?_⟩
  · obtain ⟨front, rest, hs⟩ := List.append_of_mem hx
    exact h front x rest hs
  · exact h x (by simp [hs])

/-- The first member that its own check refuses is complained about. -/
theorem checkEach_eq_error_iff_forall {check : α → Except ε Unit} {xs : List α} {e : ε} :
    checkEach (fun _ => check) [] xs = .error e ↔
      ∃ front x rest, xs = front ++ x :: rest ∧ (∀ y ∈ front, check y = .ok ()) ∧
        check x = .error e := by
  simp only [checkEach_eq_error_iff, checkEach_eq_ok_iff_forall]

theorem forM_eq_checkEach {check : α → Except ε Unit} {before xs : List α} :
    forM xs check = checkEach (fun _ => check) before xs := by
  induction xs generalizing before with
  | nil => rfl
  | cons x xs ih =>
    rw [List.forM_cons, checkEach]
    cases check x with
    | error => rfl
    | ok => exact ih

theorem forM_eq_error_iff {check : α → Except ε Unit} {xs : List α} {e : ε} :
    forM xs check = .error e ↔
      ∃ front x rest, xs = front ++ x :: rest ∧ (∀ y ∈ front, check y = .ok ()) ∧
        check x = .error e := by
  rw [forM_eq_checkEach, checkEach_eq_error_iff_forall]

/-- Checking the images of a list. -/
theorem checkEach_map {γ : Type} (check : α → Except ε Unit) (f : γ → α) {before : List γ}
    {before' : List α} (xs : List γ) :
    checkEach (fun _ x => check (f x)) before xs = checkEach (fun _ => check) before' (xs.map f) := by
  induction xs generalizing before before' with
  | nil => rfl
  | cons x xs ih =>
    rw [checkEach, List.map_cons, checkEach]
    cases check (f x) with
    | error => rfl
    | ok => exact ih

/-- A fold that fails where a check does, and goes on as `next` says where it does not. What carries
the induction is an invariant of the state, the members before and those to come. -/
theorem foldlM_eq_checkEach {σ : Type} {step : σ → α → Except ε σ} (next : σ → α → σ)
    (Inv : σ → List α → List α → Prop)
    (hstep : ∀ s before x rest, Inv s before (x :: rest) →
      step s x = (check before x).map fun _ => next s x)
    (hnext : ∀ s before x rest, Inv s before (x :: rest) → check before x = .ok () →
      Inv (next s x) (x :: before) rest)
    {s : σ} {before xs : List α} (h : Inv s before xs) :
    xs.foldlM step s = (checkEach check before xs).map (fun _ => xs.foldl next s) ∧
      (checkEach check before xs = .ok () → Inv (xs.foldl next s) (xs.reverse ++ before) []) := by
  induction xs generalizing s before with
  | nil => exact ⟨rfl, fun _ => h⟩
  | cons x rest ih =>
    rw [List.foldlM_cons, hstep s before x rest h, checkEach, List.foldl_cons]
    cases hcheck : check before x with
    | error e => exact ⟨rfl, fun hok => by cases hok⟩
    | ok =>
      rw [List.reverse_cons, List.append_assoc]
      exact ih (hnext s before x rest h hcheck)

/-- What holds of every two members holds of every member and each of those before it. -/
theorem pairwise_iff_forall_append {R : α → α → Prop} {xs : List α} :
    xs.Pairwise R ↔ ∀ front x rest, xs = front ++ x :: rest → ∀ y ∈ front, R y x := by
  rw [List.pairwise_iff_forall_sublist]
  constructor
  · rintro h front x rest rfl y hy
    exact h (List.cons_sublist_iff.2 ⟨front, x :: rest, rfl, hy, by simp⟩)
  · intro h y x hsub
    obtain ⟨front, back, rfl, hy, hx⟩ := List.cons_sublist_iff.1 hsub
    obtain ⟨mid, rest, rfl⟩ := List.append_of_mem (List.singleton_sublist.1 hx)
    exact h (front ++ mid) x rest (List.append_assoc ..).symm y (List.mem_append_left mid hy)

/-- Checks that hold each member to `P` and, against every earlier member, to `R`. -/
theorem checkEach_eq_ok_iff_pairwise {P : α → Prop} {R : α → α → Prop}
    (h : ∀ before x, check before x = .ok () ↔ P x ∧ ∀ y ∈ before, R y x) (xs : List α) :
    checkEach check [] xs = .ok () ↔ (∀ x ∈ xs, P x) ∧ xs.Pairwise R := by
  rw [checkEach_eq_ok_iff, pairwise_iff_forall_append]
  simp only [h, List.append_nil, List.mem_reverse]
  constructor
  · intro hall
    refine ⟨fun x hx => ?_, fun front x rest hs => (hall front x rest hs).2⟩
    obtain ⟨front, rest, hs⟩ := List.append_of_mem hx
    exact (hall front x rest hs).1
  · rintro ⟨hP, hR⟩ front x rest hs
    exact ⟨hP x (by simp [hs]), hR front x rest hs⟩

/-- Checks against the earlier members alone. -/
theorem checkEach_eq_ok_iff_pairwise_of {R : α → α → Prop}
    (h : ∀ before x, check before x = .ok () ↔ ∀ y ∈ before, R y x) (xs : List α) :
    checkEach check [] xs = .ok () ↔ xs.Pairwise R := by
  have hP : ∀ before x, check before x = .ok () ↔ True ∧ ∀ y ∈ before, R y x := by
    simpa using h
  rw [checkEach_eq_ok_iff_pairwise hP]
  simp

end

/-! ## Types -/

namespace TypeCatalog

theorem checkType_eq_ok_iff (before : List ElementType) (type : ElementType) :
    checkType before type = .ok () ↔
      (Text.isIdentifier type.name ∧ Text.isTypeToken type.token) ∧
        ∀ t ∈ before, t.name ≠ type.name ∧ t.ordinal ≠ type.ordinal := by
  have hm : (∀ t ∈ before, t.name ≠ type.name ∧ t.ordinal ≠ type.ordinal) ↔
      ¬ before.any (·.name == type.name) ∧ before.find? (·.ordinal == type.ordinal) = none := by
    simp [List.find?_eq_none, forall_and]
  unfold checkType
  simp only [check_bind_eq_ok, guard_eq_ok, requireIdentifier_eq_ok_iff,
    requireTypeToken_eq_ok_iff, hm]
  cases before.find? (·.ordinal == type.ordinal) <;> simp [throw_ne_ok, pure_eq_ok, and_assoc]

theorem checkExclusion_eq_ok_iff {types : List ElementType} {name : String} :
    checkExclusion types name = .ok () ↔ name ∈ types.map (·.name) := by
  simp [checkExclusion]

end TypeCatalog

/-! ## Opcodes -/

theorem GroupDecl.requireArity_eq_ok_iff {group : GroupDecl} {a : Arity} :
    group.requireArity = .ok a ↔ (a.count : Int) = group.arity.toInt := by
  rw [← Arity.ofCount?_eq_some_iff, requireArity]
  cases Arity.ofCount? group.arity.toInt <;> simp

/-- A count from one to `maxArity` has an arity. -/
theorem GroupDecl.exists_requireArity {group : GroupDecl} :
    (∃ a, group.requireArity = .ok a) ↔ 1 ≤ group.arity.toInt ∧ group.arity.toInt ≤ maxArity := by
  rw [← Arity.isSome_ofCount?_iff, requireArity]
  cases Arity.ofCount? group.arity.toInt <;> simp

theorem GroupDecl.checkShape_eq_ok_iff (before : List GroupDecl) (group : GroupDecl) :
    checkShape before group = .ok () ↔
      ((1 ≤ group.arity.toInt ∧ group.arity.toInt ≤ maxArity) ∧ group.opcodes ≠ []) ∧
        ∀ g ∈ before, g.arity ≠ group.arity := by
  rw [← exists_requireArity]
  unfold checkShape
  simp only [bind_eq_ok, guard_eq_ok, List.isEmpty_iff]
  constructor
  · rintro ⟨a, ha, hne, h⟩
    split at h
    · exact absurd h throw_ne_ok
    · next hb => exact ⟨⟨⟨a, ha⟩, hne⟩, by simpa using hb⟩
  · rintro ⟨⟨⟨a, ha⟩, hne⟩, hb⟩
    refine ⟨a, ha, hne, ?_⟩
    rw [if_neg (by simpa using hb)]
    rfl

namespace OpcodeCatalog

theorem checkName_eq_ok_iff (before : List Opcode) (op : Opcode) :
    checkName before op = .ok () ↔ Text.isIdentifier op.name ∧ ∀ o ∈ before, o.name ≠ op.name := by
  have hm : (∀ o ∈ before, o.name ≠ op.name) ↔ before.find? (·.name == op.name) = none := by
    simp [List.find?_eq_none]
  unfold checkName
  simp only [check_bind_eq_ok, requireIdentifier_eq_ok_iff, hm]
  cases before.find? (·.name == op.name) <;> simp [throw_ne_ok, pure_eq_ok]

theorem checkOrdinal_eq_ok_iff (before : List Opcode) (op : Opcode) :
    checkOrdinal before op = .ok () ↔ ∀ o ∈ before, o.ordinal ≠ op.ordinal := by
  have hm : (∀ o ∈ before, o.ordinal ≠ op.ordinal) ↔
      before.find? (·.ordinal == op.ordinal) = none := by
    simp [List.find?_eq_none]
  unfold checkOrdinal
  rw [hm]
  cases before.find? (·.ordinal == op.ordinal) <;> simp

end OpcodeCatalog

/-! ## Base and handlers -/

theorem Catalog.checkHandler_eq_ok_iff (naming : Naming) (before : List Opcode) (op : Opcode) :
    checkHandler naming before op = .ok () ↔
      Text.isIdentifier (naming.handlerName op.name) ∧
        ∀ o ∈ before, naming.handlerName o.name ≠ naming.handlerName op.name := by
  have hm : (∀ o ∈ before, naming.handlerName o.name ≠ naming.handlerName op.name) ↔
      before.find? (naming.handlerName ·.name == naming.handlerName op.name) = none := by
    simp [List.find?_eq_none]
  unfold checkHandler
  simp only [check_bind_eq_ok, requireIdentifier_eq_ok_iff, hm]
  cases before.find? (naming.handlerName ·.name == naming.handlerName op.name) <;>
    simp [throw_ne_ok, pure_eq_ok]

end DispatchGen
