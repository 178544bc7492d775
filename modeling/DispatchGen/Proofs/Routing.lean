import DispatchGen.Dispatch.Dispatcher
import DispatchGen.Proofs.Emission

/-!
# The dispatcher of an accepted catalog

Indexing a catalog's own table and stubs always succeeds and gives `Catalog.dispatcher`, whose routes
are the pairs of the catalog under their keys (`Catalog.Valid.ofCatalog_eq`). A step therefore calls
the pair whose key the instruction's ordinals make, if there is one
(`Catalog.Valid.step_called_iff`), and a run is its steps in order (`Dispatcher.history_eq_map`).
-/

namespace DispatchGen

/-- The only member with a value of `f` is what filtering by the value leaves. -/
theorem filter_eq_singleton_of_nodup {α β : Type} [BEq β] [LawfulBEq β] {f : α → β} {xs : List α}
    (h : (xs.map f).Nodup) {x : α} (hx : x ∈ xs) : xs.filter (f · == f x) = [x] := by
  induction xs with
  | nil => simp at hx
  | cons y xs ih =>
    rw [List.map_cons, List.nodup_cons] at h
    rcases List.mem_cons.1 hx with rfl | hx
    · have hrest : xs.filter (f · == f x) = [] := by
        refine List.filter_eq_nil_iff.2 fun z hz e => h.1 ?_
        exact (beq_iff_eq.1 e) ▸ List.mem_map_of_mem hz
      rw [List.filter_cons_of_pos (by simp), hrest]
    · have hne : f y ≠ f x := fun e => h.1 (e ▸ List.mem_map_of_mem hx)
      rw [List.filter_cons_of_neg (by simpa using hne), ih h.2 hx]

/-! ## Indexing -/

namespace Catalog

variable {c : Catalog}

/-- The route of a pair. -/
def route (c : Catalog) (pair : Opcode × ElementType) : Route where
  key := c.key pair.1 pair.2
  handler := c.stub pair.1
  element := pair.2

/-- What indexing a catalog's own table and stubs gives. -/
def dispatcher (c : Catalog) : Dispatcher where
  scheme := c.scheme
  controls := c.opcodes.controls.map (·.ordinal)
  names := .ofList (c.opcodes.all.map fun op => (op.ordinal, op.name))
  routes := .ofValues (·.key) (c.pairs.map c.route)

namespace Valid

theorem get?_type (h : c.Valid) {type : ElementType} (ht : type ∈ c.types.types) :
    c.types.get? type.name = some type :=
  (find?_eq_some_iff_of_nodup h.types.names_nodup).2 ⟨ht, rfl⟩

/-- One stub has the handler of a numeric opcode. -/
theorem filter_stubs (h : c.Valid) {op : Opcode} (hop : op ∈ c.opcodes.numeric) :
    c.stubs.filter (·.name == c.handlerName op) = [c.stub op] := by
  have hnames : (c.stubs.map (·.name)).Nodup := by
    rw [stubs, List.map_map]
    exact h.handlers_nodup
  exact filter_eq_singleton_of_nodup hnames (List.mem_map_of_mem hop)

theorem getLast?_stub (h : c.Valid) {op : Opcode} (hop : op ∈ c.opcodes.numeric) :
    (c.stubs.filter (·.name == c.handlerName op)).getLast? = some (c.stub op) := by
  rw [h.filter_stubs hop]
  rfl

theorem ofArm_arm (h : c.Valid) {pair : Opcode × ElementType} (hp : pair ∈ c.pairs) :
    Route.ofArm c c.stubs (c.arm pair.1 pair.2) = .ok (c.route pair) := by
  obtain ⟨hop, ht⟩ := mem_pairs.1 hp
  rw [Route.ofArm, Route.find, Index.get?_ofValues,
    show (c.arm pair.1 pair.2).handler = c.handlerName pair.1 from rfl, h.getLast?_stub hop,
    show (c.arm pair.1 pair.2).element = pair.2.name from rfl,
    h.get?_type (TypeCatalog.mem_dispatchable.1 ht).1]
  rfl

theorem ofCatalog_eq (h : c.Valid) : Dispatcher.ofCatalog c = .ok c.dispatcher := by
  have hroutes : c.table.arms.mapM (Route.ofArm c c.stubs) = .ok (c.pairs.map c.route) :=
    mapM_eq_pure_of_forall fun pair hp => h.ofArm_arm hp
  have hcontrols : c.table.controls.map (·.ordinal) = c.opcodes.controls.map (·.ordinal) := by
    rw [table, List.map_map]
    rfl
  rw [Dispatcher.ofCatalog, h.emitTable_eq]
  change Dispatcher.ofParts c c.table c.stubs = _
  rw [Dispatcher.ofParts, h.verify_table, hroutes, hcontrols]
  rfl

theorem routes_keys_nodup (h : c.Valid) : ((c.pairs.map c.route).map (·.key)).Nodup := by
  rw [List.map_map]
  exact h.keys_nodup

theorem route?_eq_find? (h : c.Valid) (key : UInt64) :
    c.dispatcher.route? key = (c.pairs.map c.route).find? (·.key == key) :=
  Index.get?_ofValues_of_nodup key h.routes_keys_nodup

theorem route?_eq_some_iff (h : c.Valid) {key : UInt64} {route : Route} :
    c.dispatcher.route? key = some route ↔
      ∃ pair ∈ c.pairs, c.route pair = route ∧ c.key pair.1 pair.2 = key := by
  rw [h.route?_eq_find?, find?_eq_some_iff_of_nodup h.routes_keys_nodup]
  constructor
  · rintro ⟨hr, hk⟩
    obtain ⟨pair, hp, rfl⟩ := List.mem_map.1 hr
    exact ⟨pair, hp, rfl, hk⟩
  · rintro ⟨pair, hp, rfl, hk⟩
    exact ⟨List.mem_map_of_mem hp, hk⟩

end Valid

theorem isControl_dispatcher {opcode : UInt32} :
    c.dispatcher.isControl opcode = true ↔ opcode ∈ c.opcodes.controls.map (·.ordinal) := by
  rw [Dispatcher.isControl, List.contains_iff_mem]
  rfl

end Catalog

/-! ## Steps -/

/-- The pair of the catalog that the key of an opcode and a type ordinal stands for. -/
structure Catalog.Reads (c : Catalog) (opcode element : UInt32) (pair : Opcode × ElementType) :
    Prop where
  mem : pair ∈ c.pairs
  opcode_eq : pair.1.ordinal.toNat = opcode.toNat + element.toNat / c.scheme.base.toNat
  element_eq : pair.2.ordinal.toNat = element.toNat % c.scheme.base.toNat

/-- The call of a pair's handler on an instruction. -/
def Catalog.call (c : Catalog) (pair : Opcode × ElementType) (instruction : Instruction) : Call where
  handler := c.stub pair.1
  element := pair.2
  instruction

/-! What becomes of an instruction, whatever the routes: control opcodes are passed over, and
otherwise the route under the instruction's key is called, or there is none. -/

namespace Dispatcher

variable {d : Dispatcher} {i : Instruction}

theorem step_skipped (hc : d.isControl i.opcode = true) :
    d.step i = .skipped (d.opcodeText i.opcode) :=
  if_pos hc

theorem step_called {element : UInt32} {route : Route} (hc : d.isControl i.opcode = false)
    (he : i.operands.head? = some element)
    (hr : d.route? (d.scheme.derive i.opcode element) = some route) :
    d.step i = .called route.key
      { handler := route.handler, element := route.element, instruction := i } := by
  obtain ⟨rest, ho⟩ := List.head?_eq_some_iff.1 he
  rw [step, hc, ho]
  simp only [Bool.false_eq_true, ↓reduceIte, hr]

theorem step_refused (hc : d.isControl i.opcode = false)
    (hr : ∀ element, i.operands.head? = some element →
      d.route? (d.scheme.derive i.opcode element) = none) :
    d.step i = .refused (d.opcodeText i.opcode) := by
  rw [step, hc]
  cases ho : i.operands with
  | nil => rfl
  | cons element rest =>
    simp only [Bool.false_eq_true, ↓reduceIte, hr element (by rw [ho]; rfl)]

end Dispatcher

namespace Catalog.Valid

variable {c : Catalog}

theorem reads_iff (h : c.Valid) {opcode element : UInt32} {pair : Opcode × ElementType} :
    c.Reads opcode element pair ↔
      pair ∈ c.pairs ∧ c.key pair.1 pair.2 = c.scheme.derive opcode element := by
  have hkey : pair ∈ c.pairs → (c.scheme.derive opcode element = c.key pair.1 pair.2 ↔
      pair.1.ordinal.toNat = opcode.toNat + element.toNat / c.scheme.base.toNat ∧
        pair.2.ordinal.toNat = element.toNat % c.scheme.base.toNat) := fun hp =>
    KeyScheme.derive_eq_iff (h.ordinal_lt_of_dispatchable (mem_pairs.1 hp).2)
  constructor
  · rintro ⟨hp, ho, he⟩
    exact ⟨hp, ((hkey hp).2 ⟨ho, he⟩).symm⟩
  · rintro ⟨hp, e⟩
    obtain ⟨ho, he⟩ := (hkey hp).1 e.symm
    exact ⟨hp, ho, he⟩

theorem route?_derive (h : c.Valid) {opcode element : UInt32} {pair : Opcode × ElementType}
    (hr : c.Reads opcode element pair) :
    c.dispatcher.route? (c.scheme.derive opcode element) = some (c.route pair) := by
  obtain ⟨hp, hk⟩ := h.reads_iff.1 hr
  exact h.route?_eq_some_iff.2 ⟨pair, hp, rfl, hk⟩

theorem route?_derive_eq_none_iff (h : c.Valid) {opcode element : UInt32} :
    c.dispatcher.route? (c.scheme.derive opcode element) = none ↔
      ∀ pair, ¬ c.Reads opcode element pair := by
  rw [Option.eq_none_iff_forall_ne_some]
  constructor
  · intro hn pair hr
    exact hn _ (h.route?_derive hr)
  · intro hn route hr
    obtain ⟨pair, hp, -, hk⟩ := h.route?_eq_some_iff.1 hr
    exact hn pair (h.reads_iff.2 ⟨hp, hk⟩)

/-- No two pairs are read from one key. -/
theorem reads_unique (h : c.Valid) {opcode element : UInt32} {p q : Opcode × ElementType}
    (hp : c.Reads opcode element p) (hq : c.Reads opcode element q) : p = q :=
  h.key_inj hp.mem hq.mem ((h.reads_iff.1 hp).2.trans (h.reads_iff.1 hq).2.symm)

theorem step_reads (h : c.Valid) {i : Instruction} {element : UInt32} {pair : Opcode × ElementType}
    (hc : c.dispatcher.isControl i.opcode = false) (he : i.operands.head? = some element)
    (hr : c.Reads i.opcode element pair) :
    c.dispatcher.step i = .called (c.key pair.1 pair.2) (c.call pair i) :=
  Dispatcher.step_called hc he (h.route?_derive hr)

theorem step_unread (h : c.Valid) {i : Instruction}
    (hc : c.dispatcher.isControl i.opcode = false)
    (hr : ∀ element pair, i.operands.head? = some element → ¬ c.Reads i.opcode element pair) :
    c.dispatcher.step i = .refused (c.dispatcher.opcodeText i.opcode) :=
  Dispatcher.step_refused hc fun element he =>
    h.route?_derive_eq_none_iff.2 fun pair => hr element pair he

/-- A step calls a handler exactly when a pair is read from the instruction. -/
theorem step_called_iff (h : c.Valid) {i : Instruction} {call : Call} :
    (c.dispatcher.step i).call? = some call ↔
      c.dispatcher.isControl i.opcode = false ∧ ∃ element pair, i.operands.head? = some element ∧
        c.Reads i.opcode element pair ∧ c.call pair i = call := by
  cases hc : c.dispatcher.isControl i.opcode with
  | true => simp [Dispatcher.step_skipped hc, Disposition.call?]
  | false =>
    by_cases hr : ∃ element pair, i.operands.head? = some element ∧ c.Reads i.opcode element pair
    · obtain ⟨element, pair, he, hr⟩ := hr
      rw [h.step_reads hc he hr]
      simp only [Disposition.call?, Option.some.injEq, true_and]
      constructor
      · rintro rfl
        exact ⟨element, pair, he, hr, rfl⟩
      · rintro ⟨element', pair', he', hr', rfl⟩
        obtain rfl : element = element' := Option.some.inj (he.symm.trans he')
        rw [h.reads_unique hr hr']
    · rw [h.step_unread hc fun element pair he hx => hr ⟨element, pair, he, hx⟩]
      simp only [Disposition.call?, reduceCtorEq, true_and, false_iff]
      rintro ⟨element, pair, he, hx, -⟩
      exact hr ⟨element, pair, he, hx⟩

end Catalog.Valid

/-! ## Runs -/

namespace Dispatcher

variable (d : Dispatcher)

/-- The instructions of a batch that a run looks at, the refused one included. -/
def reached (batch : List Instruction) : List Instruction :=
  batch.take (d.history batch).length

variable {d}

theorem history_eq_map (batch : List Instruction) :
    d.history batch = (d.reached batch).map d.step := by
  induction batch with
  | nil => rfl
  | cons i rest ih =>
    rw [reached, history]
    split
    · next h => simp [h]
    · rw [List.length_cons, List.take_succ_cons, List.map_cons, ← reached, ← ih]

theorem mem_calls_iff {batch : List Instruction} {call : Call} :
    call ∈ (d.execute batch).calls ↔ ∃ i ∈ d.reached batch, (d.step i).call? = some call := by
  rw [execute, Outcome.ofHistory, history_eq_map, List.filterMap_map, List.mem_filterMap]
  rfl

/-- After a run without refusal, the next instructions run as on their own. -/
theorem execute_append_of_success {front rest : List Instruction}
    (h : (d.execute front).status = .success) :
    d.execute (front ++ rest) = {
      calls := (d.execute front).calls ++ (d.execute rest).calls
      status := (d.execute rest).status } := by
  induction front with
  | nil => rfl
  | cons i front ih =>
    rw [List.cons_append]
    cases hs : d.step i with
    | skipped opcode =>
      rw [d.execute_skipped front hs] at h ⊢
      rw [d.execute_skipped (front ++ rest) hs]
      exact ih h
    | called key call =>
      rw [d.execute_called front hs] at h ⊢
      rw [d.execute_called (front ++ rest) hs, ih h]
      rfl
    | refused opcode =>
      rw [d.execute_refused front hs] at h
      cases h

/-- After a refusal, the next instructions are not looked at. -/
theorem execute_append_of_ne_success {front : List Instruction}
    (h : (d.execute front).status ≠ .success) (rest : List Instruction) :
    d.execute (front ++ rest) = d.execute front := by
  induction front with
  | nil => exact absurd rfl h
  | cons i front ih =>
    rw [List.cons_append]
    cases hs : d.step i with
    | skipped opcode =>
      rw [d.execute_skipped front hs] at h ⊢
      rw [d.execute_skipped (front ++ rest) hs]
      exact ih h
    | called key call =>
      rw [d.execute_called front hs] at h ⊢
      rw [d.execute_called (front ++ rest) hs, ih h]
    | refused opcode =>
      rw [d.execute_refused front hs, d.execute_refused (front ++ rest) hs]

/-- Dispatchers that take every step alike run every batch alike. -/
theorem execute_congr {d' : Dispatcher} (h : ∀ i, d.step i = d'.step i) (batch : List Instruction) :
    d.execute batch = d'.execute batch := by
  have hhistory : d.history batch = d'.history batch := by
    induction batch with
    | nil => rfl
    | cons i rest ih => rw [history, history, h i, ih]
  rw [execute, execute, hhistory]

/-- A dispatcher that takes alike every step which is no refusal runs alike every batch without one. -/
theorem execute_eq_of_success {d' : Dispatcher}
    (h : ∀ i, (d.step i).refusal? = none → d'.step i = d.step i) {batch : List Instruction}
    (hs : (d.execute batch).status = .success) : d'.execute batch = d.execute batch := by
  induction batch with
  | nil => rfl
  | cons i rest ih =>
    cases hi : d.step i with
    | skipped opcode =>
      have hi' : d'.step i = .skipped opcode := (h i (by rw [hi]; rfl)).trans hi
      rw [d.execute_skipped rest hi] at hs ⊢
      rw [d'.execute_skipped rest hi', ih hs]
    | called key call =>
      have hi' : d'.step i = .called key call := (h i (by rw [hi]; rfl)).trans hi
      rw [d.execute_called rest hi] at hs ⊢
      rw [d'.execute_called rest hi', ih hs]
    | refused opcode =>
      rw [d.execute_refused rest hi] at hs
      cases hs

theorem execute_singleton (i : Instruction) : d.execute [i] = .ofHistory [d.step i] := by
  cases hs : d.step i with
  | skipped opcode => exact d.execute_skipped [] hs
  | called key call => exact d.execute_called [] hs
  | refused opcode => exact d.execute_refused [] hs

end Dispatcher

end DispatchGen
