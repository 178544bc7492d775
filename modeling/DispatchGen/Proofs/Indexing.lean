import DispatchGen.Proofs.ForeignParts

/-!
# Indexing a table

`Dispatcher.ofParts_indexes` says exactly what becomes of a table and a list of handlers. What the
table's verification finds comes first, then the first arm that calls a handler which is not in the
list; there is no third way to fail, as the arms of a table that passes name types of the catalog
(`Route.ofArm_ne_unexpectedArm`). Otherwise the routes are the arms: a key leads somewhere when an arm
has it, and then to the last handler of the name the arm calls and to the type the arm names. Routes
are looked up by keys and names alone, so that the order of the arms does not matter, nor that of
handlers with distinct names.
-/

namespace DispatchGen

/-! ## Handlers by name -/

namespace Stub

/-- Some handler has the given name. -/
def Declared (handlers : List Stub) (name : String) : Prop :=
  ∃ handler ∈ handlers, handler.name = name

instance (handlers : List Stub) (name : String) : Decidable (Declared handlers name) :=
  inferInstanceAs (Decidable (∃ handler ∈ handlers, handler.name = name))

/-- The handler is the last of `handlers` with the given name. -/
def LastNamed (handlers : List Stub) (name : String) (handler : Stub) : Prop :=
  ∃ front rest, handlers = front ++ handler :: rest ∧ handler.name = name ∧
    ∀ other ∈ rest, other.name ≠ name

variable {handlers handlers' : List Stub} {name : String} {handler : Stub}

theorem Declared.perm (hp : handlers.Perm handlers') (h : Declared handlers name) :
    Declared handlers' name := by
  obtain ⟨handler, hm, hname⟩ := h
  exact ⟨handler, hp.mem_iff.1 hm, hname⟩

/-- Among distinct names a handler is the last of its own, wherever it stands. -/
theorem lastNamed_iff_of_nodup (h : (handlers.map (·.name)).Nodup) :
    LastNamed handlers name handler ↔ handler ∈ handlers ∧ handler.name = name := by
  refine ⟨fun hl => ?_, fun hm => ?_⟩
  · obtain ⟨front, rest, rfl, hname, -⟩ := hl
    exact ⟨by simp, hname⟩
  · obtain ⟨hm, rfl⟩ := hm
    obtain ⟨front, rest, rfl⟩ := List.append_of_mem hm
    rw [List.map_append, List.map_cons, List.nodup_append, List.nodup_cons] at h
    refine ⟨front, rest, rfl, rfl, fun other ho e => h.2.1.1 ?_⟩
    rw [← e]
    exact List.mem_map_of_mem ho

end Stub

namespace Arm

variable {arm : Arm} {handlers : List Stub}

theorem handlerIn?_eq_some_iff {handler : Stub} :
    arm.handlerIn? handlers = some handler ↔ Stub.LastNamed handlers arm.handler handler := by
  unfold handlerIn? Stub.LastNamed
  rw [List.getLast?_filter, List.find?_eq_some_iff_append]
  refine ⟨fun h => ?_, fun h => ?_⟩
  · obtain ⟨hname, back, front, hs, hback⟩ := h
    refine ⟨front.reverse, back.reverse, ?_, by simpa using hname, ?_⟩
    · rw [← List.reverse_inj, hs]
      simp
    · intro other ho
      simpa using hback other (List.mem_reverse.1 ho)
  · obtain ⟨front, rest, rfl, hname, hrest⟩ := h
    refine ⟨by simpa using hname, rest.reverse, front.reverse, by simp, fun other ho => ?_⟩
    simpa using hrest other (List.mem_reverse.1 ho)

theorem handlerIn?_eq_none_iff :
    arm.handlerIn? handlers = none ↔ ¬ Stub.Declared handlers arm.handler := by
  unfold handlerIn? Stub.Declared
  simp

end Arm

/-! ## Routes of arms -/

namespace Route

variable {c : Catalog} {handlers : List Stub} {arm : Arm}

theorem ofArm_of_undeclared (h : ¬ Stub.Declared handlers arm.handler) :
    ofArm c handlers arm = .error (.undeclaredHandler arm.handler arm.opcode) := by
  have hnone : (handlers.filter (·.name == arm.handler)).getLast? = none :=
    Arm.handlerIn?_eq_none_iff.2 h
  rw [ofArm, find, Index.get?_ofValues, hnone]

section
variable {t : Table} (hc : c.Valid) (hv : t.verify c = .ok ()) (ha : arm ∈ t.arms)
include hc hv ha

/-- An arm of a table that passes names a type of the catalog. -/
theorem exists_type : ∃ type ∈ c.types.types, type.name = arm.element := by
  obtain ⟨pair, hp, he⟩ := Table.exists_pair_of_verify hc hv ha
  have ht := (TypeCatalog.mem_dispatchable.1 (Catalog.mem_pairs.1 hp).2).1
  exact ⟨pair.2, ht, (congrArg (·.pairing.element) he).symm⟩

theorem exists_ofArm_of_declared (h : Stub.Declared handlers arm.handler) :
    ∃ route, ofArm c handlers arm = .ok route := by
  obtain ⟨type, ht, hname⟩ := exists_type hc hv ha
  have hget : c.types.get? arm.element = some type := by
    rw [← hname]
    exact hc.get?_type ht
  cases hh : arm.handlerIn? handlers with
  | none => exact absurd h (Arm.handlerIn?_eq_none_iff.1 hh)
  | some handler => exact ⟨_, ofArm_eq_ok_iff.2 ⟨handler, type, hh, hget, rfl⟩⟩

/-- Indexing an arm of a table that passes fails in one way only. -/
theorem ofArm_eq_error_iff {fault : Fault} :
    ofArm c handlers arm = .error fault ↔
      ¬ Stub.Declared handlers arm.handler ∧
        fault = .undeclaredHandler arm.handler arm.opcode := by
  by_cases h : Stub.Declared handlers arm.handler
  · obtain ⟨route, hr⟩ := exists_ofArm_of_declared hc hv ha h
    simp [hr, h]
  · rw [ofArm_of_undeclared h, Except.error.injEq, eq_comm]
    exact ⟨fun e => ⟨h, e⟩, fun e => e.2⟩

theorem ofArm_ne_unexpectedArm (pair : Pairing) :
    ofArm c handlers arm ≠ .error (.unexpectedArm pair) := by
  intro h
  obtain ⟨-, e⟩ := (ofArm_eq_error_iff hc hv ha).1 h
  cases e

end

end Route

/-! ## The index -/

namespace Dispatcher

variable {c : Catalog} {t : Table} {handlers : List Stub} {d : Dispatcher}

theorem ofParts_eq_error_iff {fault : Fault} :
    ofParts c t handlers = .error fault ↔
      t.verify c = .error fault ∨
        t.verify c = .ok () ∧ t.arms.mapM (Route.ofArm c handlers) = .error fault := by
  unfold ofParts
  rw [check_bind_eq_error]
  refine or_congr_right (and_congr_right fun _ => ?_)
  cases t.arms.mapM (Route.ofArm c handlers) <;> simp [bind, Except.bind, pure, Except.pure]

section
variable (hc : c.Valid) (hv : t.verify c = .ok ())
include hc hv

/-- A table that passes is refused for its first arm whose handler is not declared. -/
theorem ofParts_eq_error_iff_undeclared {fault : Fault} :
    ofParts c t handlers = .error fault ↔
      ∃ front arm rest, t.arms = front ++ arm :: rest ∧
        (∀ a ∈ front, Stub.Declared handlers a.handler) ∧
        ¬ Stub.Declared handlers arm.handler ∧
        fault = .undeclaredHandler arm.handler arm.opcode := by
  have hverify : t.verify c ≠ .error fault := by simp [hv]
  rw [ofParts_eq_error_iff, or_iff_right hverify, and_iff_right hv, mapM_eq_error_iff]
  refine exists_congr fun front => exists_congr fun arm => exists_congr fun rest =>
    and_congr_right fun hs => ?_
  have ha : arm ∈ t.arms := by simp [hs]
  have hfront : ∀ a ∈ front, a ∈ t.arms := fun a hm => by simp [hs, hm]
  rw [Route.ofArm_eq_error_iff hc hv ha]
  refine and_congr_left fun _ => forall₂_congr fun a hm => ⟨fun hr => ?_, fun hd => ?_⟩
  · obtain ⟨route, hr⟩ := hr
    obtain ⟨handler, -, hh, -⟩ := Route.ofArm_eq_ok_iff.1 hr
    by_contra hn
    rw [Arm.handlerIn?_eq_none_iff.2 hn] at hh
    cases hh
  · exact Route.exists_ofArm_of_declared hc hv (hfront a hm) hd

theorem exists_ofParts_eq_ok (h : ∀ arm ∈ t.arms, Stub.Declared handlers arm.handler) :
    ∃ d, ofParts c t handlers = .ok d := by
  cases hd : ofParts c t handlers with
  | ok d => exact ⟨d, rfl⟩
  | error fault =>
    obtain ⟨front, arm, rest, hs, -, hn, -⟩ := (ofParts_eq_error_iff_undeclared hc hv).1 hd
    exact absurd (h arm (by simp [hs])) hn

end

section
variable (hc : c.Valid) (hd : ofParts c t handlers = .ok d)
include hc hd

theorem declared_of_ofParts {arm : Arm} (ha : arm ∈ t.arms) :
    Stub.Declared handlers arm.handler := by
  obtain ⟨route, -, hof⟩ := route?_of_arm hc hd ha
  obtain ⟨handler, -, hh, -⟩ := Route.ofArm_eq_ok_iff.1 hof
  by_contra hn
  rw [Arm.handlerIn?_eq_none_iff.2 hn] at hh
  cases hh

/-- A key leads to where the arm with that key says. -/
theorem route?_ofParts_eq_some_iff {key : UInt64} {route : Route} :
    d.route? key = some route ↔
      ∃ arm ∈ t.arms, arm.key = key ∧ route.key = key ∧
        Stub.LastNamed handlers arm.handler route.handler ∧
        route.element ∈ c.types.types ∧ route.element.name = arm.element := by
  refine ⟨fun hr => ?_, fun h => ?_⟩
  · rcases route?_of_lookup? hc hd key with ⟨-, hn⟩ | ⟨arm, own, ha, hown, hof⟩
    · cases hr.symm.trans hn
    obtain rfl : route = own := Option.some.inj (hr.symm.trans hown)
    obtain ⟨handler, element, hh, ht, rfl⟩ := Route.ofArm_eq_ok_iff.1 hof
    have hkey : arm.key = key := by simpa using List.find?_some ha
    exact ⟨arm, List.mem_of_find?_eq_some ha, hkey, hkey, Arm.handlerIn?_eq_some_iff.1 hh,
      List.mem_of_find?_eq_some ht, by simpa using List.find?_some ht⟩
  · obtain ⟨arm, ha, rfl, hkey, hlast, hmem, hname⟩ := h
    obtain ⟨own, hr, hof⟩ := route?_of_arm hc hd ha
    obtain ⟨handler, element, hh, ht, rfl⟩ := Route.ofArm_eq_ok_iff.1 hof
    rw [Arm.handlerIn?_eq_some_iff.2 hlast] at hh
    rw [← hname, hc.get?_type hmem] at ht
    obtain rfl := Option.some.inj hh
    obtain rfl := Option.some.inj ht
    rw [hr, ← hkey]

theorem isSome_route?_ofParts_iff {key : UInt64} :
    (d.route? key).isSome ↔ ∃ arm ∈ t.arms, arm.key = key := by
  refine ⟨fun h => ?_, fun h => ?_⟩
  · obtain ⟨route, hr⟩ := Option.isSome_iff_exists.1 h
    obtain ⟨arm, ha, hkey, -⟩ := (route?_ofParts_eq_some_iff hc hd).1 hr
    exact ⟨arm, ha, hkey⟩
  · obtain ⟨arm, ha, rfl⟩ := h
    obtain ⟨route, hr, -⟩ := route?_of_arm hc hd ha
    exact Option.isSome_iff_exists.2 ⟨route, hr⟩

/-- Arms and handlers in another order are taken, too, and give the same routes. -/
theorem ofParts_perm {t' : Table} {handlers' : List Stub} (hp : t'.arms.Perm t.arms)
    (hp' : handlers'.Perm handlers) (hn : (handlers.map (·.name)).Nodup) :
    ∃ d', ofParts c t' handlers' = .ok d' ∧ ∀ key, d'.route? key = d.route? key := by
  have hv : t'.verify c = .ok () := by
    rw [Table.verify_eq_ok_iff_perm hc]
    exact (hp.map _).trans ((Table.verify_eq_ok_iff_perm hc).1 (ofParts_eq_ok_iff.1 hd).1)
  obtain ⟨d', hd'⟩ := exists_ofParts_eq_ok hc hv fun arm ha =>
    (declared_of_ofParts hc hd (hp.mem_iff.1 ha)).perm hp'.symm
  have hn' : (handlers'.map (·.name)).Nodup := (hp'.map _).nodup_iff.2 hn
  have hlast {name : String} {handler : Stub} :
      Stub.LastNamed handlers' name handler ↔ Stub.LastNamed handlers name handler := by
    rw [Stub.lastNamed_iff_of_nodup hn, Stub.lastNamed_iff_of_nodup hn', hp'.mem_iff]
  refine ⟨d', hd', fun key => Option.ext fun route => ?_⟩
  rw [route?_ofParts_eq_some_iff hc hd, route?_ofParts_eq_some_iff hc hd']
  simp only [hp.mem_iff, hlast]

end

/-- What becomes of a table and a list of handlers: the fault of the table's verification, else that
of the first arm whose handler is not declared, else a dispatcher whose routes are the arms. -/
theorem ofParts_indexes {decl : CatalogDecl} (hb : decl.build = .ok c) (t : Table)
    (handlers : List Stub) :
    (∀ fault, t.verify c = .error fault → ofParts c t handlers = .error fault) ∧
      (t.verify c = .ok () →
        (∀ fault, ofParts c t handlers = .error fault ↔
          ∃ front arm rest, t.arms = front ++ arm :: rest ∧
            (∀ a ∈ front, Stub.Declared handlers a.handler) ∧
            ¬ Stub.Declared handlers arm.handler ∧
            fault = .undeclaredHandler arm.handler arm.opcode) ∧
        (∀ arm ∈ t.arms, ∀ pair, Route.ofArm c handlers arm ≠ .error (.unexpectedArm pair)) ∧
        ((∀ arm ∈ t.arms, Stub.Declared handlers arm.handler) →
          ∃ d, ofParts c t handlers = .ok d)) ∧
      ∀ d, ofParts c t handlers = .ok d →
        (∀ key, (d.route? key).isSome ↔ ∃ arm ∈ t.arms, arm.key = key) ∧
        (∀ key route, d.route? key = some route ↔
          ∃ arm ∈ t.arms, arm.key = key ∧ route.key = key ∧
            Stub.LastNamed handlers arm.handler route.handler ∧
            route.element ∈ c.types.types ∧ route.element.name = arm.element) ∧
        ∀ (t' : Table) (handlers' : List Stub), t'.arms.Perm t.arms → handlers'.Perm handlers →
          (handlers.map (·.name)).Nodup →
          ∃ d', ofParts c t' handlers' = .ok d' ∧ ∀ key, d'.route? key = d.route? key := by
  have hc := CatalogDecl.valid_of_build hb
  refine ⟨fun fault hv => ofParts_eq_error_iff.2 (.inl hv), fun hv => ⟨fun fault => ?_, ?_, ?_⟩,
    fun d hd => ⟨fun key => ?_, fun key route => ?_, fun t' handlers' hp hp' hn => ?_⟩⟩
  · exact ofParts_eq_error_iff_undeclared hc hv
  · exact fun arm ha => Route.ofArm_ne_unexpectedArm hc hv ha
  · exact exists_ofParts_eq_ok hc hv
  · exact isSome_route?_ofParts_iff hc hd
  · exact route?_ofParts_eq_some_iff hc hd
  · exact ofParts_perm hc hd hp hp' hn

/-- The table of `addMul` with its handlers and a second `mul` behind them, which the arms of `MUL`
then call; without the handler of `ADD`, the first arm is complained about. -/
theorem ofParts_indexes_twice :
    let t := Catalog.addMul.table
    let second : Stub := { name := "mul", opcode := "MUL", arity := 2, operands := ["x", "y"] }
    CatalogDecl.addMul.build = .ok Catalog.addMul ∧ t.verify Catalog.addMul = .ok () ∧
      (∃ d, ofParts Catalog.addMul t (Catalog.addMul.stubs ++ [second]) = .ok d ∧
        d.route? 201 = some { key := 201, handler := second, element := ⟨"FLOAT64", "f64", 1⟩ } ∧
        d.route? 202 = none) ∧
      ofParts Catalog.addMul t [second] = .error (.undeclaredHandler "add" "ADD") := by
  intro t second
  have hv : t.verify Catalog.addMul = .ok () := by decide +kernel
  obtain ⟨-, htwice, hroutes⟩ := ofParts_indexes build_addMul t (Catalog.addMul.stubs ++ [second])
  obtain ⟨-, hless, -⟩ := ofParts_indexes build_addMul t [second]
  obtain ⟨d, hd⟩ := (htwice hv).2.2 (by decide +kernel)
  obtain ⟨hkeys, hroute, -⟩ := hroutes d hd
  let mul : Arm := ⟨201, "MUL", 2, "FLOAT64", 1, "f64", 2, "mul"⟩
  let add : Arm := ⟨100, "ADD", 1, "INT32", 0, "i32", 2, "add"⟩
  refine ⟨build_addMul, hv, ⟨d, hd, (hroute 201 _).2 ?_, ?_⟩, ((hless hv).1 _).2 ?_⟩
  · exact ⟨mul, by decide +kernel, rfl, rfl, ⟨Catalog.addMul.stubs, [], rfl, rfl, by simp⟩,
      by decide +kernel, rfl⟩
  · rw [← Option.not_isSome_iff_eq_none, hkeys]
    decide +kernel
  · exact ⟨[], add, t.arms.tail, by decide +kernel, by simp, by decide +kernel, rfl⟩

end Dispatcher

end DispatchGen
