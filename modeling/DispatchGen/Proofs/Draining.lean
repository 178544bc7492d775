import DispatchGen.Dispatch.Table
import DispatchGen.Proofs.Keys

/-!
# Filling and draining

`Table.verify` fills an index with the arms of a table and takes the arm of each pair out again. Two
invariants say what it holds on the way: first the arms that were entered (`Table.Filled`), then the
arms under keys that no pair has claimed yet (`Table.Drained`). As long as no two pairs have the same
key, a pair's arm is not taken out before its turn, and the index can be left out of account:
verification comes to three scans, of the table's keys, of the pairs and of the table's arms
(`Table.verify_eq_scan`).
-/

namespace DispatchGen

/-! ## Scans -/

namespace Table

variable (t : Table)

/-- No earlier arm has the arm's key. -/
def checkKey (before : List Arm) (arm : Arm) : Except Fault Unit :=
  match before.find? (·.key == arm.key) with
  | some first => .error (.sharedKey arm.key first.pairing arm.pairing)
  | none => .ok ()

/-- The arm under the pair's key names the pair. -/
def checkPair (c : Catalog) (pair : Opcode × ElementType) : Except Fault Unit :=
  let expected : Pairing := { opcode := pair.1.name, element := pair.2.name }
  if (t.lookup? (c.key pair.1 pair.2)).map Arm.pairing = some expected then .ok ()
  else .error (.missingArm expected)

/-- The arm's key is the key of some pair. -/
def checkOrigin (keys : List UInt64) (arm : Arm) : Except Fault Unit :=
  if keys.contains arm.key then .ok () else .error (.unexpectedArm arm.pairing)

/-- The keys of a table, then the pairs in catalog order, then what is left over. -/
def scan (c : Catalog) : Except Fault Unit := do
  checkEach checkKey [] t.arms
  checkEach (fun _ => t.checkPair c) [] c.pairs
  checkEach (fun _ => checkOrigin (c.pairs.map fun (op, type) => c.key op type)) [] t.arms

variable {t} {c : Catalog} {index : Index UInt64 Arm} {before : List Arm} {taken : List UInt64}

theorem checkKey_eq_ok_iff (before : List Arm) (arm : Arm) :
    checkKey before arm = .ok () ↔ ∀ a ∈ before, a.key ≠ arm.key := by
  have hm : (∀ a ∈ before, a.key ≠ arm.key) ↔ before.find? (·.key == arm.key) = none := by
    simp [List.find?_eq_none]
  rw [checkKey, hm]
  cases before.find? (·.key == arm.key) <;> simp

theorem checkKeys_eq_ok_iff {arms : List Arm} :
    checkEach checkKey [] arms = .ok () ↔ (arms.map (·.key)).Nodup := by
  rw [checkEach_eq_ok_iff_pairwise_of checkKey_eq_ok_iff, List.Nodup, List.pairwise_map]

/-! ## Filling -/

/-- The index leads to the arms that were entered. -/
def Filled (index : Index UInt64 Arm) (entered : List Arm) : Prop :=
  ∀ key, index.get? key = entered.find? (·.key == key)

theorem filled_empty : Filled .empty [] :=
  fun _ => rfl

theorem enter_eq (h : Filled index before) (arm : Arm) :
    enter index arm = (checkKey before arm).map fun _ => index.insert arm.key arm := by
  rw [enter, checkKey, h arm.key]
  cases before.find? (·.key == arm.key) <;> rfl

theorem filled_insert (h : Filled index before) (arm : Arm) :
    Filled (index.insert arm.key arm) (arm :: before) := by
  intro key
  rw [Index.get?_insert, List.find?_cons, h key, BEq.comm]
  cases arm.key == key <;> rfl

/-- Filling fails where a key repeats, and otherwise gives an index of the table. -/
theorem foldlM_enter (t : Table) :
    ∃ filled, t.arms.foldlM enter .empty = (checkEach checkKey [] t.arms).map (fun _ => filled) ∧
      ((t.arms.map (·.key)).Nodup → ∀ key, filled.get? key = t.lookup? key) := by
  obtain ⟨hfold, hfilled⟩ := foldlM_eq_checkEach
    (fun index arm => index.insert arm.key arm) (fun index before _ => Filled index before)
    (fun _ _ arm _ h => enter_eq h arm) (fun _ _ arm _ h _ => filled_insert h arm)
    (filled_empty : Filled .empty [])
  refine ⟨_, hfold, fun hn key => Option.ext fun arm => ?_⟩
  have hrev : ((t.arms.reverse ++ []).map Arm.key).Nodup := by
    rwa [List.append_nil, List.map_reverse, List.nodup_reverse]
  rw [hfilled (checkKeys_eq_ok_iff.2 hn) key, lookup?, find?_eq_some_iff_of_nodup hrev,
    find?_eq_some_iff_of_nodup hn, List.append_nil, List.mem_reverse]

/-! ## Draining -/

/-- The index leads to the arms of the table, save those under the keys that were taken. -/
def Drained (t : Table) (index : Index UInt64 Arm) (taken : List UInt64) : Prop :=
  ∀ key, index.get? key = if key ∈ taken then none else t.lookup? key

/-- A pair whose key is not taken yet has the arm that the table has under it. -/
theorem withdraw_eq (h : t.Drained index taken) {pair : Opcode × ElementType}
    (hfree : c.key pair.1 pair.2 ∉ taken) :
    withdraw c index pair =
      (t.checkPair c pair).map fun _ => index.erase (c.key pair.1 pair.2) := by
  have hget : index.get? (c.key pair.1 pair.2) = t.lookup? (c.key pair.1 pair.2) := by
    rw [h, if_neg hfree]
  simp only [withdraw, checkPair, hget]
  split <;> rfl

/-- Taking an arm out leaves the others where they are. -/
theorem drained_erase (h : t.Drained index taken) (key : UInt64) :
    t.Drained (index.erase key) (key :: taken) := by
  intro other
  rw [Index.get?_erase, h other]
  by_cases hkey : other = key
  · simp [hkey]
  · simp [hkey]

/-- Draining fails where a pair's arm is missing, and otherwise leaves the arms of no pair. -/
theorem foldlM_withdraw (hn : (c.pairs.map fun (op, type) => c.key op type).Nodup)
    (h : t.Drained index []) :
    ∃ left, c.pairs.foldlM (withdraw c) index =
        (checkEach (fun _ => t.checkPair c) [] c.pairs).map (fun _ => left) ∧
      (checkEach (fun _ => t.checkPair c) [] c.pairs = .ok () →
        t.Drained left (c.pairs.map fun (op, type) => c.key op type)) := by
  let keyOf (pair : Opcode × ElementType) : UInt64 := c.key pair.1 pair.2
  let next (index : Index UInt64 Arm) (pair : Opcode × ElementType) := index.erase (keyOf pair)
  -- Whatever is still to come has keys of its own, which are not taken.
  let Inv (index : Index UInt64 Arm) (before rest : List (Opcode × ElementType)) : Prop :=
    t.Drained index (before.map keyOf) ∧ (rest.map keyOf).Nodup ∧
      ∀ pair ∈ rest, keyOf pair ∉ before.map keyOf
  have hnext (index : Index UInt64 Arm) (before : List (Opcode × ElementType))
      (pair : Opcode × ElementType) (rest : List (Opcode × ElementType))
      (hinv : Inv index before (pair :: rest)) : Inv (next index pair) (pair :: before) rest := by
    obtain ⟨hdrained, hnodup, hfree⟩ := hinv
    rw [List.map_cons, List.nodup_cons] at hnodup
    refine ⟨drained_erase hdrained (keyOf pair), hnodup.2, fun later hlater hmem => ?_⟩
    rcases List.mem_cons.1 hmem with hsame | hmem
    · exact hnodup.1 (hsame ▸ List.mem_map_of_mem hlater)
    · exact hfree later (List.mem_cons_of_mem pair hlater) hmem
  have hstart : Inv index [] c.pairs := ⟨h, hn, by simp⟩
  obtain ⟨hfold, hdrained⟩ := foldlM_eq_checkEach next Inv
    (fun _ _ pair _ hinv => withdraw_eq hinv.1 (hinv.2.2 pair List.mem_cons_self))
    (fun index before pair rest hinv _ => hnext index before pair rest hinv) hstart
  refine ⟨_, hfold, fun hok key => ?_⟩
  have hkeys : key ∈ (c.pairs.reverse ++ []).map keyOf ↔
      key ∈ c.pairs.map fun (op, type) => c.key op type := by
    rw [List.append_nil, List.map_reverse, List.mem_reverse]
  exact ((hdrained hok).1 key).trans (if_congr hkeys rfl rfl)

/-- What is left after draining are the arms whose keys no pair has. -/
theorem contains_of_drained (hleft : t.Drained index taken) {arm : Arm} (ha : arm ∈ t.arms) :
    index.contains arm.key = !taken.contains arm.key := by
  have hlookup : (t.lookup? arm.key).isSome = true :=
    List.find?_isSome.2 ⟨arm, ha, beq_self_eq_true arm.key⟩
  rw [Index.contains, hleft arm.key]
  by_cases hkey : arm.key ∈ taken
  · simp [hkey]
  · simp [hkey, hlookup]

theorem find?_left (hleft : t.Drained index taken) :
    (match t.arms.find? fun arm => index.contains arm.key with
      | some arm => throw (.unexpectedArm arm.pairing)
      | none => return ()) = checkEach (fun _ => checkOrigin taken) [] t.arms := by
  have hscan : ∀ (before arms : List Arm), (∀ arm ∈ arms, arm ∈ t.arms) →
      (match arms.find? fun arm => index.contains arm.key with
        | some arm => throw (.unexpectedArm arm.pairing)
        | none => return ()) = checkEach (fun _ => checkOrigin taken) before arms := by
    intro before arms
    induction arms generalizing before with
    | nil => exact fun _ => rfl
    | cons arm rest ih =>
      intro hmem
      rw [List.forall_mem_cons] at hmem
      rw [List.find?_cons, checkEach, checkOrigin, contains_of_drained hleft hmem.1]
      cases taken.contains arm.key with
      | true => exact ih (arm :: before) hmem.2
      | false => rfl
  exact hscan [] t.arms fun _ h => h

/-- Where no two pairs share a key, filling and draining an index finds what the scans find. -/
theorem verify_eq_scan (t : Table) (hn : (c.pairs.map fun (op, type) => c.key op type).Nodup) :
    t.verify c = t.scan c := by
  obtain ⟨filled, hfill, hfilled⟩ := t.foldlM_enter
  rw [verify, scan, hfill]
  cases hkeys : checkEach checkKey [] t.arms with
  | error fault => rfl
  | ok =>
    have hdrained : t.Drained filled [] := fun key => by
      rw [hfilled (checkKeys_eq_ok_iff.1 hkeys) key]
      simp
    obtain ⟨left, hdrain, hleft⟩ := foldlM_withdraw hn hdrained
    change (c.pairs.foldlM (withdraw c) filled >>= _) = _
    rw [hdrain]
    cases hpairs : checkEach (fun _ => t.checkPair c) [] c.pairs with
    | error fault => rfl
    | ok => exact find?_left (hleft hpairs)

end Table

end DispatchGen
