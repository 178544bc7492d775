import DispatchGen.Proofs.Emission

/-!
# Verifying a table

`Table.verify` looks at three things of an arm: its key, and the opcode and type it names
(`Arm.entry`). A catalog has one such entry for each of its pairs (`Catalog.entries`), and a table
passes when its entries are those of the catalog in any order. For any other table
`Table.Complaint` says what is wrong with it first, and `Table.verify_decides` that `Table.verify`
finds exactly this. The pairs of an accepted catalog have distinct keys, so that the scans of
`Table.verify_eq_scan` stand for the index that is filled and drained.
-/

namespace DispatchGen

/-- What verification looks at in an arm: its key, and the opcode and type it names. -/
structure Table.Entry where
  key : UInt64
  pairing : Pairing
deriving DecidableEq, Repr

def Arm.entry (arm : Arm) : Table.Entry where
  key := arm.key
  pairing := arm.pairing

def Table.entries (t : Table) : List Table.Entry :=
  t.arms.map Arm.entry

/-- The entries that a table of the catalog must have: every numeric opcode with every type that is
not excluded, under the key of their ordinals, in declaration order. -/
def Catalog.entries (c : Catalog) : List Table.Entry :=
  c.opcodes.numeric.flatMap fun op =>
    (c.types.types.filter fun type => type.name ∉ c.types.exclusions).map fun type =>
      { key := c.scheme.derive op.ordinal type.ordinal
        pairing := { opcode := op.name, element := type.name } }

/-- What is wrong with a table, the first that applies. -/
inductive Table.Complaint (t : Table) (c : Catalog) : Fault → Prop where
  /-- An arm has the key of an arm in front of it, and it is the first such arm. -/
  | sharedKey {front rest : List Arm} {first arm : Arm} (split : t.arms = front ++ arm :: rest)
      (distinct : (front.map (·.key)).Nodup) (mem : first ∈ front) (shared : first.key = arm.key) :
      Complaint t c (.sharedKey arm.key first.pairing arm.pairing)
  /-- No key repeats, but no arm has the key of a pair and names it, and it is the first such pair. -/
  | missingArm {front rest : List Table.Entry} {entry : Table.Entry} (distinct : (t.arms.map (·.key)).Nodup)
      (split : c.entries = front ++ entry :: rest) (found : ∀ e ∈ front, e ∈ t.entries)
      (missing : ∀ arm ∈ t.arms, arm.key = entry.key → arm.pairing ≠ entry.pairing) :
      Complaint t c (.missingArm entry.pairing)
  /-- Every pair has its arm, but an arm has the key of no pair, and it is the first such arm. -/
  | unexpectedArm {front rest : List Arm} {arm : Arm} (distinct : (t.arms.map (·.key)).Nodup)
      (found : ∀ e ∈ c.entries, e ∈ t.entries) (split : t.arms = front ++ arm :: rest)
      (expected : ∀ a ∈ front, ∃ e ∈ c.entries, e.key = a.key)
      (unexpected : ∀ e ∈ c.entries, e.key ≠ arm.key) :
      Complaint t c (.unexpectedArm arm.pairing)

/-! ## Entries of a catalog -/

namespace Catalog

variable {c : Catalog}

/-- The entry of a pair. -/
def entry (c : Catalog) (pair : Opcode × ElementType) : Table.Entry where
  key := c.key pair.1 pair.2
  pairing := { opcode := pair.1.name, element := pair.2.name }

theorem entries_eq_map : c.entries = c.pairs.map c.entry := by
  rw [entries, ← dispatchable_eq_filter, pairs, List.map_flatMap]
  simp only [List.map_map, Function.comp_def]
  rfl

theorem map_key_entries : c.entries.map (·.key) = c.pairs.map fun (op, type) => c.key op type := by
  rw [entries_eq_map, List.map_map]
  rfl

theorem Valid.entries_keys_nodup (h : c.Valid) : (c.entries.map (·.key)).Nodup := by
  rw [map_key_entries]
  exact h.keys_nodup

end Catalog

namespace Table

variable {t : Table} {c : Catalog}

theorem map_key_entries : t.entries.map (·.key) = t.arms.map (·.key) := by
  rw [entries, List.map_map]
  rfl

/-! ## The three scans -/

theorem checkKey_eq_error_iff {before : List Arm} {arm : Arm} {fault : Fault}
    (h : (before.map (·.key)).Nodup) :
    checkKey before arm = .error fault ↔
      ∃ first ∈ before, first.key = arm.key ∧
        fault = .sharedKey arm.key first.pairing arm.pairing := by
  have hfind : ∀ first, before.find? (·.key == arm.key) = some first ↔
      first ∈ before ∧ first.key = arm.key := fun first => find?_eq_some_iff_of_nodup h
  rw [checkKey]
  constructor
  · intro he
    split at he
    · next first hf =>
      obtain ⟨hm, hk⟩ := (hfind first).1 hf
      exact ⟨first, hm, hk, (Except.error.inj he).symm⟩
    · cases he
  · rintro ⟨first, hm, hk, rfl⟩
    rw [(hfind first).2 ⟨hm, hk⟩]

theorem checkKeys_eq_error_iff {arms : List Arm} {fault : Fault} :
    checkEach checkKey [] arms = .error fault ↔
      ∃ front arm rest, arms = front ++ arm :: rest ∧ (front.map (·.key)).Nodup ∧
        ∃ first ∈ front, first.key = arm.key ∧
          fault = .sharedKey arm.key first.pairing arm.pairing := by
  rw [checkEach_eq_error_iff]
  refine exists_congr fun front => exists_congr fun arm => exists_congr fun rest =>
    and_congr_right fun _ => ?_
  rw [checkKeys_eq_ok_iff, List.append_nil]
  refine and_congr_right fun hn => ?_
  have hrev : (front.reverse.map (·.key)).Nodup := by
    rw [List.map_reverse, List.nodup_reverse]
    exact hn
  simp only [checkKey_eq_error_iff hrev, List.mem_reverse]

/-- Looks a pair's entry up among the arms. -/
def checkEntry (t : Table) (entry : Entry) : Except Fault Unit :=
  if (t.lookup? entry.key).map Arm.pairing = some entry.pairing then .ok ()
  else .error (.missingArm entry.pairing)

theorem checkPairs_eq (t : Table) (c : Catalog) :
    checkEach (fun _ => t.checkPair c) [] c.pairs =
      checkEach (fun _ => t.checkEntry) [] c.entries := by
  rw [Catalog.entries_eq_map]
  exact checkEach_map t.checkEntry c.entry c.pairs

section
variable (hkeys : (t.arms.map (·.key)).Nodup)
include hkeys

/-- Where no key repeats, an entry is found under its key if any arm has it. -/
theorem lookup_pairing_iff {entry : Entry} :
    (t.lookup? entry.key).map Arm.pairing = some entry.pairing ↔ entry ∈ t.entries := by
  have hfind : ∀ arm, t.lookup? entry.key = some arm ↔ arm ∈ t.arms ∧ arm.key = entry.key :=
    fun arm => find?_eq_some_iff_of_nodup hkeys
  rw [Option.map_eq_some_iff, entries, List.mem_map]
  constructor
  · rintro ⟨arm, ha, hp⟩
    obtain ⟨hm, hk⟩ := (hfind arm).1 ha
    exact ⟨arm, hm, by rw [Arm.entry, hk, hp]⟩
  · rintro ⟨arm, hm, rfl⟩
    exact ⟨arm, (hfind arm).2 ⟨hm, rfl⟩, rfl⟩

theorem checkEntry_eq_ok_iff {entry : Entry} :
    t.checkEntry entry = .ok () ↔ entry ∈ t.entries := by
  rw [← lookup_pairing_iff hkeys, checkEntry]
  split <;> simp [*]

theorem checkEntry_eq_error_iff {entry : Entry} {fault : Fault} :
    t.checkEntry entry = .error fault ↔ entry ∉ t.entries ∧ fault = .missingArm entry.pairing := by
  rw [← lookup_pairing_iff hkeys, checkEntry]
  split
  · next h => simp [h]
  · next h =>
    rw [Except.error.injEq]
    exact ⟨fun e => ⟨h, e.symm⟩, fun e => e.2.symm⟩

end

theorem not_mem_entries_iff {entry : Entry} :
    entry ∉ t.entries ↔ ∀ arm ∈ t.arms, arm.key = entry.key → arm.pairing ≠ entry.pairing := by
  obtain ⟨key, pairing⟩ := entry
  simp [entries, Arm.entry]

theorem checkOrigin_eq_ok_iff {arm : Arm} :
    checkOrigin (c.pairs.map fun (op, type) => c.key op type) arm = .ok () ↔
      ∃ e ∈ c.entries, e.key = arm.key := by
  rw [← Catalog.map_key_entries, checkOrigin, ← List.mem_map]
  split <;> simp_all

theorem checkOrigin_eq_error_iff {arm : Arm} {fault : Fault} :
    checkOrigin (c.pairs.map fun (op, type) => c.key op type) arm = .error fault ↔
      (∀ e ∈ c.entries, e.key ≠ arm.key) ∧ fault = .unexpectedArm arm.pairing := by
  have hn : (∀ e ∈ c.entries, e.key ≠ arm.key) ↔ arm.key ∉ c.entries.map (·.key) := by
    simp
  rw [hn, ← Catalog.map_key_entries, checkOrigin]
  split <;> simp_all [eq_comm]

/-! ## The verdict -/

theorem verify_eq_ok_iff_perm (hc : c.Valid) :
    t.verify c = .ok () ↔ t.entries.Perm c.entries := by
  rw [verify_eq_scan t hc.keys_nodup, scan]
  simp only [check_bind_eq_ok, checkKeys_eq_ok_iff, checkPairs_eq, checkEach_eq_ok_iff_forall,
    checkOrigin_eq_ok_iff]
  constructor
  · rintro ⟨hkeys, hfound, horigin⟩
    simp only [checkEntry_eq_ok_iff hkeys] at hfound
    have hnodup : (t.entries.map (·.key)).Nodup := by rwa [map_key_entries]
    refine (List.perm_ext_iff_of_nodup hnodup.of_map hc.entries_keys_nodup.of_map).2 fun e =>
      ⟨fun he => ?_, hfound e⟩
    -- the pair with the key of an arm has an arm, which no other arm has the key of
    obtain ⟨arm, ha, rfl⟩ := List.mem_map.1 he
    obtain ⟨e, hec, hk⟩ := horigin arm ha
    rwa [← List.inj_on_of_nodup_map hnodup (hfound e hec) he hk]
  · intro hp
    have hkeys : (t.arms.map (·.key)).Nodup := by
      rw [← map_key_entries, (hp.map _).nodup_iff]
      exact hc.entries_keys_nodup
    simp only [checkEntry_eq_ok_iff hkeys]
    exact ⟨hkeys, fun e => hp.mem_iff.2,
      fun arm ha => ⟨arm.entry, hp.mem_iff.1 (List.mem_map_of_mem ha), rfl⟩⟩

theorem verify_eq_error_iff (hc : c.Valid) {fault : Fault} :
    t.verify c = .error fault ↔ t.Complaint c fault := by
  rw [verify_eq_scan t hc.keys_nodup, scan]
  simp only [check_bind_eq_error, checkKeys_eq_ok_iff, checkKeys_eq_error_iff, checkPairs_eq,
    checkEach_eq_ok_iff_forall, checkEach_eq_error_iff_forall, checkOrigin_eq_ok_iff,
    checkOrigin_eq_error_iff]
  constructor
  · rintro (⟨front, arm, rest, hs, hn, first, hm, hk, rfl⟩ | ⟨hkeys, h⟩)
    · exact .sharedKey hs hn hm hk
    simp only [checkEntry_eq_ok_iff hkeys, checkEntry_eq_error_iff hkeys] at h
    rcases h with ⟨front, e, rest, hs, hfound, hmissing, rfl⟩ |
      ⟨hfound, front, arm, rest, hs, hexpected, hunexpected, rfl⟩
    · exact .missingArm hkeys hs hfound (not_mem_entries_iff.1 hmissing)
    · exact .unexpectedArm hkeys hfound hs hexpected hunexpected
  · rintro (⟨hs, hn, hm, hk⟩ | ⟨hkeys, hs, hfound, hmissing⟩ |
      ⟨hkeys, hfound, hs, hexpected, hunexpected⟩)
    · exact .inl ⟨_, _, _, hs, hn, _, hm, hk, rfl⟩
    · simp only [checkEntry_eq_ok_iff hkeys, checkEntry_eq_error_iff hkeys]
      exact .inr ⟨hkeys, .inl ⟨_, _, _, hs, hfound, not_mem_entries_iff.2 hmissing, rfl⟩⟩
    · simp only [checkEntry_eq_ok_iff hkeys, checkEntry_eq_error_iff hkeys]
      exact .inr ⟨hkeys, .inr ⟨hfound, _, _, _, hs, hexpected, hunexpected, rfl⟩⟩

/-! ## Tables that pass -/

section
variable (hc : c.Valid) (hv : t.verify c = .ok ())
include hc hv

theorem keys_nodup_of_verify : (t.arms.map (·.key)).Nodup := by
  rw [← map_key_entries, (((verify_eq_ok_iff_perm hc).1 hv).map _).nodup_iff]
  exact hc.entries_keys_nodup

theorem lookup?_of_verify {arm : Arm} (ha : arm ∈ t.arms) : t.lookup? arm.key = some arm :=
  (find?_eq_some_iff_of_nodup (keys_nodup_of_verify hc hv)).2 ⟨ha, rfl⟩

theorem exists_arm_of_verify {pair : Opcode × ElementType} (hp : pair ∈ c.pairs) :
    ∃ arm ∈ t.arms, arm.entry = c.entry pair := by
  have he : c.entry pair ∈ c.entries := by
    rw [Catalog.entries_eq_map]
    exact List.mem_map_of_mem hp
  exact List.mem_map.1 (((verify_eq_ok_iff_perm hc).1 hv).mem_iff.2 he)

theorem exists_pair_of_verify {arm : Arm} (ha : arm ∈ t.arms) :
    ∃ pair ∈ c.pairs, arm.entry = c.entry pair := by
  have he := ((verify_eq_ok_iff_perm hc).1 hv).mem_iff.1 (List.mem_map_of_mem ha)
  rw [Catalog.entries_eq_map] at he
  obtain ⟨pair, hp, he⟩ := List.mem_map.1 he
  exact ⟨pair, hp, he.symm⟩

end

/-- Verification passes the tables with the catalog's entries, in any order, and finds the first
thing that is wrong with any other. -/
theorem verify_decides {decl : CatalogDecl} (h : decl.build = .ok c) (t : Table) :
    (t.verify c = .ok () ↔ t.entries.Perm c.entries) ∧
      (∀ fault, t.verify c = .error fault ↔ t.Complaint c fault) ∧
      ∀ reordered : Table, reordered.arms.Perm t.arms → t.verify c = .ok () →
        reordered.verify c = .ok () := by
  have hc := CatalogDecl.valid_of_build h
  refine ⟨verify_eq_ok_iff_perm hc, fun fault => verify_eq_error_iff hc, fun reordered hp hok => ?_⟩
  rw [verify_eq_ok_iff_perm hc] at hok ⊢
  exact (hp.map _).trans hok

/-- The table of `addMul` passes from back to front, and without its first arm it does not. -/
theorem verify_decides_addMul :
    let backward : Table := { Catalog.addMul.table with arms := Catalog.addMul.table.arms.reverse }
    let shortened : Table := { Catalog.addMul.table with arms := Catalog.addMul.table.arms.tail }
    CatalogDecl.addMul.build = .ok Catalog.addMul ∧ backward.entries ≠ Catalog.addMul.entries ∧
      backward.verify Catalog.addMul = .ok () ∧
      shortened.verify Catalog.addMul = .error (.missingArm ⟨"ADD", "INT32"⟩) := by
  intro backward shortened
  obtain ⟨-, -, hreordered⟩ := verify_decides build_addMul Catalog.addMul.table
  obtain ⟨-, hcomplaint, -⟩ := verify_decides build_addMul shortened
  have hsplit : Catalog.addMul.entries =
      [] ++ ⟨100, ⟨"ADD", "INT32"⟩⟩ :: Catalog.addMul.entries.tail := rfl
  have hmissing : shortened.Complaint Catalog.addMul (.missingArm ⟨"ADD", "INT32"⟩) :=
    .missingArm (by decide) hsplit (by simp) (by decide)
  exact ⟨build_addMul, by decide, hreordered backward (List.reverse_perm _) (by decide +kernel),
    (hcomplaint _).2 hmissing⟩

end Table

end DispatchGen
