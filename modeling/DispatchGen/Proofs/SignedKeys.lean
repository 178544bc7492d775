import DispatchGen.Proofs.SwitchReading

/-!
# Keys in signed arithmetic

The C++ routine computes the key of an instruction in a `long long`, from the base that stands in its
text, while a catalog's keys are unsigned numbers of 64 bits. `Catalog.computes_iff_signed`: the
computation ends at the number in the label of a pair's arm exactly when that number is below
`2 ^ 63`, and overflows otherwise. A base of at most `2 ^ 31` keeps every key below it, whatever the
ordinals are; no check of a catalog asks for such a base (`extreme_overflows`).
-/

namespace DispatchGen

/-! ## The computation -/

/-- A signed 64-bit operation by its exact result; out of range, it overflows and has no value. -/
def signed? (exact : Int) : Option Int64 :=
  if h : Int64.minValue.toInt ≤ exact ∧ exact ≤ Int64.maxValue.toInt then
    some (.ofIntLE exact h.1 h.2)
  else none

theorem signed?_eq_some_iff {exact : Int} {value : Int64} :
    signed? exact = some value ↔ value.toInt = exact := by
  unfold signed?
  split
  · next h =>
    rw [Option.some.injEq]
    constructor
    · rintro rfl
      exact Int64.toInt_ofIntLE
    · rintro rfl
      exact Int64.ofIntLE_toInt value
  · next h =>
    constructor
    · intro hnone
      cases hnone
    · rintro rfl
      exact absurd ⟨value.minValue_le_toInt, value.toInt_le⟩ h

namespace Switch

/-- `(long long)opcode * multiplier + element`: a product, then a sum; either may overflow. -/
def signedKey? (s : Switch) (opcode element : UInt32) : Option Int64 := do
  let product ← signed? (opcode.toNat * s.multiplier)
  signed? (product.toInt + element.toNat)

/-- The key of the ordinals is computed, and it is the number in the label. -/
def Computes (s : Switch) (opcode element : UInt32) (label : CaseLabel) : Prop :=
  ∃ key, s.signedKey? opcode element = some key ∧ label = .number key.toInt.toNat

variable {s : Switch} {opcode element : UInt32}

/-- The product is no larger than the sum, so it overflows only where the sum does. -/
theorem signedKey?_eq_some_iff {key : Int64} :
    s.signedKey? opcode element = some key ↔
      key.toInt = opcode.toNat * s.multiplier + element.toNat := by
  rw [signedKey?, Option.bind_eq_bind, Option.bind_eq_some_iff]
  constructor
  · rintro ⟨product, hproduct, hsum⟩
    rw [signed?_eq_some_iff] at hproduct hsum
    rw [hsum, hproduct]
  · intro h
    -- the exact key is in range as a value, and with it the product
    have hhi := key.toInt_lt
    have hlo : (0 : Int) ≤ opcode.toNat * s.multiplier :=
      Int.mul_nonneg (Int.natCast_nonneg _) (Int.natCast_nonneg _)
    have hproduct : (Int64.ofInt (opcode.toNat * s.multiplier)).toInt =
        opcode.toNat * s.multiplier := Int64.toInt_ofInt_of_le (by omega) (by omega)
    exact ⟨_, signed?_eq_some_iff.2 hproduct, signed?_eq_some_iff.2 (by rw [hproduct, h])⟩

theorem exists_signedKey?_iff {n : Nat} (hn : opcode.toNat * s.multiplier + element.toNat = n) :
    (∃ key, s.signedKey? opcode element = some key) ↔ n < 2 ^ 63 := by
  simp only [signedKey?_eq_some_iff]
  constructor
  · rintro ⟨key, hkey⟩
    have hhi := key.toInt_lt
    omega
  · intro h
    exact ⟨.ofInt n, by rw [Int64.toInt_ofInt_of_le (by omega) (by omega)]; omega⟩

theorem signedKey?_eq_none_iff {n : Nat} (hn : opcode.toNat * s.multiplier + element.toNat = n) :
    s.signedKey? opcode element = none ↔ 2 ^ 63 ≤ n := by
  rw [← Nat.not_lt, ← exists_signedKey?_iff hn, not_exists, Option.eq_none_iff_forall_ne_some]

theorem computes_number_iff {n : Nat} (hn : opcode.toNat * s.multiplier + element.toNat = n) :
    s.Computes opcode element (.number n) ↔ n < 2 ^ 63 := by
  rw [← exists_signedKey?_iff hn]
  constructor
  · rintro ⟨key, hkey, -⟩
    exact ⟨key, hkey⟩
  · rintro ⟨key, hkey⟩
    have hexact := signedKey?_eq_some_iff.1 hkey
    have hnumber : n = key.toInt.toNat := by omega
    exact ⟨key, hkey, congrArg CaseLabel.number hnumber⟩

end Switch

/-! ## The routine of a catalog -/

namespace Catalog

variable {c : Catalog} {o : Options} {parts : Parts}

/-- The text of the routine says what the catalog's table says. -/
theorem Valid.generate_switch (h : c.Valid) (ht : o.target = .cpp) (ho : o.validate = .ok ())
    (hp : parts.hasRoutine = true) :
    ∃ a text, c.generate o parts = .ok a ∧ a.routine = some text ∧
      Switch.read? o.symbols.iteratePrefix o.keyStyle text = some (c.table.inSwitch o.keyStyle) := by
  have hr : (render c.table c.stubs o parts).routine =
      some ((Cpp.routine o c.table).text o.indent) := by
    rw [routine_render hp, Options.routine, ht]
  exact ⟨_, _, h.generate_eq ho parts, hr,
    Cpp.read?_routine (Options.spelled_of_validate ho) h.spelled_table o.indent 0⟩

/-- A type ordinal is below the base, so the base alone may keep keys in the signed range. -/
theorem Valid.key_lt (h : c.Valid) (hbase : c.scheme.base.toNat ≤ 2 ^ 31)
    {pair : Opcode × ElementType} (hpair : pair ∈ c.pairs) :
    (c.key pair.1 pair.2).toNat < 2 ^ 63 := by
  obtain ⟨-, htype⟩ := mem_pairs.1 hpair
  have helement := UInt32.lt_iff_toNat_lt.1 (h.ordinal_lt_of_dispatchable htype)
  have hproduct : pair.1.ordinal.toNat * c.scheme.base.toNat ≤ (2 ^ 32 - 1) * 2 ^ 31 :=
    Nat.mul_le_mul (Nat.le_sub_one_of_lt pair.1.ordinal.toNat_lt) hbase
  rw [toNat_key]
  omega

/-- Under literal labels the arms stand for the pairs in order, and a pair's key is computed as its
label's number, or overflows, as the number is below `2 ^ 63` or not. -/
theorem computes_iff_signed {decl : CatalogDecl} (hb : decl.build = .ok c) (ht : o.target = .cpp)
    (hk : o.keyStyle = .literal) (ho : o.validate = .ok ()) (hp : parts.hasRoutine = true) :
    ∃ a text s, c.generate o parts = .ok a ∧ a.routine = some text ∧
      Switch.read? o.symbols.iteratePrefix .literal text = some s ∧
      List.Forall₂ (fun pair arm => arm.label = .number (c.key pair.1 pair.2).toNat ∧
        (s.Computes pair.1.ordinal pair.2.ordinal arm.label ↔
          (c.key pair.1 pair.2).toNat < 2 ^ 63) ∧
        (s.signedKey? pair.1.ordinal pair.2.ordinal = none ↔
          2 ^ 63 ≤ (c.key pair.1 pair.2).toNat)) c.pairs s.arms ∧
      (c.scheme.base.toNat ≤ 2 ^ 31 →
        ∀ pair ∈ c.pairs, (c.key pair.1 pair.2).toNat < 2 ^ 63) := by
  have h := CatalogDecl.valid_of_build hb
  obtain ⟨a, text, ha, htext, hread⟩ := h.generate_switch ht ho hp
  rw [hk] at hread
  refine ⟨a, text, _, ha, htext, hread, ?_, fun hbase pair hpair => h.key_lt hbase hpair⟩
  have harms : (c.table.inSwitch .literal).arms =
      c.pairs.map fun pair => (c.arm pair.1 pair.2).inSwitch .literal c.scheme.base := by
    simp only [Table.inSwitch, table, List.map_map]
    rfl
  rw [harms, List.forall₂_map_right_iff, List.forall₂_same]
  intro pair hpair
  have hkey := (toNat_key c pair.1 pair.2).symm
  exact ⟨rfl, Switch.computes_number_iff hkey, Switch.signedKey?_eq_none_iff hkey⟩

theorem computes_iff_signed_addMul :
    CatalogDecl.addMul.build = .ok addMul ∧ (Options.ofTarget .cpp).validate = .ok () ∧
      ∃ a text s, addMul.generate (.ofTarget .cpp) .all = .ok a ∧ a.routine = some text ∧
        Switch.read? "iter_" .literal text = some s ∧
          List.Forall₂ (fun pair arm => s.Computes pair.1.ordinal pair.2.ordinal arm.label)
            addMul.pairs s.arms := by
  have ho := Options.validate_ofTarget .cpp
  obtain ⟨a, text, s, ha, htext, hread, harms, hkeys⟩ :=
    computes_iff_signed build_addMul rfl rfl ho (rfl : Parts.all.hasRoutine = true)
  have hsmall := hkeys (by decide)
  refine ⟨build_addMul, ho, a, text, s, ha, htext, hread, ?_⟩
  refine ((List.forall₂_and_left _ _).2 ⟨hsmall, harms⟩).imp ?_
  rintro pair arm ⟨hlt, -, hcomputes, -⟩
  exact hcomputes.2 hlt

end Catalog

/-- The largest base, and an opcode with the largest ordinal. -/
def CatalogDecl.extreme : CatalogDecl where
  base := 4294967295
  types := [{ name := "INT32" }]
  groups := [⟨1, [{ name := "NEG", ordinal := some 4294967295 }]⟩]

/-- `extreme`, resolved: `NEG` on `INT32` has the key `(2 ^ 32 - 1) ^ 2`. -/
def Catalog.extreme : Catalog :=
  CatalogDecl.extreme.resolved
    [(⟨1, by decide, by decide⟩, [{ name := "NEG", ordinal := some 4294967295 }])]

/-- An accepted catalog with a label that the routine never computes, and an overflow in its stead. -/
theorem extreme_overflows :
    CatalogDecl.extreme.build = .ok Catalog.extreme ∧
      ∃ a text s, Catalog.extreme.generate (.ofTarget .cpp) .all = .ok a ∧
        a.routine = some text ∧ Switch.read? "iter_" .literal text = some s ∧
          Catalog.extreme.pairs.map (fun pair => (pair.1.ordinal, pair.2.ordinal)) =
            [(4294967295, 0)] ∧
          s.arms.map (·.label) = [.number 18446744065119617025] ∧
          s.signedKey? 4294967295 0 = none := by
  have hb : CatalogDecl.extreme.build = .ok Catalog.extreme := by decide +kernel
  have ho := Options.validate_ofTarget .cpp
  obtain ⟨a, text, ha, htext, hread⟩ :=
    (CatalogDecl.valid_of_build hb).generate_switch rfl ho
      (rfl : Parts.all.hasRoutine = true)
  refine ⟨hb, a, text, _, ha, htext, hread, by decide +kernel, by decide +kernel, ?_⟩
  exact (Switch.signedKey?_eq_none_iff rfl).2 (by decide)

end DispatchGen
