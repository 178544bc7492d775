import DispatchGen.Proofs.Acceptance
import DispatchGen.Proofs.Keys

/-!
# Keys in the order of their ordinals

The base of an accepted key scheme is positive and exceeds every type ordinal, so it is a radix:
`split` finds the two digits of any 64-bit number, they are the ordinals of a key exactly when the
type ordinal is below the base, and keys are ordered as pairs of ordinals are, the opcode first.
`KeyScheme.forTypes_packs_in_order` puts this together, for ordinals up to the top of 32 bits.
-/

namespace DispatchGen

namespace KeyScheme

variable {scheme : KeyScheme} {o o' e e' : UInt32}

/-! ## Quotient and remainder -/

theorem toNat_split_fst (scheme : KeyScheme) (key : UInt64) :
    (scheme.split key).1.toNat = key.toNat / scheme.base.toNat := by
  rw [split, UInt64.toNat_div, UInt32.toNat_toUInt64]

theorem toNat_split_snd (scheme : KeyScheme) (key : UInt64) :
    (scheme.split key).2.toNat = key.toNat % scheme.base.toNat := by
  rw [split, UInt64.toNat_mod, UInt32.toNat_toUInt64]

theorem split_fst_mul_base_add_snd (scheme : KeyScheme) (key : UInt64) :
    (scheme.split key).1.toNat * scheme.base.toNat + (scheme.split key).2.toNat = key.toNat := by
  rw [toNat_split_fst, toNat_split_snd]
  exact Nat.div_add_mod' ..

theorem split_snd_lt (hbase : 0 < scheme.base) (key : UInt64) :
    (scheme.split key).2 < scheme.base.toUInt64 := by
  rw [UInt64.lt_iff_toNat_lt, toNat_split_snd, UInt32.toNat_toUInt64]
  exact Nat.mod_lt _ (UInt32.lt_iff_toNat_lt.1 hbase)

/-- The ordinals come back when the type ordinal is a digit, and only then. -/
theorem split_derive_eq_iff (hbase : 0 < scheme.base) :
    scheme.split (scheme.derive o e) = (o.toUInt64, e.toUInt64) ↔ e < scheme.base := by
  constructor
  · intro h
    have hlt := split_snd_lt hbase (scheme.derive o e)
    rw [h] at hlt
    exact UInt32.toUInt64_lt.1 hlt
  · intro he
    obtain ⟨hq, hr⟩ := (derive_eq_iff_div_mod he).1 (rfl : scheme.derive o e = _)
    refine Prod.ext (UInt64.toNat_inj.1 ?_) (UInt64.toNat_inj.1 ?_)
    · rw [toNat_split_fst, hq, UInt32.toNat_toUInt64]
    · rw [toNat_split_snd, hr, UInt32.toNat_toUInt64]

/-! ## Order -/

/-- All keys of an opcode come before those of the next. -/
theorem derive_lt_of_lt (he : e < scheme.base) (ho : o < o') :
    scheme.derive o e < scheme.derive o' e' := by
  have hdigit : e.toNat < scheme.base.toNat := UInt32.lt_iff_toNat_lt.1 he
  have hnext : o.toNat + 1 ≤ o'.toNat := UInt32.lt_iff_toNat_lt.1 ho
  rw [UInt64.lt_iff_toNat_lt, toNat_derive, toNat_derive]
  calc o.toNat * scheme.base.toNat + e.toNat
      < o.toNat * scheme.base.toNat + scheme.base.toNat := Nat.add_lt_add_left hdigit _
    _ = (o.toNat + 1) * scheme.base.toNat := (Nat.succ_mul ..).symm
    _ ≤ o'.toNat * scheme.base.toNat := Nat.mul_le_mul_right _ hnext
    _ ≤ o'.toNat * scheme.base.toNat + e'.toNat := Nat.le_add_right ..

theorem derive_lt_derive_left_iff : scheme.derive o e < scheme.derive o e' ↔ e < e' := by
  rw [UInt64.lt_iff_toNat_lt, toNat_derive, toNat_derive, Nat.add_lt_add_iff_left,
    UInt32.lt_iff_toNat_lt]

/-- Keys are ordered as their opcodes, and for one opcode as their types. -/
theorem derive_lt_derive_iff (he : e < scheme.base) (he' : e' < scheme.base) :
    scheme.derive o e < scheme.derive o' e' ↔
      Prod.Lex (· < ·) (· < ·) (o, e) (o', e') := by
  rw [Prod.lex_def]
  by_cases ho : o = o'
  · subst ho
    simp [derive_lt_derive_left_iff]
  · rcases UInt32.lt_or_lt_of_ne ho with hlt | hgt
    · exact iff_of_true (derive_lt_of_lt he hlt) (.inl hlt)
    · refine iff_of_false (UInt64.lt_asymm (derive_lt_of_lt he' hgt)) ?_
      rintro (hlt | ⟨heq, -⟩)
      · exact UInt32.lt_asymm hgt hlt
      · exact ho heq

/-! ## An accepted base -/

/-- No key overflows, splitting never divides by zero and loses nothing, the ordinals of a key come
back exactly when the type ordinal is below the base, and keys are ordered as the pairs of ordinals
are. So no two pairs of an opcode and a type of a catalog share a key. -/
theorem forTypes_packs_in_order {base : UInt32} {types : TypeCatalog}
    (h : forTypes base types = .ok scheme) :
    (∀ o e : UInt32, o.toNat * scheme.base.toNat + e.toNat < 2 ^ 64 ∧
      (scheme.derive o e).toNat = o.toNat * scheme.base.toNat + e.toNat) ∧
    scheme.base.toUInt64 ≠ 0 ∧
    (∀ key q r, scheme.split key = (q, r) →
      r < scheme.base.toUInt64 ∧ q.toNat * scheme.base.toNat + r.toNat = key.toNat) ∧
    (∀ o e : UInt32, scheme.split (scheme.derive o e) = (o.toUInt64, e.toUInt64) ↔
      e < scheme.base) ∧
    (∀ o₁ e₁ o₂ e₂ : UInt32, e₁ < scheme.base → e₂ < scheme.base →
      (scheme.derive o₁ e₁ < scheme.derive o₂ e₂ ↔
        Prod.Lex (· < ·) (· < ·) (o₁, e₁) (o₂, e₂))) ∧
    (∀ type ∈ types.types, type.ordinal < scheme.base) ∧
    ∀ (decl : CatalogDecl) (c : Catalog), decl.build = .ok c → c.scheme = scheme →
      ∀ op ∈ c.opcodes.all, ∀ op' ∈ c.opcodes.all, ∀ type ∈ c.types.types,
        ∀ type' ∈ c.types.types, c.key op type = c.key op' type' → op = op' ∧ type = type' := by
  obtain ⟨hmax, rfl⟩ := forTypes_eq_ok_iff.1 h
  obtain ⟨hbase, htypes⟩ := TypeCatalog.foldl_max_lt.1 hmax
  refine ⟨fun o e => ?_, ?_, fun key q r hsplit => ?_, fun o e => split_derive_eq_iff hbase,
    fun o₁ e₁ o₂ e₂ => derive_lt_derive_iff, htypes, ?_⟩
  · rw [← toNat_derive]
    exact ⟨UInt64.toNat_lt _, rfl⟩
  · exact fun hzero => UInt32.ne_of_lt hbase (UInt32.toUInt64_inj.1 hzero).symm
  · obtain ⟨rfl, rfl⟩ := Prod.mk.inj hsplit
    exact ⟨split_snd_lt hbase key, split_fst_mul_base_add_snd _ key⟩
  · intro decl c hb _ op hop op' hop' type ht type' ht'
    exact (CatalogDecl.valid_of_build hb).eq_of_key_eq hop hop' ht ht'

theorem forTypes_packs_in_order_addMul :
    forTypes 100 Catalog.addMul.types = .ok Catalog.addMul.scheme ∧
      (Catalog.addMul.scheme.derive 4294967295 4294967295).toNat = 433791696795 ∧
      Catalog.addMul.scheme.split (Catalog.addMul.scheme.derive 4294967295 99) = (4294967295, 99) ∧
      Catalog.addMul.scheme.split (Catalog.addMul.scheme.derive 1 100) ≠ (1, 100) ∧
      Catalog.addMul.scheme.derive 1 99 < Catalog.addMul.scheme.derive 2 0 ∧
      ∀ op ∈ Catalog.addMul.opcodes.all, ∀ type ∈ Catalog.addMul.types.types,
        Catalog.addMul.key op type = 201 → op.name = "MUL" ∧ type.name = "FLOAT64" := by
  have h : forTypes 100 Catalog.addMul.types = .ok Catalog.addMul.scheme := by decide
  obtain ⟨hfits, -, -, hback, horder, -, hcatalog⟩ := forTypes_packs_in_order h
  let mul : Opcode := ⟨"MUL", 2, .numeric ⟨2, by decide, by decide⟩⟩
  let float64 : ElementType := ⟨"FLOAT64", "f64", 1⟩
  refine ⟨h, (hfits _ _).2, (hback _ _).2 (by decide), mt (hback 1 100).1 (by decide),
    (horder _ _ _ _ (by decide) (by decide)).2 (.left _ _ (by decide)), ?_⟩
  intro op hop type ht hkey
  have hmul : Catalog.addMul.key mul float64 = 201 := by decide
  obtain ⟨rfl, rfl⟩ := hcatalog CatalogDecl.addMul Catalog.addMul build_addMul rfl op hop mul
    (by decide) type ht float64 (by decide) (hkey.trans hmul.symm)
  exact ⟨rfl, rfl⟩

end KeyScheme

end DispatchGen
