import DispatchGen.Proofs.Valid
import Mathlib.Data.List.Nodup

/-!
# Keys of an accepted catalog

`KeyScheme.derive_eq_iff`: a key stands for one pair of ordinals whose type ordinal is below the
base. Hence the pairs of an accepted catalog have distinct keys (`Catalog.Valid.keys_nodup`), while
a type ordinal that reaches the base carries over into the opcode: the key of `(o, t)` is the key of
`(o + t / base, t % base)`.
-/

namespace DispatchGen

/-- Looking up a member by a field that no two members share. -/
theorem find?_eq_some_iff_of_nodup {α β : Type} [BEq β] [LawfulBEq β] {f : α → β} {xs : List α}
    (h : (xs.map f).Nodup) {b : β} {x : α} :
    xs.find? (f · == b) = some x ↔ x ∈ xs ∧ f x = b := by
  constructor
  · intro hf
    exact ⟨List.mem_of_find?_eq_some hf, by simpa using List.find?_some hf⟩
  · rintro ⟨hx, rfl⟩
    obtain ⟨y, hy⟩ := Option.isSome_iff_exists.1
      (List.find?_isSome.2 ⟨x, hx, beq_self_eq_true (f x)⟩ : (xs.find? (f · == f x)).isSome)
    have hyx : f y = f x := by simpa using List.find?_some hy
    rw [hy, List.inj_on_of_nodup_map h (List.mem_of_find?_eq_some hy) hx hyx]

namespace KeyScheme

variable {scheme : KeyScheme} {o o' e e' : UInt32}

/-- Keys never overflow. -/
theorem toNat_derive (scheme : KeyScheme) (o e : UInt32) :
    (scheme.derive o e).toNat = o.toNat * scheme.base.toNat + e.toNat := by
  have hmul : o.toNat * scheme.base.toNat ≤ (2 ^ 32 - 1) * (2 ^ 32 - 1) :=
    Nat.mul_le_mul (Nat.le_sub_one_of_lt o.toNat_lt) (Nat.le_sub_one_of_lt scheme.base.toNat_lt)
  have he := e.toNat_lt
  rw [derive, UInt64.toNat_add, UInt64.toNat_mul, UInt32.toNat_toUInt64, UInt32.toNat_toUInt64,
    UInt32.toNat_toUInt64, Nat.mod_eq_of_lt (by omega), Nat.mod_eq_of_lt (by omega)]

/-- A key comes from its quotient and remainder by the base, when the type ordinal is below it. -/
theorem derive_eq_iff_div_mod (he : e < scheme.base) {key : UInt64} :
    scheme.derive o e = key ↔
      key.toNat / scheme.base.toNat = o.toNat ∧ key.toNat % scheme.base.toNat = e.toNat := by
  have hb : e.toNat < scheme.base.toNat := UInt32.lt_iff_toNat_lt.1 he
  rw [← UInt64.toNat_inj, toNat_derive]
  constructor
  · intro h
    rw [← h, Nat.add_comm, Nat.add_mul_div_right _ _ (by omega), Nat.add_mul_mod_self_right,
      Nat.div_eq_of_lt hb, Nat.mod_eq_of_lt hb, Nat.zero_add]
    exact ⟨rfl, rfl⟩
  · rintro ⟨hq, hr⟩
    rw [← hq, ← hr]
    exact Nat.div_add_mod' ..

/-- The pair of ordinals behind a key, when the type ordinal is below the base. -/
theorem derive_eq_iff (he' : e' < scheme.base) :
    scheme.derive o e = scheme.derive o' e' ↔
      o'.toNat = o.toNat + e.toNat / scheme.base.toNat ∧
        e'.toNat = e.toNat % scheme.base.toNat := by
  have hpos : 0 < scheme.base.toNat := Nat.zero_lt_of_lt (UInt32.lt_iff_toNat_lt.1 he')
  rw [eq_comm, derive_eq_iff_div_mod he', toNat_derive, Nat.add_comm,
    Nat.add_mul_div_right _ _ hpos, Nat.add_mul_mod_self_right, Nat.add_comm]
  exact and_congr eq_comm eq_comm

/-- Below the base, a key determines the ordinals. -/
theorem derive_inj (he : e < scheme.base) (he' : e' < scheme.base) :
    scheme.derive o e = scheme.derive o' e' ↔ o = o' ∧ e = e' := by
  have hb : e.toNat < scheme.base.toNat := UInt32.lt_iff_toNat_lt.1 he
  rw [derive_eq_iff he', Nat.div_eq_of_lt hb, Nat.mod_eq_of_lt hb, Nat.add_zero,
    UInt32.toNat_inj, UInt32.toNat_inj]
  exact and_congr eq_comm eq_comm

end KeyScheme

namespace Catalog

variable {c : Catalog}

theorem mem_pairs {op : Opcode} {type : ElementType} :
    (op, type) ∈ c.pairs ↔ op ∈ c.opcodes.numeric ∧ type ∈ c.types.dispatchable := by
  simp [pairs]

theorem length_pairs : c.pairs.length = c.pairCount := by
  simp [pairs, pairCount]

namespace Valid

theorem ordinal_lt_of_dispatchable (h : c.Valid) {type : ElementType}
    (ht : type ∈ c.types.dispatchable) : type.ordinal < c.scheme.base :=
  h.ordinal_lt_base type (TypeCatalog.mem_dispatchable.1 ht).1

theorem numeric_sublist : c.opcodes.numeric.Sublist c.opcodes.all :=
  List.sublist_append_right ..

theorem numeric_ordinals_nodup (h : c.Valid) : (c.opcodes.numeric.map (·.ordinal)).Nodup :=
  (numeric_sublist.map _).nodup h.opcodes.ordinals_nodup

theorem numeric_names_nodup (h : c.Valid) : (c.opcodes.numeric.map (·.name)).Nodup :=
  (numeric_sublist.map _).nodup h.opcodes.names_nodup

theorem dispatchable_ordinals_nodup (h : c.Valid) :
    (c.types.dispatchable.map (·.ordinal)).Nodup :=
  (List.filter_sublist.map _).nodup h.types.ordinals_nodup

theorem pairs_nodup (h : c.Valid) : c.pairs.Nodup :=
  .product (.of_map _ h.numeric_ordinals_nodup) (.of_map _ h.dispatchable_ordinals_nodup)

/-- Control opcodes and excluded types have keys of their own as well. -/
theorem eq_of_key_eq (h : c.Valid) {op op' : Opcode} {type type' : ElementType}
    (hop : op ∈ c.opcodes.all) (hop' : op' ∈ c.opcodes.all) (ht : type ∈ c.types.types)
    (ht' : type' ∈ c.types.types) (e : c.key op type = c.key op' type') :
    op = op' ∧ type = type' := by
  obtain ⟨hordinal, hdigit⟩ :=
    (KeyScheme.derive_inj (h.ordinal_lt_base type ht) (h.ordinal_lt_base type' ht')).1 e
  exact ⟨List.inj_on_of_nodup_map h.opcodes.ordinals_nodup hop hop' hordinal,
    List.inj_on_of_nodup_map h.types.ordinals_nodup ht ht' hdigit⟩

theorem key_inj (h : c.Valid) {p q : Opcode × ElementType} (hp : p ∈ c.pairs) (hq : q ∈ c.pairs)
    (e : c.key p.1 p.2 = c.key q.1 q.2) : p = q := by
  obtain ⟨hpo, hpt⟩ := mem_pairs.1 hp
  obtain ⟨hqo, hqt⟩ := mem_pairs.1 hq
  obtain ⟨hop, htype⟩ := h.eq_of_key_eq (numeric_sublist.subset hpo) (numeric_sublist.subset hqo)
    (TypeCatalog.mem_dispatchable.1 hpt).1 (TypeCatalog.mem_dispatchable.1 hqt).1 e
  exact Prod.ext hop htype

/-- No two pairs have one key. -/
theorem keys_nodup (h : c.Valid) : (c.pairs.map fun (op, type) => c.key op type).Nodup :=
  h.pairs_nodup.map_on fun _ hp _ hq e => h.key_inj hp hq e

end Valid

end Catalog

end DispatchGen
