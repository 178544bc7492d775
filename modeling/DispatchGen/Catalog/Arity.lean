/-!
# Arity

The number of operand references a handler receives. The handlers' calling convention supports one
to `maxArity` of them, so a count outside that range has no arity (`Arity.ofCount?_eq_some_iff`).
-/

namespace DispatchGen

/-- The largest operand count of the calling convention. -/
def maxArity : Nat := 8

/-- A supported operand count. -/
structure Arity where
  count : Nat
  one_le : 1 ≤ count
  le_max : count ≤ maxArity
deriving DecidableEq, Repr

namespace Arity

/-- The arity of a declared count; a count that is not supported has none. -/
def ofCount? (count : Int) : Option Arity :=
  if h : 1 ≤ count.toNat ∧ count.toNat ≤ maxArity then some ⟨count.toNat, h.1, h.2⟩ else none

theorem ofCount?_eq_some_iff {count : Int} {a : Arity} :
    ofCount? count = some a ↔ (a.count : Int) = count := by
  obtain ⟨n, h1, h8⟩ := a
  rw [ofCount?]
  split
  · next h =>
    simp only [Option.some.injEq, mk.injEq]
    omega
  · next h =>
    simp only [maxArity] at h h8
    simp only [reduceCtorEq, false_iff]
    omega

theorem isSome_ofCount?_iff {count : Int} :
    (ofCount? count).isSome ↔ 1 ≤ count ∧ count ≤ maxArity := by
  have : maxArity = 8 := rfl
  rw [ofCount?]
  split <;> simp <;> omega

end Arity

end DispatchGen
