import DispatchGen.Catalog.ElementType

/-!
# Dispatch keys

A dispatch key packs an opcode and an element type into one integer,
`opcode ordinal * base + type ordinal`. The packing loses nothing when the base exceeds every type
ordinal, so `KeyScheme.forTypes` refuses any other base. Ordinals and the base have 32 bits and keys
have 64, so that no key overflows.
-/

namespace DispatchGen

/-- The base of a catalog that does not set one. -/
def defaultBase : UInt32 := 100

/-- How the keys of one type catalog are packed. -/
structure KeyScheme where
  base : UInt32
deriving DecidableEq, Repr

namespace KeyScheme

/-- The scheme with the given base, which must exceed every ordinal of `types`. -/
def forTypes (base : UInt32) (types : TypeCatalog) : Except Fault KeyScheme :=
  if types.maxOrdinal < base then .ok { base } else .error (.baseTooSmall base types.maxOrdinal)

/-- The key of an opcode ordinal and a type ordinal. -/
def derive (scheme : KeyScheme) (opcode element : UInt32) : UInt64 :=
  opcode.toUInt64 * scheme.base.toUInt64 + element.toUInt64

/-- The quotient and remainder of a key by the base: the ordinals it was derived from. -/
def split (scheme : KeyScheme) (key : UInt64) : UInt64 × UInt64 :=
  (key / scheme.base.toUInt64, key % scheme.base.toUInt64)

end KeyScheme

end DispatchGen
