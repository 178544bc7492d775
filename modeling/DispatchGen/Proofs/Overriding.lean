import DispatchGen.CatalogFile.Basic
import DispatchGen.Proofs.Checks

/-!
# Overrides, field by field

What overrides come to is known symbol by symbol: each has a rule for what it may be
(`Symbol.admits`) and a place in the order of the checks (`Symbol.checked`). The defaults of a target
keep their rules, so that a refusal is always that of an override, the first in that order
(`Overrides.resolve_eq_error_iff`). `Overrides.resolves_by_field` puts this together with where each
field of the options comes from.
-/

namespace DispatchGen

/-! ## Symbols by name -/

/-- What generated code refers to in the engine. -/
inductive Symbol where
  | routineName
  | instructionType
  | indexType
  | statusType
  | successStatus
  | unsupportedStatus
  | opcodeText
  | iteratePrefix
deriving DecidableEq, Repr

/-- The entry for a symbol. -/
def Symbols.get {α : Type} (s : Symbols α) : Symbol → α
  | .routineName => s.routineName
  | .instructionType => s.instructionType
  | .indexType => s.indexType
  | .statusType => s.statusType
  | .successStatus => s.successStatus
  | .unsupportedStatus => s.unsupportedStatus
  | .opcodeText => s.opcodeText
  | .iteratePrefix => s.iteratePrefix

theorem Symbols.get_zipWith {α β γ : Type} (f : α → β → γ) (a : Symbols α) (b : Symbols β)
    (symbol : Symbol) : (a.zipWith f b).get symbol = f (a.get symbol) (b.get symbol) := by
  cases symbol <;> rfl

namespace Symbol

/-- Functions and iterators are called by identifiers; types and statuses may be tokens. -/
def admits : Symbol → String → Bool
  | routineName | opcodeText | iteratePrefix => Text.isIdentifier
  | instructionType | indexType | statusType | successStatus | unsupportedStatus => Text.isTypeToken

/-- Every symbol, in the order of the checks. -/
def checked : List Symbol :=
  [routineName, opcodeText, iteratePrefix, instructionType, indexType, statusType, successStatus,
    unsupportedStatus]

theorem mem_checked (symbol : Symbol) : symbol ∈ checked := by
  cases symbol <;> decide

/-- Refuses what the symbol may not be. -/
def require (symbol : Symbol) (value : String) : Except Fault Unit :=
  if symbol.admits value then .ok () else .error (.invalidSymbol value)

theorem require_eq_ok_iff {symbol : Symbol} {value : String} :
    symbol.require value = .ok () ↔ symbol.admits value = true := by
  simp [require]

theorem require_eq_error_iff {symbol : Symbol} {value : String} {fault : Fault} :
    symbol.require value = .error fault ↔
      symbol.admits value = false ∧ fault = .invalidSymbol value := by
  unfold require
  split
  · next h => simp [h]
  · next h => simp [h, eq_comm]

end Symbol

/-! ## Checks -/

/-- The check of options goes through the symbols one by one. -/
theorem Options.validate_eq (o : Options) :
    o.validate = forM Symbol.checked fun symbol => symbol.require (o.symbols.get symbol) := by
  have hidentifiers : o.symbols.identifiers.forM requireIdentifier =
      forM [Symbol.routineName, .opcodeText, .iteratePrefix] fun symbol =>
        symbol.require (o.symbols.get symbol) :=
    rfl
  have htokens : o.symbols.typeTokens.forM requireTypeToken =
      forM [Symbol.instructionType, .indexType, .statusType, .successStatus, .unsupportedStatus]
        fun symbol => symbol.require (o.symbols.get symbol) :=
    rfl
  rw [validate, hidentifiers, htokens, ← List.forM_append]
  rfl

theorem Symbol.require_default (symbol : Symbol) (target : Target) :
    symbol.require ((Symbols.ofTarget target).get symbol) = .ok () := by
  have h := Options.validate_ofTarget target
  rw [Options.validate_eq, forM_eq_ok_iff] at h
  exact h symbol symbol.mem_checked

namespace Overrides

variable {overrides : Overrides} {target : Option Target}

theorem get_apply (overrides : Overrides) (target : Option Target) (symbol : Symbol) :
    (overrides.apply target).symbols.get symbol =
      (overrides.symbols.get symbol).getD
        ((Symbols.ofTarget (overrides.apply target).target).get symbol) :=
  Symbols.get_zipWith _ _ _ symbol

/-- An override decides about its symbol; where there is none, the default passes. -/
theorem require_apply (overrides : Overrides) (target : Option Target) (symbol : Symbol) :
    symbol.require ((overrides.apply target).symbols.get symbol) =
      match overrides.symbols.get symbol with
      | some value => symbol.require value
      | none => .ok () := by
  rw [get_apply]
  cases overrides.symbols.get symbol with
  | some value => rfl
  | none => exact symbol.require_default _

/-- The symbol may be what it is set to, if it is set. -/
def Fits (overrides : Overrides) (symbol : Symbol) : Prop :=
  ∀ value, overrides.symbols.get symbol = some value → symbol.admits value = true

theorem require_apply_eq_ok_iff {symbol : Symbol} :
    symbol.require ((overrides.apply target).symbols.get symbol) = .ok () ↔
      overrides.Fits symbol := by
  rw [require_apply, Fits]
  cases overrides.symbols.get symbol with
  | some value => simp [Symbol.require_eq_ok_iff]
  | none => simp

theorem require_apply_eq_error_iff {symbol : Symbol} {fault : Fault} :
    symbol.require ((overrides.apply target).symbols.get symbol) = .error fault ↔
      ∃ value, overrides.symbols.get symbol = some value ∧ symbol.admits value = false ∧
        fault = .invalidSymbol value := by
  rw [require_apply]
  cases overrides.symbols.get symbol with
  | some value => simp [Symbol.require_eq_error_iff]
  | none => simp

/-! ## Resolving -/

theorem resolve_eq_ok_iff {o : Options} :
    overrides.resolve target = .ok o ↔
      (∀ symbol, overrides.Fits symbol) ∧ o = overrides.apply target := by
  rw [resolve, check_bind_eq_ok, pure_eq_ok, Options.validate_eq, forM_eq_ok_iff, eq_comm (a := o)]
  refine and_congr_left fun _ => ?_
  simp only [require_apply_eq_ok_iff, Symbol.mem_checked, true_imp_iff]

theorem exists_resolve_iff :
    (∃ o, overrides.resolve target = .ok o) ↔ ∀ symbol, overrides.Fits symbol := by
  simp [resolve_eq_ok_iff]

/-- The first override that does not fit, in the order of the checks, is refused. -/
theorem resolve_eq_error_iff {fault : Fault} :
    overrides.resolve target = .error fault ↔
      ∃ front symbol rest value, Symbol.checked = front ++ symbol :: rest ∧
        (∀ earlier ∈ front, overrides.Fits earlier) ∧
        overrides.symbols.get symbol = some value ∧ symbol.admits value = false ∧
          fault = .invalidSymbol value := by
  have hpure : ∀ o : Options, (pure o : Except Fault Options) ≠ .error fault := nofun
  rw [resolve, check_bind_eq_error, Options.validate_eq, forM_eq_error_iff]
  simp only [hpure, and_false, or_false, require_apply_eq_ok_iff, require_apply_eq_error_iff,
    exists_and_left]

/-- Overrides resolve exactly if every symbol that they set is one that may stand there. The target is
then the one asked for, else the one set, else C++; every other field is as it was set, or as the
target has it by default, and tabs are off. What is refused is the first symbol in the order of the
checks that was set to something it may not be. -/
theorem resolves_by_field (overrides : Overrides) (target : Option Target) :
    ((∃ o, overrides.resolve target = .ok o) ↔ ∀ symbol, overrides.Fits symbol) ∧
    (∀ o, overrides.resolve target = .ok o →
      let defaults := Options.ofTarget o.target
      o.target = (target.or overrides.target).getD .cpp ∧
        o.keyStyle = overrides.keyStyle.getD defaults.keyStyle ∧
        o.comments = overrides.comments.getD defaults.comments ∧
        o.indent.size = overrides.indent.getD defaults.indent.size ∧ o.indent.tabs = false ∧
        ∀ symbol, o.symbols.get symbol =
          (overrides.symbols.get symbol).getD (defaults.symbols.get symbol)) ∧
    ∀ fault, overrides.resolve target = .error fault ↔
      ∃ front symbol rest value, Symbol.checked = front ++ symbol :: rest ∧
        (∀ earlier ∈ front, overrides.Fits earlier) ∧
        overrides.symbols.get symbol = some value ∧ symbol.admits value = false ∧
          fault = .invalidSymbol value := by
  refine ⟨exists_resolve_iff, fun o ho => ?_, fun fault => resolve_eq_error_iff⟩
  obtain ⟨-, rfl⟩ := resolve_eq_ok_iff.1 ho
  exact ⟨rfl, rfl, rfl, rfl, rfl, overrides.get_apply target⟩

/-- The type comes first among the overrides, the prefix among the checks. -/
example : Overrides.resolve { symbols := { Symbols.const none with
    instructionType := some "a b", iteratePrefix := some "" } } = .error (.invalidSymbol "") :=
  rfl

end Overrides

end DispatchGen
