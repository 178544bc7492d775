import DispatchGen.Dispatch.Stub
import DispatchGen.Dispatch.Table
import DispatchGen.Proofs.BareLines
import DispatchGen.Proofs.Keys
import DispatchGen.Source.Options

/-!
# Spelling

What names, symbols and numbers look like in generated source. An identifier is a type token, and a
token holds no blank, bracket or newline, so that it ends where the text around it goes on.
`Symbols.Spelled`, `Table.Spelled` and `Stub.Spelled` say this of all names an artifact is laid out
from; options that pass `Options.validate` are spelled (`Options.spelled_of_validate`), and so are the
table and the stubs of an accepted catalog (`Catalog.Valid.spelled_table`,
`Catalog.Valid.spelled_stubs`).
-/

namespace DispatchGen

namespace Text

/-! ## Tokens -/

theorem isWordChar_of_isIdentifier {s : String} (h : isIdentifier s = true) :
    ∀ c ∈ s.toList, isWordChar c = true := by
  rw [isIdentifier] at h
  split at h
  · cases h
  · next c cs hs =>
    rw [Bool.and_eq_true, List.all_eq_true] at h
    rw [hs, List.forall_mem_cons]
    refine ⟨?_, h.2⟩
    have hc := h.1
    simp only [isInitial, isWordChar, Char.isAlphanum, Bool.or_eq_true] at hc ⊢
    exact hc.imp_left Or.inl

theorem isTypeToken_of_isIdentifier {s : String} (h : isIdentifier s = true) :
    isTypeToken s = true := by
  have hchars : ∀ c ∈ s.toList, isTokenChar c = true := fun c hc => by
    simp [isTokenChar, isWordChar_of_isIdentifier h c hc]
  have hne : s.toList ≠ [] := fun hnil => by simp [isIdentifier, hnil] at h
  simpa [isTypeToken, hne] using hchars

theorem not_mem_of_isTypeToken {s : String} (h : isTypeToken s = true) {c : Char}
    (hc : isTokenChar c = false) : c ∉ s.toList := by
  rw [isTypeToken, Bool.and_eq_true, List.all_eq_true] at h
  exact fun hm => Bool.false_ne_true (hc.symm.trans (h.2 c hm))

theorem flush_of_isTypeToken {s : String} (h : isTypeToken s = true) : Flush s.toList := by
  refine ⟨not_mem_of_isTypeToken h (by decide), fun c hc => Bool.eq_false_iff.2 fun hb => ?_⟩
  have hc : c ∈ s.toList := List.mem_of_mem_head? hc
  rcases isBlank_eq_true_iff.1 hb with rfl | rfl
  · exact not_mem_of_isTypeToken h (by decide) hc
  · exact not_mem_of_isTypeToken h (by decide) hc

theorem flush_append_of_isTypeToken {s : String} (h : isTypeToken s = true) {rest : List Char}
    (hr : '\n' ∉ rest) : Flush (s.toList ++ rest) := by
  obtain ⟨hs, hhead⟩ := flush_of_isTypeToken h
  have hne : s.toList ≠ [] := fun hnil => by simp [isTypeToken, hnil] at h
  refine ⟨List.mem_append.not.2 (not_or.2 ⟨hs, hr⟩), ?_⟩
  rwa [List.head?_append_of_ne_nil _ hne]

theorem isPrefixOf_eq_false_of_not_mem {lead text : List Char} {c : Char} (hc : c ∈ lead)
    (h : c ∉ text) : lead.isPrefixOf text = false :=
  Bool.eq_false_iff.2 fun hp => h ((List.isPrefixOf_iff_prefix.1 hp).subset hc)

/-! ## Numbers -/

@[simp]
theorem toString_string (s : String) : toString s = s :=
  rfl

/-! Words are written as the numbers they hold. -/

theorem toString_uint32 (n : UInt32) : toString n = toString n.toNat :=
  rfl

theorem toString_uint64 (n : UInt64) : toString n = toString n.toNat :=
  rfl

theorem isDigit_of_mem_toString {n : Nat} {c : Char} (h : c ∈ (toString n).toList) :
    c.isDigit = true := by
  rw [Nat.toString_eq_repr, Nat.toList_repr] at h
  exact Nat.isDigit_of_mem_toDigits (by decide) (by decide) h

theorem isTokenChar_of_mem_toString {n : Nat} {c : Char} (h : c ∈ (toString n).toList) :
    isTokenChar c = true := by
  simp [isTokenChar, isWordChar, Char.isAlphanum, isDigit_of_mem_toString h]

theorem not_mem_toString {n : Nat} {c : Char} (hc : c.isDigit = false) : c ∉ (toString n).toList :=
  fun h => Bool.false_ne_true (hc.symm.trans (isDigit_of_mem_toString h))

theorem exists_digit_toString (n : Nat) :
    ∃ d ds, (toString n).toList = d :: ds ∧ d.isDigit = true := by
  cases h : (toString n).toList with
  | nil =>
    rw [Nat.toString_eq_repr, Nat.toList_repr] at h
    exact absurd h Nat.toDigits_ne_nil
  | cons d ds => exact ⟨d, ds, rfl, isDigit_of_mem_toString (h ▸ List.mem_cons_self)⟩

/-- A text that starts with anything but a digit is not in front of a number. -/
theorem isPrefixOf_toString_append {c : Char} (hc : c.isDigit = false) (cs : List Char) (n : Nat)
    (rest : List Char) : (c :: cs).isPrefixOf ((toString n).toList ++ rest) = false := by
  obtain ⟨d, ds, h, hd⟩ := exists_digit_toString n
  have hne : (c == d) = false := beq_false_of_ne fun e => by simp [e, hd] at hc
  rw [h, List.cons_append, List.isPrefixOf_cons_cons, hne, Bool.false_and]

theorem isBlank_of_isDigit {c : Char} (h : c.isDigit = true) : isBlank c = false :=
  Bool.eq_false_iff.2 fun hb => by
    rcases isBlank_eq_true_iff.1 hb with rfl | rfl
    · cases h
    · cases h

/-! ## Lists -/

theorem not_mem_intercalate {c : Char} {sep : String} {texts : List String}
    (hsep : c ∉ sep.toList) (h : ∀ text ∈ texts, c ∉ text.toList) :
    c ∉ (sep.intercalate texts).toList := by
  rw [String.toList_intercalate]
  induction texts with
  | nil => simp
  | cons text texts ih =>
    have ih := ih fun s hs => h s (List.mem_cons_of_mem _ hs)
    cases texts with
    | nil => simpa using h text List.mem_cons_self
    | cons next texts =>
      rw [List.map_cons, List.map_cons, List.intercalate_cons_cons, List.mem_append,
        List.mem_append, not_or, not_or]
      exact ⟨⟨h text List.mem_cons_self, hsep⟩, ih⟩

theorem forall_mem_intercalate {p : Char → Prop} {sep : String} {texts : List String}
    (hsep : ∀ c ∈ sep.toList, p c) (h : ∀ text ∈ texts, ∀ c ∈ text.toList, p c) :
    ∀ c ∈ (sep.intercalate texts).toList, p c := by
  intro c hc
  apply Classical.byContradiction
  intro hp
  exact not_mem_intercalate (fun hmem => hp (hsep c hmem))
    (fun text ht hmem => hp (h text ht c hmem)) hc

end Text

open Text

/-! ## What an artifact is laid out from -/

/-- Every symbol fits generated source. -/
def Symbols.Spelled (s : Symbols String) : Prop :=
  ∀ symbol ∈ s.toList, isTypeToken symbol = true

theorem Symbols.Spelled.not_mem {s : Symbols String} (hs : s.Spelled) {c : Char}
    (hc : isTokenChar c = false) : ∀ symbol ∈ s.toList, c ∉ symbol.toList := fun symbol h =>
  not_mem_of_isTypeToken (hs symbol h) hc

theorem Options.isIdentifier_of_validate {o : Options} (h : o.validate = .ok ()) :
    ∀ name ∈ o.symbols.identifiers, isIdentifier name = true := by
  simp only [validate, List.forM_eq_forM, check_bind_eq_ok, forM_eq_ok_iff,
    requireIdentifier_eq_ok_iff] at h
  exact h.1

theorem Options.spelled_of_validate {o : Options} (h : o.validate = .ok ()) :
    o.symbols.Spelled := by
  simp only [validate, List.forM_eq_forM, check_bind_eq_ok, forM_eq_ok_iff,
    requireIdentifier_eq_ok_iff, requireTypeToken_eq_ok_iff, Symbols.identifiers,
    Symbols.typeTokens, List.forall_mem_cons] at h
  obtain ⟨⟨hroutine, htext, hprefix, -⟩, hinstr, hindex, hstatus, hsuccess, hunsupported, -⟩ := h
  simp only [Symbols.Spelled, Symbols.toList, List.forall_mem_cons]
  exact ⟨isTypeToken_of_isIdentifier hroutine, hinstr, hindex, hstatus, hsuccess, hunsupported,
    isTypeToken_of_isIdentifier htext, isTypeToken_of_isIdentifier hprefix, by simp⟩

/-- The names of an arm fit generated source. -/
structure Arm.Spelled (arm : Arm) : Prop where
  opcode : isTypeToken arm.opcode = true
  element : isTypeToken arm.element = true
  token : isTypeToken arm.token = true
  handler : isTypeToken arm.handler = true

/-- The names in a table fit generated source. -/
structure Table.Spelled (t : Table) : Prop where
  controls : ∀ control ∈ t.controls, isTypeToken control.name = true
  arms : ∀ arm ∈ t.arms, arm.Spelled

/-- The names in a handler's declaration fit generated source. -/
structure Stub.Spelled (stub : Stub) : Prop where
  name : isTypeToken stub.name = true
  operands : ∀ operand ∈ stub.operands, isTypeToken operand = true

theorem isTypeToken_of_mem_operandNames {count : Nat} {operand : String}
    (h : operand ∈ operandNames count) : isTypeToken operand = true := by
  obtain ⟨i, -, rfl⟩ := List.mem_map.1 h
  have hdigits : ∀ c ∈ (toString (i + 1)).toList, isTokenChar c = true := fun _ =>
    isTokenChar_of_mem_toString
  have htext : (s!"op{i + 1}").toList = 'o' :: 'p' :: (toString (i + 1)).toList := by
    simp
  rw [isTypeToken, htext, List.all_cons, List.all_cons, List.all_eq_true.2 hdigits]
  rfl

theorem Catalog.Valid.spelled_stubs {c : Catalog} (h : c.Valid) :
    ∀ stub ∈ c.stubs, stub.Spelled :=
  List.forall_mem_map.2 fun op hop =>
    { name := isTypeToken_of_isIdentifier (h.handlers op hop)
      operands := fun _ ho => isTypeToken_of_mem_operandNames ho }

theorem Catalog.Valid.spelled_table {c : Catalog} (h : c.Valid) : c.table.Spelled where
  controls := List.forall_mem_map.2 fun op hop =>
    isTypeToken_of_isIdentifier (h.opcodes.names op (List.mem_append_left _ hop))
  arms := List.forall_mem_map.2 fun (op, type) hp => by
    obtain ⟨hop, ht⟩ := Catalog.mem_pairs.1 hp
    have htype := (TypeCatalog.mem_dispatchable.1 ht).1
    exact {
      opcode := isTypeToken_of_isIdentifier (h.opcodes.names op (List.mem_append_right _ hop))
      element := isTypeToken_of_isIdentifier (h.types.names type htype)
      token := h.types.tokens type htype
      handler := isTypeToken_of_isIdentifier (h.handlers op hop) }

end DispatchGen
