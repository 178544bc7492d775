import DispatchGen.Proofs.Spelling
import DispatchGen.Source.Artifact

/-!
# The lines of a declaration

`Cpp.texts_stub` and `Rust.texts_stub` list the lines of a handler's declaration, margins left out.
All are flush lines (`Cpp.flush_stub`, `Rust.flush_stub`): the names in them fit generated source, and
the lists of parameters hold nothing but names, blanks, commas and the signs of references
(`Text.isParamChar`).
-/

namespace DispatchGen

open Text

/-- What stands in a list of parameters. -/
def Text.isParamChar (c : Char) : Bool :=
  isTokenChar c || c == ' ' || c == ',' || c == '&' || c == '*'

theorem Text.isParamChar_of_isTypeToken {s : String} (h : isTypeToken s = true) :
    ∀ c ∈ s.toList, isParamChar c = true := by
  rw [isTypeToken, Bool.and_eq_true, List.all_eq_true] at h
  intro c hc
  rw [isParamChar, h.2 c hc]
  rfl

theorem Text.newline_not_mem_of_isParamChar {text : List Char}
    (h : ∀ c ∈ text, isParamChar c = true) : '\n' ∉ text := fun hmem =>
  absurd (h '\n' hmem) (by decide)

/-! ## C++ -/

namespace Cpp

/-- The parameters of a handler. -/
def paramsText (o : Options) (stub : Stub) : String :=
  ", ".intercalate
    (s!"{o.symbols.instructionType} *instr" :: stub.operands.map fun op => s!"T *{op}")

def stubTexts (o : Options) (stub : Stub) : List String :=
  ["template <typename T>",
    s!"{o.symbols.statusType} {stub.name}({paramsText o stub})" ++ " \x7b",
    "// kernel body goes here", s!"return {o.symbols.successStatus};", "\x7d"]

theorem texts_stub (o : Options) (stub : Stub) :
    Layout.texts (Cpp.stub o stub) = stubTexts o stub :=
  rfl

variable {o : Options} {stub : Stub} (hs : o.symbols.Spelled) (hstub : stub.Spelled)
include hs hstub

theorem isParamChar_paramsText : ∀ c ∈ (paramsText o stub).toList, isParamChar c = true := by
  have hinstruction := isParamChar_of_isTypeToken
    (hs o.symbols.instructionType (by simp [Symbols.toList]))
  refine forall_mem_intercalate (List.all_eq_true.1 (by decide)) (List.forall_mem_cons.2 ⟨?_, ?_⟩)
  · simp only [String.toList_append, List.forall_mem_append]
    exact ⟨hinstruction, List.all_eq_true.1 (by decide)⟩
  · refine List.forall_mem_map.2 fun op hop => ?_
    simp only [String.toList_append, List.forall_mem_append]
    exact ⟨List.all_eq_true.1 (by decide), isParamChar_of_isTypeToken (hstub.operands op hop)⟩

theorem flush_stub : ∀ text ∈ stubTexts o stub, Flush text.toList := by
  have h := hs.not_mem (c := '\n') (by decide)
  simp only [Symbols.toList, List.forall_mem_cons] at h
  have hstatus : isTypeToken o.symbols.statusType = true := hs _ (by simp [Symbols.toList])
  have hname : '\n' ∉ stub.name.toList := not_mem_of_isTypeToken hstub.name (by decide)
  have hparams := newline_not_mem_of_isParamChar (isParamChar_paramsText hs hstub)
  have hsignature : Flush (s!"{o.symbols.statusType} {stub.name}({paramsText o stub})" ++
      " \x7b").toList := by
    simp only [toString_string, String.toList_append, List.append_assoc]
    exact flush_append_of_isTypeToken hstatus (by simp [hname, hparams])
  simp only [stubTexts, List.forall_mem_cons]
  refine ⟨?_, hsignature, ?_⟩
  · simp [flush_iff, isBlank]
  · simp [flush_iff, isBlank, h]

end Cpp

/-! ## Rust -/

namespace Rust

/-- The parameters of a handler. -/
def paramsText (o : Options) (stub : Stub) : String :=
  ", ".intercalate (s!"instr: &{o.symbols.instructionType}" :: operandParams stub.operands)

/-- The names of the parameters. -/
def operandsText (stub : Stub) : String :=
  ", ".intercalate ("instr" :: stub.operands)

def stubTexts (o : Options) (stub : Stub) : List String :=
  [s!"pub fn {stub.name}<T>({paramsText o stub}) -> {o.symbols.statusType}" ++ " \x7b",
    s!"let _ = ({operandsText stub});", "// kernel body goes here", o.symbols.successStatus, "\x7d"]

theorem texts_stub (o : Options) (stub : Stub) :
    Layout.texts (Rust.stub o stub) = stubTexts o stub :=
  rfl

variable {o : Options} {stub : Stub}

theorem isParamChar_operandsText (hstub : stub.Spelled) :
    ∀ c ∈ (operandsText stub).toList, isParamChar c = true :=
  forall_mem_intercalate (List.all_eq_true.1 (by decide)) (List.forall_mem_cons.2
    ⟨List.all_eq_true.1 (by decide),
      fun op hop => isParamChar_of_isTypeToken (hstub.operands op hop)⟩)

variable (hs : o.symbols.Spelled) (hstub : stub.Spelled)
include hs hstub

theorem isParamChar_paramsText : ∀ c ∈ (paramsText o stub).toList, isParamChar c = true := by
  have hinstruction := isParamChar_of_isTypeToken
    (hs o.symbols.instructionType (by simp [Symbols.toList]))
  have hoperand : ∀ op ∈ stub.operands, ∀ c ∈ op.toList, isParamChar c = true := fun op hop =>
    isParamChar_of_isTypeToken (hstub.operands op hop)
  have hparams : ∀ text ∈ operandParams stub.operands, ∀ c ∈ text.toList, isParamChar c = true := by
    cases hops : stub.operands with
    | nil => simp [operandParams]
    | cons output inputs =>
      rw [hops, List.forall_mem_cons] at hoperand
      refine List.forall_mem_cons.2 ⟨?_, List.forall_mem_map.2 fun op hop => ?_⟩
      · simp only [String.toList_append, List.forall_mem_append]
        exact ⟨hoperand.1, List.all_eq_true.1 (by decide)⟩
      · simp only [String.toList_append, List.forall_mem_append]
        exact ⟨hoperand.2 op hop, List.all_eq_true.1 (by decide)⟩
  refine forall_mem_intercalate (List.all_eq_true.1 (by decide))
    (List.forall_mem_cons.2 ⟨?_, hparams⟩)
  simp only [String.toList_append, List.forall_mem_append]
  exact ⟨List.all_eq_true.1 (by decide), hinstruction⟩

theorem flush_stub : ∀ text ∈ stubTexts o stub, Flush text.toList := by
  have h := hs.not_mem (c := '\n') (by decide)
  simp only [Symbols.toList, List.forall_mem_cons] at h
  have hname : '\n' ∉ stub.name.toList := not_mem_of_isTypeToken hstub.name (by decide)
  have hparams := newline_not_mem_of_isParamChar (isParamChar_paramsText hs hstub)
  have hnames := newline_not_mem_of_isParamChar (isParamChar_operandsText hstub)
  have hsuccess : Flush o.symbols.successStatus.toList :=
    flush_of_isTypeToken (hs _ (by simp [Symbols.toList]))
  simp only [stubTexts, List.forall_mem_cons]
  refine ⟨?_, ?_, ?_, hsuccess, ?_⟩
  · simp [flush_iff, isBlank, h, hname, hparams]
  · simp [flush_iff, isBlank, hnames]
  · simp [flush_iff, isBlank]
  · simp [flush_iff, isBlank]

end Rust

end DispatchGen
