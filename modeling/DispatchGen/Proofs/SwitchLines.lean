import DispatchGen.Proofs.Spelling
import DispatchGen.Source.Cpp

/-!
# The lines of a switch

`Cpp.texts_routine` lists the lines of a C++ routine, margins left out. All are flush lines
(`Cpp.flush_texts`), and the lines that say something of the table are cut into their pieces here.
-/

namespace DispatchGen

open Text

namespace Cpp

variable (o : Options)

/-! ## The lines, in order -/

/-- The lines in front of the switch over opcodes. -/
def opening : List String :=
  let s := o.symbols
  [s!"{s.statusType} {s.routineName}({s.indexType} instruction_count, " ++
      s.instructionType ++ " instruction_list[])" ++ " \x7b",
    s!"for ({s.indexType} i = 0; i < instruction_count; ++i)" ++ " \x7b",
    s!"{s.instructionType} *instr = &instruction_list[i];"]

/-- The line that makes the key. -/
def keyText (base : UInt32) : String :=
  "const long long key = (long long)instr->opcode * " ++ s!"{base}" ++
    " + instr->operand[0]->type;"

/-- The line that calls an arm's handler. -/
def callText (arm : Arm) : String :=
  s!"{o.symbols.iteratePrefix}{arm.arity}<{arm.token}>(instr, &{arm.handler});"

def armTexts (base : UInt32) (arm : Arm) : List String :=
  [armLabel o base arm, callText o arm, "break;"]

def controlTexts (controls : List ControlEntry) : List String :=
  if controls.isEmpty then [] else controls.map (controlLabel o) ++ ["break;", ""]

/-- The lines behind the arms. -/
def closing : List String :=
  ["", "default:", "fprintf(", "stderr,",
      "\"" ++ o.symbols.routineName ++ "() encountered an unsupported instruction: %s\\n\","] ++
    s!"{o.symbols.opcodeText}(instr->opcode)" ::
      [");", s!"return {o.symbols.unsupportedStatus};", "\x7d", "break;", "\x7d", "\x7d", "\x7d",
        s!"return {o.symbols.successStatus};", "\x7d"]

theorem texts_controls (controls : List ControlEntry) :
    Layout.texts (Cpp.controls o controls) = controlTexts o controls := by
  unfold Cpp.controls controlTexts
  split
  · rfl
  · have hlabels : controls.map (fun control => Step.line (controlLabel o control)) =
        (controls.map (controlLabel o)).map Step.line := by
      rw [List.map_map]
      rfl
    rw [Layout.texts_append, hlabels, Layout.texts_map_line]
    rfl

theorem texts_arms (base : UInt32) (arms : List Arm) :
    Layout.texts (arms.flatMap (arm o base)) = arms.flatMap (armTexts o base) := by
  induction arms with
  | nil => rfl
  | cons arm arms ih =>
    rw [List.flatMap_cons, Layout.texts_append, ih, List.flatMap_cons]
    rfl

/-- The lines behind the one that opens the switch over opcodes. -/
def cases (t : Table) : List String :=
  controlTexts o t.controls ++ "default: \x7b" :: keyText t.base :: "switch (key) \x7b" ::
    (t.arms.flatMap (armTexts o t.base) ++ closing o)

theorem texts_routine (t : Table) :
    Layout.texts (routine o t) = opening o ++ "switch (instr->opcode) \x7b" :: cases o t := by
  have hopcode : "switch (instr->opcode)" ++ " \x7b" = "switch (instr->opcode) \x7b" := by decide
  have hdefault : "default:" ++ " \x7b" = "default: \x7b" := by decide
  have hkey : "switch (key)" ++ " \x7b" = "switch (key) \x7b" := by decide
  simp only [routine, Step.braced, dispatch, unknownKey, Layout.texts, Step.texts,
    Layout.texts_append, texts_controls, texts_arms]
  simp only [List.cons_append, List.nil_append, List.append_assoc, Option.toList_some,
    Option.toList_none, List.append_nil]
  rw [hopcode, hdefault, hkey]
  rfl

/-! ## Lines cut into pieces -/

/-- What follows the number in a literal label. -/
def labelTail (o : Options) (comment : String) : List Char :=
  if o.comments then ": // ".toList ++ comment.toList else ":".toList

theorem toList_label (literal symbolic comment : String) :
    (label o literal symbolic comment).toList = "case ".toList ++
      match o.keyStyle with
      | .literal => literal.toList ++ labelTail o comment
      | .symbolic => symbolic.toList ++ [':'] := by
  unfold label labelTail
  cases o.keyStyle with
  | literal =>
    cases o.comments with
    | true => simp
    | false => simp
  | symbolic => simp

theorem toList_sum (base : UInt32) (arm : Arm) :
    (s!"{arm.opcode}*{base}+{arm.element}").toList = arm.opcode.toList ++
      '*' :: ((toString base.toNat).toList ++ ("+".toList ++ arm.element.toList)) := by
  simp [toString_uint32]

theorem toList_callText (arm : Arm) :
    (callText o arm).toList = o.symbols.iteratePrefix.toList ++ ((toString arm.arity).toList ++
      ("<".toList ++ ((arm.token.toList ++ ['>']) ++ '(' :: ("instr, &".toList ++
        (arm.handler.toList ++ ')' :: ";".toList))))) := by
  unfold callText
  simp

theorem toList_keyText (base : UInt32) : (keyText base).toList =
    "const long long key = (long long)instr->opcode * ".toList ++
      ((toString base.toNat).toList ++ " + instr->operand[0]->type;".toList) := by
  unfold keyText
  simp [toString_uint32]

/-! ## Flush lines -/

variable {o} {t : Table} {arm : Arm}

theorem flush_label {literal symbolic comment : String} (hl : '\n' ∉ literal.toList)
    (hs : '\n' ∉ symbolic.toList) (hc : '\n' ∉ comment.toList) :
    Flush (label o literal symbolic comment).toList := by
  have htail : '\n' ∉ labelTail o comment := by
    unfold labelTail
    split
    · simp [hc]
    · decide
  rw [toList_label, flush_iff]
  cases o.keyStyle with
  | literal => simp [isBlank, hl, htail]
  | symbolic => simp [isBlank, hs]

theorem flush_controlLabel {control : ControlEntry} (hc : isTypeToken control.name = true) :
    Flush (controlLabel o control).toList := by
  have hname : '\n' ∉ control.name.toList := not_mem_of_isTypeToken hc (by decide)
  exact flush_label (not_mem_toString (n := control.ordinal.toNat) (by decide)) hname hname

theorem flush_armLabel (base : UInt32) (ha : arm.Spelled) :
    Flush (armLabel o base arm).toList := by
  have hopcode : '\n' ∉ arm.opcode.toList := not_mem_of_isTypeToken ha.opcode (by decide)
  have helement : '\n' ∉ arm.element.toList := not_mem_of_isTypeToken ha.element (by decide)
  refine flush_label (not_mem_toString (n := arm.key.toNat) (by decide)) ?_ ?_
  · rw [toList_sum]
    simp [hopcode, helement, not_mem_toString, -Nat.toString_eq_repr]
  · simp [Arm.pairing, Pairing.text, hopcode, helement]

theorem flush_keyText (base : UInt32) : Flush (keyText base).toList := by
  rw [toList_keyText, flush_iff]
  simp [isBlank, not_mem_toString, -Nat.toString_eq_repr]

section
variable (hs : o.symbols.Spelled)
include hs

theorem flush_callText (ha : arm.Spelled) : Flush (callText o arm).toList := by
  have htoken : '\n' ∉ arm.token.toList := not_mem_of_isTypeToken ha.token (by decide)
  have hhandler : '\n' ∉ arm.handler.toList := not_mem_of_isTypeToken ha.handler (by decide)
  rw [toList_callText]
  refine flush_append_of_isTypeToken (hs _ (by simp [Symbols.toList])) ?_
  simp [htoken, hhandler, not_mem_toString, -Nat.toString_eq_repr]

theorem flush_opening : ∀ text ∈ opening o, Flush text.toList := by
  have h := hs.not_mem (c := '\n') (by decide)
  simp only [Symbols.toList, List.forall_mem_cons] at h
  have hstatus : isTypeToken o.symbols.statusType = true := hs _ (by simp [Symbols.toList])
  have hinstr : isTypeToken o.symbols.instructionType = true := hs _ (by simp [Symbols.toList])
  simp only [opening, List.forall_mem_cons, toString_string, String.toList_append,
    List.append_assoc]
  refine ⟨flush_append_of_isTypeToken hstatus ?_, ?_, flush_append_of_isTypeToken hinstr ?_,
    by simp⟩
  · simp [h]
  · simp [flush_iff, isBlank, h]
  · simp

theorem flush_closing : ∀ text ∈ closing o, Flush text.toList := by
  have h := hs.not_mem (c := '\n') (by decide)
  simp only [Symbols.toList, List.forall_mem_cons] at h
  have htext : Flush (s!"{o.symbols.opcodeText}(instr->opcode)").toList := by
    rw [String.toList_append]
    exact flush_append_of_isTypeToken (hs _ (by simp [Symbols.toList])) (by decide)
  rw [closing, List.forall_mem_append]
  refine ⟨?_, List.forall_mem_cons.2 ⟨htext, ?_⟩⟩
  · simp [flush_iff, isBlank, h]
  · simp [flush_iff, isBlank, h]

/-! ## The text -/

variable (ht : t.Spelled)
include ht

theorem flush_cases : ∀ text ∈ cases o t, Flush text.toList := by
  have hbreak : Flush "break;".toList := by simp [flush_iff, isBlank]
  have hcontrols : ∀ text ∈ controlTexts o t.controls, Flush text.toList := by
    unfold controlTexts
    split
    · simp
    · rw [List.forall_mem_append, List.forall_mem_map]
      exact ⟨fun control h => flush_controlLabel (ht.controls control h),
        by simp [flush_iff, isBlank]⟩
  have harms : ∀ text ∈ t.arms.flatMap (armTexts o t.base), Flush text.toList := by
    intro text h
    obtain ⟨arm, harm, htext⟩ := List.mem_flatMap.1 h
    have ha := ht.arms arm harm
    simp only [armTexts, List.mem_cons, List.not_mem_nil, or_false] at htext
    rcases htext with rfl | rfl | rfl
    · exact flush_armLabel t.base ha
    · exact flush_callText hs ha
    · exact hbreak
  simp only [cases, List.forall_mem_append, List.forall_mem_cons]
  exact ⟨hcontrols, by simp [flush_iff, isBlank], flush_keyText t.base,
    by simp [flush_iff, isBlank], harms, flush_closing hs⟩

theorem flush_texts : ∀ text ∈ Layout.texts (routine o t), Flush text.toList := by
  rw [texts_routine, List.forall_mem_append, List.forall_mem_cons]
  exact ⟨flush_opening hs, by simp [flush_iff, isBlank], flush_cases hs ht⟩

/-- The lines of the text, whatever the indentation. -/
theorem bareLines_routine (style : IndentStyle) (depth : Nat) :
    bareLines ((routine o t).text style depth) =
      (opening o).map String.toList ++ "switch (instr->opcode) \x7b".toList ::
        ((cases o t).map String.toList ++ [[]]) := by
  rw [Layout.bareLines_text_of_flush (flush_texts hs ht), texts_routine, List.map_append, List.map_cons,
    List.append_assoc, List.cons_append]

end

end Cpp

end DispatchGen
