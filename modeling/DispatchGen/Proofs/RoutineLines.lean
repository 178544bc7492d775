import DispatchGen.Proofs.RoutineReader
import DispatchGen.Proofs.Spelling
import DispatchGen.Source.Rust

/-!
# The lines of a routine

`Rust.texts_routine` lists the lines of a Rust routine, margins left out, and the rest of the file
says what each looks like to a reader. All are flush lines (`Rust.flush_texts`), and but for the test
for control opcodes and the line that makes the key, which are cut into their pieces here, they have
none of the marks that the reader goes by (`Aside`).
-/

namespace DispatchGen

open Text
open Routine (testsControls makesKey)

/-! ## The lines, in order -/

namespace Rust

variable (o : Options)

/-- The lines in front of the test for control opcodes. -/
def opening : List String :=
  let s := o.symbols
  [s!"pub fn {s.routineName}(instructions: &[{s.instructionType}]) -> {s.statusType}" ++ " \x7b",
    "for instr in instructions" ++ " \x7b", "let opcode = instr.opcode();"]

/-- The comment that names the control opcodes. -/
def namesText (controls : List ControlEntry) : String :=
  let names := ", ".intercalate (controls.map (·.name))
  s!"// {names}"

/-- The line that tests for control opcodes. -/
def controlsText (controls : List ControlEntry) : String :=
  let ordinals := " | ".intercalate (controls.map fun control => toString control.ordinal)
  s!"if matches!(opcode, {ordinals})" ++ " \x7b"

/-- The lines that find the element type. -/
def elementTexts : List String :=
  ["let element = match instr.operands().first() \x7b", "Some(operand) => operand.type_ordinal(),",
    s!"None => {refuse o},", "\x7d;"]

/-- The line that makes the key. -/
def keyText (base : UInt32) : String :=
  s!"let key = u64::from(opcode) * {base} + u64::from(element);"

/-- The line of an arm. -/
def armText (arm : Arm) : String :=
  let call :=
    s!"{arm.key} => {o.symbols.iteratePrefix}{arm.arity}::<{arm.token}>(instr, {arm.handler}),"
  if o.comments then s!"{call} // {arm.pairing.text}" else call

/-- The lines behind the arms. -/
def closing : List String :=
  [s!"_ => {refuse o},", "\x7d", "\x7d", o.symbols.successStatus, "\x7d"]

theorem texts_controls (controls : List ControlEntry) :
    Layout.texts (Rust.controls o controls) =
      if controls.isEmpty then []
      else (if o.comments then [namesText controls] else []) ++
        [controlsText controls, "continue;", "\x7d"] := by
  rw [Rust.controls]
  unfold namesText controlsText
  split
  · rw [Layout.texts]
  · rw [Layout.texts_append]
    split <;> simp only [Step.braced, Layout.texts, Step.texts, Option.toList_some,
      List.append_nil, List.nil_append, List.cons_append]

theorem texts_arms (arms : List Arm) :
    Layout.texts (arms.flatMap (arm o)) = arms.map (armText o) := by
  induction arms with
  | nil => rw [List.flatMap_nil, List.map_nil, Layout.texts]
  | cons arm arms ih =>
    rw [List.flatMap_cons, Layout.texts_append, ih, List.map_cons]
    simp only [Rust.arm, Layout.texts, Step.texts, armText, List.append_nil, List.cons_append,
      List.nil_append]

/-- The lines in front of the match. -/
def front (t : Table) : List String :=
  opening o ++ Layout.texts (Rust.controls o t.controls) ++ elementTexts o ++ [keyText t.base]

/-- The lines behind the one that opens the match. -/
def back (t : Table) : List String :=
  t.arms.map (armText o) ++ closing o

theorem texts_routine (t : Table) :
    Layout.texts (routine o t) = front o t ++ "match key \x7b" :: back o t := by
  have hmatch : "match key" ++ " \x7b" = "match key \x7b" := rfl
  unfold front keyText
  simp only [routine, Step.braced, element, Layout.texts, Step.texts, Layout.texts_append,
    texts_arms, hmatch, back, opening, elementTexts, closing, List.cons_append, List.nil_append,
    List.append_assoc, Option.toList_some, List.append_nil]

/-! ## Lines cut into pieces -/

/-- What follows the call in an arm's line. -/
def armTail (o : Options) (arm : Arm) : List Char :=
  if o.comments then ", // ".toList ++ arm.pairing.text.toList else ",".toList

theorem toList_armText (o : Options) (arm : Arm) :
    (armText o arm).toList = (toString arm.key.toNat).toList ++ (" => ".toList ++
      (o.symbols.iteratePrefix.toList ++ ((toString arm.arity).toList ++ ("::<".toList ++
        ((arm.token.toList ++ ['>']) ++ '(' :: ("instr, ".toList ++
          (arm.handler.toList ++ ')' :: armTail o arm))))))) := by
  unfold armText armTail
  split <;> simp [toString_uint64]

theorem toList_keyText (base : UInt32) : (keyText base).toList =
    "let key = u64::from(opcode) * ".toList ++
      ((toString base.toNat).toList ++ " + u64::from(element);".toList) := by
  unfold keyText
  simp [toString_uint32]

theorem toList_controlsText (controls : List ControlEntry) : (controlsText controls).toList =
    "if matches!(opcode, ".toList ++ ((" | ".intercalate
      ((controls.map fun control => control.ordinal.toNat).map toString)).toList ++
        ')' :: " \x7b".toList) := by
  have hmap : (controls.map fun control => toString control.ordinal) =
      (controls.map fun control => control.ordinal.toNat).map toString := by
    rw [List.map_map]
    rfl
  unfold controlsText
  simp only [hmap]
  simp

theorem not_mem_bars {numbers : List Nat} {c : Char} (hsep : c ∉ " | ".toList)
    (hc : c.isDigit = false) : c ∉ (" | ".intercalate (numbers.map toString)).toList :=
  not_mem_intercalate hsep (List.forall_mem_map.2 fun _ _ => not_mem_toString hc)

end Rust

/-! ## Lines the reader passes over -/

/-- A line of its own that neither tests for control opcodes nor makes a key. -/
@[mk_iff]
structure Aside (line : List Char) : Prop extends Flush line where
  not_controls : testsControls line = false
  not_key : makesKey line = false

theorem aside_of_isTypeToken {s : String} (h : isTypeToken s = true) : Aside s.toList where
  toFlush := flush_of_isTypeToken h
  not_controls :=
    isPrefixOf_eq_false_of_not_mem (c := ' ') (by decide) (not_mem_of_isTypeToken h (by decide))
  not_key :=
    isPrefixOf_eq_false_of_not_mem (c := ' ') (by decide) (not_mem_of_isTypeToken h (by decide))

/-- A line that starts with neither of the marks' letters is put aside. -/
theorem aside_cons {c : Char} {line : List Char} (hc : c ∉ ['i', 'l', ' ', '\t', '\n'])
    (h : '\n' ∉ line) : Aside (c :: line) := by
  simp only [List.mem_cons, List.not_mem_nil, or_false, not_or] at hc
  obtain ⟨hi, hl, hspace, htab, hnewline⟩ := hc
  refine ⟨⟨?_, ?_⟩, ?_, ?_⟩
  · exact List.mem_cons.not.2 (not_or.2 ⟨Ne.symm hnewline, h⟩)
  · rintro d ⟨⟩
    exact Bool.eq_false_iff.2 fun hb => (isBlank_eq_true_iff.1 hb).elim hspace htab
  · simp [testsControls, List.isPrefixOf_cons_cons, Ne.symm hi]
  · simp [makesKey, List.isPrefixOf_cons_cons, Ne.symm hl]

namespace Rust

variable {o : Options} {t : Table} {arm : Arm}

theorem newline_not_mem_refuse (hs : o.symbols.Spelled) : '\n' ∉ (refuse o).toList := by
  have h := hs.not_mem (c := '\n') (by decide)
  simp only [Symbols.toList, List.forall_mem_cons] at h
  unfold refuse
  simp [h]

theorem aside_opening (hs : o.symbols.Spelled) : ∀ text ∈ opening o, Aside text.toList := by
  have h := hs.not_mem (c := '\n') (by decide)
  simp only [Symbols.toList, List.forall_mem_cons] at h
  simp [opening, aside_iff, flush_iff, isBlank, testsControls, makesKey, List.isPrefixOf_cons_cons,
    h]

theorem aside_elementTexts (hs : o.symbols.Spelled) :
    ∀ text ∈ elementTexts o, Aside text.toList := by
  simp [elementTexts, aside_iff, flush_iff, isBlank, testsControls, makesKey,
    List.isPrefixOf_cons_cons, newline_not_mem_refuse hs]

theorem aside_closing (hs : o.symbols.Spelled) : ∀ text ∈ closing o, Aside text.toList := by
  have hrefuse : Aside (s!"_ => {refuse o},").toList := by
    simpa using aside_cons (c := '_') (by decide) (by simpa using newline_not_mem_refuse hs)
  have hbrace : Aside "\x7d".toList := aside_cons (by decide) (by simp)
  have hsuccess : Aside o.symbols.successStatus.toList :=
    aside_of_isTypeToken (hs _ (by simp [Symbols.toList]))
  simp only [closing, List.forall_mem_cons]
  exact ⟨hrefuse, hbrace, hbrace, hsuccess, hbrace, by simp⟩

theorem aside_namesText {controls : List ControlEntry}
    (hc : ∀ control ∈ controls, isTypeToken control.name = true) :
    Aside (namesText controls).toList := by
  have h : '\n' ∉ (", ".intercalate (controls.map (·.name))).toList :=
    not_mem_intercalate (by decide) (List.forall_mem_map.2 fun control h =>
      not_mem_of_isTypeToken (hc control h) (by decide))
  have htext : (namesText controls).toList =
      '/' :: '/' :: ' ' :: (", ".intercalate (controls.map (·.name))).toList := by
    unfold namesText
    simp
  rw [htext]
  refine aside_cons (by decide) ?_
  simpa only [List.mem_cons, Char.reduceEq, false_or] using h

theorem aside_armText (hs : o.symbols.Spelled) (ha : arm.Spelled) :
    Aside (armText o arm).toList := by
  have hn : ∀ {s : String}, isTypeToken s = true → '\n' ∉ s.toList := fun h =>
    not_mem_of_isTypeToken h (by decide)
  have hd : ∀ n : Nat, '\n' ∉ (toString n).toList := fun n => not_mem_toString (by decide)
  have hprefix : '\n' ∉ o.symbols.iteratePrefix.toList := hn (hs _ (by simp [Symbols.toList]))
  have htail : '\n' ∉ armTail o arm := by
    unfold armTail
    split
    · simp [Arm.pairing, Pairing.text, hn ha.opcode, hn ha.element]
    · decide
  rw [toList_armText]
  refine ⟨⟨?_, ?_⟩, isPrefixOf_toString_append (by decide) _ _ _,
    isPrefixOf_toString_append (by decide) _ _ _⟩
  · simp [hd, hn ha.token, hn ha.handler, hprefix, htail, -Nat.toString_eq_repr]
  · obtain ⟨d, ds, h, hd⟩ := exists_digit_toString arm.key.toNat
    rw [h]
    rintro c ⟨⟩
    exact isBlank_of_isDigit hd

/-! ## Lines the reader looks for -/

theorem flush_keyText (base : UInt32) : Flush (keyText base).toList := by
  rw [toList_keyText, flush_iff]
  simp [isBlank, not_mem_toString, -Nat.toString_eq_repr]

theorem flush_controlsText (controls : List ControlEntry) :
    Flush (controlsText controls).toList := by
  rw [toList_controlsText, flush_iff]
  simp only [List.mem_append, List.mem_cons, not_mem_bars (c := '\n') (by decide) (by decide)]
  simp [isBlank]

/-- What the lines of the test for control opcodes have in common. -/
theorem forall_mem_controls {P : String → Prop} {controls : List ControlEntry}
    (hnames : P (namesText controls)) (htest : P (controlsText controls))
    (hcontinue : P "continue;") (hbrace : P "\x7d") :
    ∀ text ∈ Layout.texts (Rust.controls o controls), P text := by
  rw [texts_controls]
  split
  · simp
  · split
    · simp [hnames, htest, hcontinue, hbrace]
    · simp [htest, hcontinue, hbrace]

variable (hs : o.symbols.Spelled) (ht : t.Spelled)
include hs ht

theorem aside_back : ∀ text ∈ back o t, Aside text.toList := by
  rw [back, List.forall_mem_append, List.forall_mem_map]
  exact ⟨fun arm h => aside_armText hs (ht.arms arm h), aside_closing hs⟩

theorem flush_texts : ∀ text ∈ Layout.texts (routine o t), Flush text.toList := by
  have hcontrols : ∀ text ∈ Layout.texts (Rust.controls o t.controls), Flush text.toList :=
    forall_mem_controls (aside_namesText ht.controls).toFlush (flush_controlsText _)
      (by simp [flush_iff, isBlank]) (by simp [flush_iff, isBlank])
  have hmatch : Flush "match key \x7b".toList := by simp [flush_iff, isBlank]
  simp only [texts_routine, front, List.forall_mem_append, List.forall_mem_cons]
  exact ⟨⟨⟨⟨fun text h => (aside_opening hs text h).toFlush, hcontrols⟩,
    fun text h => (aside_elementTexts hs text h).toFlush⟩, flush_keyText _, by simp⟩, hmatch,
    fun text h => (aside_back hs ht text h).toFlush⟩

/-- The lines of the text, whatever the indentation. -/
theorem bareLines_routine (style : IndentStyle) (depth : Nat) :
    bareLines ((routine o t).text style depth) =
      (front o t).map String.toList ++ "match key \x7b".toList :: (back o t).map String.toList ++
        [[]] := by
  rw [Layout.bareLines_text_of_flush (flush_texts hs ht), texts_routine, List.map_append,
    List.map_cons]

end Rust

end DispatchGen
