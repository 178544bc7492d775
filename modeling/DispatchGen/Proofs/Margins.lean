import DispatchGen.Proofs.Balance
import DispatchGen.Source.Artifact

/-!
# Margins of the parts of an artifact

Headers, declarations, arms and routines are balanced layouts whatever strings they are made with
(`Options.Emits.balanced`): only the labels of control opcodes indent and dedent by hand.
`depth_adds_margins` says what follows for text that is written further in: a writer is left at the
depth it was at, and the text is the one from depth zero behind margins.
-/

namespace DispatchGen

/-! ## The parts of an artifact -/

open Layout

namespace Cpp

variable (o : Options)

theorem balanced_header (name : String) : Balanced (header name) :=
  .line .nil

theorem balanced_stub (s : Stub) : Balanced (stub o s) :=
  .line (.block (.line (.line .nil)) .nil)

theorem balanced_arm (base : UInt32) (a : Arm) : Balanced (arm o base a) :=
  .block (.line (.line .nil)) .nil

theorem balanced_controls (entries : List ControlEntry) : Balanced (controls o entries) := by
  rw [controls]
  split
  · exact .nil
  · exact (Balanced.map_line ..).append ((Balanced.line .nil).indented.append (.blank .nil))

theorem balanced_unknownKey : Balanced (unknownKey o) :=
  .block (.block (.line (.line (.line .nil))) (.line .nil)) .nil

/-- The cases of the switch over keys. -/
theorem balanced_keys (t : Table) :
    Balanced (t.arms.flatMap (arm o t.base) ++ .blank :: unknownKey o) := by
  have harms : Balanced (t.arms.flatMap (arm o t.base)) :=
    .flatMap fun a _ => balanced_arm o t.base a
  exact harms.append (.blank (balanced_unknownKey o))

theorem balanced_dispatch (t : Table) : Balanced (dispatch o t) :=
  .line (.block (balanced_keys o t) (.line .nil))

/-- The cases of the switch over opcodes. -/
theorem balanced_opcodes (t : Table) :
    Balanced (controls o t.controls ++ [.braced "default:" (dispatch o t)]) :=
  (balanced_controls o t.controls).append (.block (balanced_dispatch o t) .nil)

/-- What is done with each instruction. -/
theorem balanced_loop (t : Table) {head instr : String} :
    Balanced [.line instr, .braced head (controls o t.controls ++
      [.braced "default:" (dispatch o t)])] :=
  .line (.block (balanced_opcodes o t) .nil)

theorem balanced_routine (t : Table) : Balanced (routine o t) :=
  .block (.block (balanced_loop o t) (.line .nil)) .nil

end Cpp

namespace Rust

variable (o : Options)

theorem balanced_header (name : String) : Balanced (header name) :=
  .line .nil

theorem balanced_stub (s : Stub) : Balanced (stub o s) :=
  .block (.line (.line (.line .nil))) .nil

theorem balanced_arm (a : Arm) : Balanced (arm o a) :=
  .line .nil

theorem balanced_controls (entries : List ControlEntry) : Balanced (controls o entries) := by
  have htest {test : String} : Balanced [.braced test [.line "continue;"]] :=
    .block (.line .nil) .nil
  rw [controls]
  split
  · exact .nil
  · split
    · exact .line htest
    · exact htest

theorem balanced_element : Balanced (element o) :=
  .block (.line (.line .nil)) .nil

/-- What comes before the key of an instruction is formed. -/
theorem balanced_front (t : Table) {opcode : String} :
    Balanced (.line opcode :: controls o t.controls ++ element o) :=
  (Balanced.line (balanced_controls o t.controls)).append (balanced_element o)

/-- The arms of the match over keys. -/
theorem balanced_keys (t : Table) {other : String} :
    Balanced (t.arms.flatMap (arm o) ++ [.line other]) := by
  have harms : Balanced (t.arms.flatMap (arm o)) := .flatMap fun a _ => balanced_arm o a
  exact harms.append (.line .nil)

/-- What is done with each instruction. -/
theorem balanced_loop (t : Table) {opcode key other : String} :
    Balanced (.line opcode :: controls o t.controls ++ element o ++
      [.line key, .braced "match key" (t.arms.flatMap (arm o) ++ [.line other])]) :=
  (balanced_front o t).append (.line (.block (balanced_keys o t) .nil))

theorem balanced_routine (t : Table) : Balanced (routine o t) :=
  .block (.block (balanced_loop o t) (.line .nil)) .nil

end Rust

/-- What a backend lays out: a header, one declaration, one arm, or a whole routine. -/
inductive Options.Emits (o : Options) : Layout → Prop
  | header (catalog : String) : Emits o (o.header catalog)
  | stub (stub : Stub) : Emits o (o.stub stub)
  | arm (base : UInt32) (arm : Arm) : Emits o (o.arm base arm)
  | routine (t : Table) : Emits o (o.routine t)

theorem Options.Emits.balanced {o : Options} {layout : Layout} (h : o.Emits layout) :
    Balanced layout := by
  cases h with
  | header name =>
    rw [Options.header]
    split
    · exact Cpp.balanced_header name
    · exact Rust.balanced_header name
  | stub s =>
    rw [Options.stub]
    split
    · exact Cpp.balanced_stub o s
    · exact Rust.balanced_stub o s
  | arm base a =>
    rw [Options.arm]
    split
    · exact Cpp.balanced_arm o base a
    · exact Rust.balanced_arm o a
  | routine t =>
    rw [Options.routine]
    split
    · exact Cpp.balanced_routine o t
    · exact Rust.balanced_routine o t

/-! ## The law -/

/-- A writer appends a layout's text at its own depth and is left at the layout's, if the layout fits
and there is room; otherwise it crashes. A balanced layout moves with the depth: a run that does not
crash is left at the depth it was at, and appends the text at depth zero with that depth's margin in
front of each line that is not empty; and each block is closed at the depth it was opened at. Every
part of an artifact is laid out so, whatever its strings hold. -/
theorem depth_adds_margins (style : IndentStyle) :
    (∀ (layout : Layout) (w w' : Writer), w.run? style layout = some w' ↔
      Fits style w.depth layout ∧ w'.output = w.output ++ layout.text style w.depth ∧
        w'.depth = depthAfter w.depth layout) ∧
    (∀ (layout : Layout) (w : Writer), (w.run? style layout).isSome ↔
      Fits style w.depth layout ∧
        (w.output ++ layout.text style w.depth).utf8ByteSize ≤ Text.maxBytes) ∧
    (∀ layout : Layout, Balanced layout → MovesWithDepth style layout ∧
      ∀ depth level opening body closing, Reaches depth layout level (.block opening body closing) →
        style.indentText level opening ++ lines style (level + 1) body ++
          closing.toList.flatMap (style.indentText level) <:+: lines style depth layout) ∧
    ∀ (o : Options) (layout : Layout), o.Emits layout → MovesWithDepth style layout := by
  refine ⟨fun _ _ _ => Writer.run?_eq_some_iff, fun _ _ => Writer.isSome_run?_iff,
    fun layout h => ⟨h.movesWithDepth, fun depth level opening body closing hr => ?_⟩,
    fun o layout h => h.balanced.movesWithDepth⟩
  exact h.closes hr style

theorem depth_adds_margins_nested :
    let style : IndentStyle := { size := 2 }
    let inner : Layout := [.indent, .line "x", .dedent, .blank]
    let layout : Layout := [.line "a\n\nb", .indent, .block "open" inner (some "close"), .dedent,
      .block "case 1:" [.line "y"] none]
    let header := (Options.ofTarget .cpp).header "two\nlines"
    Balanced layout ∧
      (∃ w, Writer.run? style { output := "top\n", depth := 3 } layout = some w ∧ w.depth = 3 ∧
        w.output = "top\n" ++
          style.shift 3 "a\n\nb\n  open\n      x\n\n  close\ncase 1:\n  y\n") ∧
      ["        open", "            x", "", "        close"] <:+: lines style 3 layout ∧
      (Options.ofTarget .cpp).Emits header ∧
      ∃ w, Writer.run? style { depth := 1 } header = some w ∧
        w.output = "  // Generated by ve-gen from catalog 'two\n  lines'. Do not edit.\n" := by
  intro style inner layout header
  have hinner : Balanced inner := (Balanced.line .nil).indented.append (.blank .nil)
  have hbalanced : Balanced layout :=
    .line ((Balanced.block hinner .nil).indented.append (.block (.line .nil) .nil))
  have hreaches : Reaches 3 layout 4 (.block "open" inner (some "close")) :=
    .here 3 [.line "a\n\nb", .indent] _ _
  have hheader : (Options.ofTarget .cpp).Emits header := .header "two\nlines"
  obtain ⟨-, hruns, hmoves, hparts⟩ := depth_adds_margins style
  obtain ⟨hmove, hblocks⟩ := hmoves layout hbalanced
  refine ⟨hbalanced, ?_, hblocks 3 4 _ _ _ hreaches, hheader, ?_⟩
  · obtain ⟨w, hw⟩ := Option.isSome_iff_exists.1
      ((hruns layout { output := "top\n", depth := 3 }).2 (by decide +kernel))
    obtain ⟨hdepth, text, htext, houtput⟩ := hmove _ _ hw
    have hzero : layout.write? style =
        some "a\n\nb\n  open\n      x\n\n  close\ncase 1:\n  y\n" := by
      decide +kernel
    rw [hzero, Option.some_inj] at htext
    exact ⟨w, hw, hdepth, htext ▸ houtput⟩
  · obtain ⟨w, hw⟩ := Option.isSome_iff_exists.1
      ((hruns header { depth := 1 }).2 (by decide +kernel))
    obtain ⟨-, text, htext, houtput⟩ := hparts _ header hheader _ _ hw
    have hzero : header.write? style =
        some "// Generated by ve-gen from catalog 'two\nlines'. Do not edit.\n" := by
      decide +kernel
    have hmoved : style.shift 1 "// Generated by ve-gen from catalog 'two\nlines'. Do not edit.\n" =
        "  // Generated by ve-gen from catalog 'two\n  lines'. Do not edit.\n" := by
      decide +kernel
    rw [hzero, Option.some_inj] at htext
    rw [← htext, hmoved, String.empty_append] at houtput
    exact ⟨w, hw, houtput⟩

/-- A margin that is no string crashes the run, even where nothing but an empty line is to be written;
and margins do not add up in machine words: of two levels of 2^63 spaces none would be left. -/
theorem too_wide_margins_crash :
    let widest : IndentStyle := { size := 18446744073709551615 }
    let wide : IndentStyle := { size := 9223372036854775808 }
    Balanced [.indent, .line "", .dedent] ∧
      Layout.text widest [.indent, .line "", .dedent] = "\n" ∧
      Writer.run? widest {} [.indent, .line "", .dedent] = none ∧
      Layout.write? wide [.line "x"] = some "x\n" ∧
      Writer.run? wide { depth := 2 } [.line "x"] = none ∧ wide.margin 2 = "" := by
  refine ⟨(Balanced.line .nil).indented, ?_⟩
  decide +kernel

end DispatchGen
