import DispatchGen.CatalogFile.Basic
import DispatchGen.CommandLine.Commands
import DispatchGen.Proofs.Levels
import DispatchGen.Proofs.Routing

/-!
# Late faults

Generating and dispatching have checks of their own: of the options, of the table they emit and of the
handlers its arms call. Once the options and the catalog of a file are accepted, none of these checks
fails any more, in whatever style the keys are then asked for
(`CatalogFile.late_stages_succeed_iff`). Generation has one fault left to raise, which is that of the
options (`Catalog.Valid.generate_eq_error_iff`).

What no check asks about is the indentation. `Options.Writes` says how wide it may be, given how many
levels the parts of an artifact have. A level may even be wider than any string is long, and the writer
then crashes at the first line it is to indent (`Catalog.Valid.generate?_eq_none`).
-/

namespace DispatchGen

/-! ## Options -/

/-- The style of keys is no matter of validity. -/
theorem Options.validate_keyStyle (o : Options) (style : KeyStyle) :
    ({ o with keyStyle := style } : Options).validate = o.validate :=
  rfl

/-- Options of a file have passed their check. -/
theorem Overrides.validate_of_resolve {overrides : Overrides} {target : Option Target} {o : Options}
    (h : overrides.resolve target = .ok o) : o.validate = .ok () := by
  rw [resolve, check_bind_eq_ok, pure_eq_ok] at h
  obtain ⟨hvalidate, rfl⟩ := h
  exact hvalidate

/-- Settling the style of keys changes nothing but the style. -/
theorem CommandLine.result_settle (o : Options) (asked : Option KeyStyle) :
    ∃ style, (settle o asked).result = .ok { o with keyStyle := style } := by
  obtain ⟨target, own, indent, comments, symbols⟩ := o
  rw [settle]
  cases target with
  | cpp => exact ⟨asked.getD own, rfl⟩
  | rust =>
    generalize asked.getD own = style
    cases style with
    | literal => exact ⟨.literal, rfl⟩
    | symbolic => exact ⟨.literal, rfl⟩

/-! ## Writing an artifact -/

/-- The margin of each part's last level is a string, and so is each part. -/
structure Options.Writes (o : Options) (t : Table) (handlers : List Stub) (parts : Parts) : Prop where
  header : ((o.header t.catalog).text o.indent).utf8ByteSize ≤ Text.maxBytes
  stubs : parts.hasStubs = true → (handlers ≠ [] → o.indent.Fits 1) ∧
    ((o.stubs handlers).text o.indent).utf8ByteSize ≤ Text.maxBytes
  routine : parts.hasRoutine = true → o.indent.Fits o.target.levels ∧
    ((o.routine t).text o.indent).utf8ByteSize ≤ Text.maxBytes

theorem Options.write?_eq_some_iff {o : Options} {wanted : Bool} {layout : Layout}
    {text : Option String} : o.write? wanted layout = some text ↔
      (wanted = true → layout.Writable o.indent) ∧
        (if wanted then some (layout.text o.indent) else none) = text := by
  rw [write?]
  cases wanted with
  | false => simp
  | true =>
    simp only [if_true, true_imp_iff, Option.map_eq_some_iff, Layout.write?_eq_some_iff]
    constructor
    · rintro ⟨written, ⟨hw, rfl⟩, rfl⟩
      exact ⟨hw, rfl⟩
    · rintro ⟨hw, rfl⟩
      exact ⟨_, ⟨hw, rfl⟩, rfl⟩

/-- An artifact is written as it is laid out, or not at all. -/
theorem render?_eq_some_iff {t : Table} {handlers : List Stub} {o : Options} {parts : Parts}
    {a : Artifact} : render? t handlers o parts = some a ↔
      o.Writes t handlers parts ∧ render t handlers o parts = a := by
  simp only [render?, Option.bind_eq_bind, Option.bind_eq_some_iff, Layout.write?_eq_some_iff,
    Options.write?_eq_some_iff, Layout.Writable, Options.fits_stubs_iff, Options.fits_routine_iff,
    Option.pure_def, Option.some_inj]
  constructor
  · rintro ⟨header, ⟨⟨-, hheader⟩, rfl⟩, stubs, ⟨hstubs, rfl⟩, routine, ⟨hroutine, rfl⟩, rfl⟩
    exact ⟨⟨hheader, hstubs, hroutine⟩, rfl⟩
  · rintro ⟨⟨hheader, hstubs, hroutine⟩, rfl⟩
    exact ⟨_, ⟨⟨Options.fits_header t.catalog, hheader⟩, rfl⟩, _, ⟨hstubs, rfl⟩, _,
      ⟨hroutine, rfl⟩, rfl⟩

theorem render?_eq_none_iff {t : Table} {handlers : List Stub} {o : Options} {parts : Parts} :
    render? t handlers o parts = none ↔ ¬ o.Writes t handlers parts := by
  rw [Option.eq_none_iff_forall_ne_some]
  exact ⟨fun h hw => h _ (render?_eq_some_iff.2 ⟨hw, rfl⟩),
    fun h a ha => h (render?_eq_some_iff.1 ha).1⟩

/-- Whatever parts an artifact has, one of its lines is one level in. -/
theorem Options.Writes.fits {o : Options} {t : Table} {handlers : List Stub} {parts : Parts}
    (h : o.Writes t handlers parts) (hne : handlers ≠ []) : o.indent.Fits 1 := by
  have hroutine (hr : parts.hasRoutine = true) : o.indent.Fits 1 := by
    have hlevels : 1 ≤ o.target.levels := by cases o.target <;> decide
    exact (h.routine hr).1.mono hlevels
  cases parts with
  | routine => exact hroutine rfl
  | stubs => exact (h.stubs rfl).1 hne
  | all => exact hroutine rfl

/-! ## Stages -/

/-- Writing an artifact out raises no fault. -/
theorem Catalog.generate?_eq_error_iff {c : Catalog} {o : Options} {parts : Parts} {fault : Fault} :
    c.generate? o parts = .error fault ↔ c.generate o parts = .error fault := by
  rw [generate?, generate, check_bind_eq_error, check_bind_eq_error]
  refine or_congr_right (and_congr_right fun _ => ?_)
  cases c.emitTable with
  | error => simp [bind, Except.bind]
  | ok t => simp [bind, Except.bind, pure, Except.pure]

/-- What is written out is the artifact, if it can be written. -/
theorem Catalog.generate?_eq_some_iff {c : Catalog} {o : Options} {parts : Parts} {a : Artifact} :
    c.generate? o parts = .ok (some a) ↔
      c.generate o parts = .ok a ∧ o.Writes a.table a.handlers parts := by
  rw [generate?, generate, check_bind_eq_ok, check_bind_eq_ok, and_assoc]
  refine and_congr_right fun _ => ?_
  cases c.emitTable with
  | error => simp [bind, Except.bind]
  | ok t =>
    have hwrites : render? t c.stubs o parts = some a ↔
        render t c.stubs o parts = a ∧ o.Writes a.table a.handlers parts := by
      rw [render?_eq_some_iff, and_comm]
      exact and_congr_right fun h => h ▸ Iff.rfl
    simpa [bind, Except.bind, pure, Except.pure] using hwrites

namespace Catalog.Valid

variable {c : Catalog}

theorem generate?_eq (h : c.Valid) {o : Options} (ho : o.validate = .ok ()) (parts : Parts) :
    c.generate? o parts = .ok (render? c.table c.stubs o parts) := by
  rw [generate?, ho, h.emitTable_eq]
  rfl

theorem generate_eq_error_iff (h : c.Valid) {o : Options} {parts : Parts} {fault : Fault} :
    c.generate o parts = .error fault ↔ o.validate = .error fault := by
  rw [generate, check_bind_eq_error, h.emitTable_eq]
  constructor
  · rintro (hv | ⟨-, hr⟩)
    · exact hv
    · cases hr
  · exact Or.inl

/-- An artifact that can be written has an arm for every pair and a handler for every numeric
opcode. -/
theorem generate?_complete (h : c.Valid) {o : Options} (ho : o.validate = .ok ()) {parts : Parts}
    (hw : o.Writes c.table c.stubs parts) :
    ∃ a, c.generate? o parts = .ok (some a) ∧ a.table.arms.length = c.pairCount ∧
      a.handlers.map (·.opcode) = c.opcodes.numeric.map (·.name) := by
  refine ⟨_, Catalog.generate?_eq_some_iff.2 ⟨h.generate_eq ho parts, hw⟩, ?_, ?_⟩
  · rw [← length_pairs, render, table, List.length_map]
  · rw [render, stubs, List.map_map]
    rfl

/-- A level that is no string crashes the generation, whatever the catalog and the parts. -/
theorem generate?_eq_none (h : c.Valid) {o : Options} (ho : o.validate = .ok ())
    (hwide : ¬ o.indent.Fits 1) (parts : Parts) : c.generate? o parts = .ok none := by
  have hne : c.stubs ≠ [] := by simpa [stubs] using h.numeric_ne_nil
  rw [h.generate?_eq ho, render?_eq_none_iff.2 fun hw => hwide (hw.fits hne)]

end Catalog.Valid

/-- What remains to be done after a file's options and catalog are accepted raises no fault: artifacts
are generated in any style of keys and with any parts, and the dispatcher is made. Other options fail
by their own check alone. An artifact is complete if its parts and the margins of their last levels are
strings. Otherwise the generation crashes, and it always does so when one level of indentation is no
string. -/
theorem CatalogFile.late_stages_succeed_iff {file : CatalogFile} {target : Option Target}
    {o : Options} {c : Catalog} (ho : file.options target = .ok o) (hb : file.decl.build = .ok c) :
    (∀ style parts,
        ({ o with keyStyle := style }.Writes c.table c.stubs parts →
          ∃ a, c.generate? { o with keyStyle := style } parts = .ok (some a) ∧
            a.table.arms.length = c.pairCount ∧
            a.handlers.map (·.opcode) = c.opcodes.numeric.map (·.name)) ∧
        (¬ { o with keyStyle := style }.Writes c.table c.stubs parts →
          c.generate? { o with keyStyle := style } parts = .ok none) ∧
        (¬ o.indent.Fits 1 → c.generate? { o with keyStyle := style } parts = .ok none)) ∧
      (∀ asked parts, ∃ settled written, (CommandLine.settle o asked).result = .ok settled ∧
        c.generate? settled parts = .ok written) ∧
      (∀ other parts fault, c.generate? other parts = .error fault ↔ other.validate = .error fault) ∧
      ∃ d, Dispatcher.ofCatalog c = .ok d := by
  have h := CatalogDecl.valid_of_build hb
  have hstyle (style : KeyStyle) : ({ o with keyStyle := style } : Options).validate = .ok () :=
    (o.validate_keyStyle style).trans (Overrides.validate_of_resolve ho)
  refine ⟨fun style parts => ⟨fun hw => h.generate?_complete (hstyle style) hw, fun hw => ?_,
      fun hwide => h.generate?_eq_none (hstyle style) hwide parts⟩,
    fun asked parts => ?_, fun _ _ _ => Catalog.generate?_eq_error_iff.trans h.generate_eq_error_iff,
    c.dispatcher, h.ofCatalog_eq⟩
  · rw [h.generate?_eq (hstyle style), render?_eq_none_iff.2 hw]
  · obtain ⟨style, hs⟩ := CommandLine.result_settle o asked
    exact ⟨_, _, hs, h.generate?_eq (hstyle style) parts⟩

/-- A file that asks for symbolic keys, generated for the language that has none. -/
theorem CatalogFile.late_stages_succeed_addMul :
    let file : CatalogFile := {
      decl := CatalogDecl.addMul
      render := { keyStyle := some .symbolic, symbols :=
        { Symbols.const none with statusType := some "engine::Status" } } }
    ∃ o, file.options (some .rust) = .ok o ∧ file.decl.build = .ok Catalog.addMul ∧
      o.keyStyle = .symbolic ∧
      (∃ a, Catalog.addMul.generate? { o with keyStyle := .literal } .stubs = .ok (some a) ∧
        a.table.arms.length = 4 ∧ a.handlers.map (·.opcode) = ["ADD", "MUL"]) ∧
      ∃ d, Dispatcher.ofCatalog Catalog.addMul = .ok d := by
  intro file
  have ho : file.options (some .rust) = .ok (file.render.apply (some .rust)) := by decide +kernel
  obtain ⟨hgenerate, -, -, hd⟩ := late_stages_succeed_iff ho build_addMul
  obtain ⟨a, ha, harms, hhandlers⟩ := (hgenerate .literal .stubs).1
    ⟨by decide +kernel, fun _ => by decide +kernel, nofun⟩
  exact ⟨_, ho, build_addMul, rfl, ⟨a, ha, harms.trans (by decide), hhandlers.trans (by decide)⟩,
    hd⟩

/-- The widest indentation a file can ask for. Its options and its catalog are accepted, and the
generation crashes. -/
theorem CatalogFile.widest_indent_crashes :
    let file : CatalogFile := {
      decl := CatalogDecl.addMul
      render := { indent := some 18446744073709551615, symbols := Symbols.const none } }
    ∃ o, file.options none = .ok o ∧ file.decl.build = .ok Catalog.addMul ∧
      Catalog.addMul.generate? o .all = .ok none := by
  intro file
  have ho : file.options none = .ok (file.render.apply none) := by decide +kernel
  have hvalid : Catalog.addMul.Valid := CatalogDecl.valid_of_build build_addMul
  exact ⟨_, ho, build_addMul,
    hvalid.generate?_eq_none (Overrides.validate_of_resolve ho) (by decide +kernel) .all⟩

end DispatchGen
