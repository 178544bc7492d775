import DispatchGen.Proofs.Emission
import DispatchGen.Proofs.LineEnds
import DispatchGen.Proofs.Nesting

/-!
# Nesting of generated code

The layouts of stubs and routines are made of lines whose brackets match and of blocks whose ends
do. A C++ block may stand in round brackets (the call that reports an unknown key) or in none (a
`case`, which ends where the next one begins), so there the depth is not the number of braces; in
Rust every block stands in braces. `Layout.Neat` collects what holds of both targets' layouts
(`Options.neat_stubs`, `Options.neat_routine`), and `Text.Nested` what it means for a text. Main
statement: `Catalog.generated_code_nests`, for every accepted catalog and all options that pass their
check.
-/

namespace DispatchGen

open Text

theorem Text.unclosed?_of_isParamChar {text : List Char} (h : ∀ c ∈ text, isParamChar c = true)
    (pending : List Char) : unclosed? pending text = some pending := by
  refine unclosed?_of_forall (fun c hc => ?_) pending
  have hparam := h c hc
  simp only [isParamChar, Bool.or_eq_true, beq_iff_eq, or_assoc] at hparam
  rcases hparam with htoken | rfl | rfl | rfl | rfl
  · exact isBracket_of_isTokenChar htoken
  all_goals rfl

theorem Symbols.Spelled.unclosed? {s : Symbols String} (hs : s.Spelled) :
    ∀ symbol ∈ s.toList, ∀ pending, unclosed? pending symbol.toList = some pending :=
  fun symbol h pending => unclosed?_of_isTypeToken (hs symbol h) pending

/-! ## Rust -/

namespace Rust

variable {o : Options} {t : Table} {arm : Arm} {stub : Stub}

theorem inBraces_controls {controls : List ControlEntry}
    (hc : ∀ control ∈ controls, isTypeToken control.name = true) :
    Layout.InBraces (Rust.controls o controls) := by
  have hnames : ∀ pending, unclosed? pending (", ".intercalate (controls.map (·.name))).toList =
      some pending :=
    unclosed?_of_forall (forall_mem_intercalate (by simp [isBracket, closer?, isCloser])
      (List.forall_mem_map.2 fun control h => isBracket_of_isTypeToken (hc control h)))
  have hordinals : ∀ pending, unclosed? pending (" | ".intercalate
      (controls.map fun control => toString control.ordinal)).toList = some pending :=
    unclosed?_of_forall (forall_mem_intercalate (by simp [isBracket, closer?, isCloser])
      (List.forall_mem_map.2 fun control _ =>
        isBracket_of_mem_toString (n := control.ordinal.toNat)))
  have hcomment : (Step.line (namesText controls)).InBraces := by
    refine Step.inBraces_line ?_ (by simp [namesText])
    rw [bracketed_iff]
    simp [namesText, hnames, readBracket, closer?, isCloser, -String.toList_intercalate]
  have htest : ∀ ordinals : String, (∀ pending, unclosed? pending ordinals.toList = some pending) →
      Bracketed (s!"if matches!(opcode, {ordinals})").toList := by
    intro ordinals h
    rw [bracketed_iff]
    simp [h, readBracket, closer?, isCloser]
  have hcontinue : (Step.line "continue;").InBraces := Step.inBraces_line (by decide) (by decide)
  unfold Rust.controls
  split
  · rw [Layout.InBraces]
    trivial
  · rw [Layout.inBraces_append, Layout.inBraces_singleton]
    constructor
    · split
      · exact Layout.inBraces_singleton.2 hcomment
      · rw [Layout.InBraces]
        trivial
    · exact Step.inBraces_braced (htest _ hordinals) (by simp)
        (Layout.inBraces_singleton.2 hcontinue)

section
variable (hs : o.symbols.Spelled)
include hs

theorem bracketed_refuse : Bracketed (refuse o).toList := by
  have h := hs.unclosed?
  simp only [Symbols.toList, List.forall_mem_cons] at h
  rw [bracketed_iff]
  simp [refuse, h, readBracket, closer?, isCloser]

theorem inBraces_arm (ha : arm.Spelled) : Layout.InBraces (Rust.arm o arm) := by
  have hiterate := unclosed?_of_isTypeToken (hs o.symbols.iteratePrefix (by simp [Symbols.toList]))
  have htail : ∀ pending, unclosed? pending (armTail o arm) = some pending := by
    intro pending
    unfold armTail
    split
    · simp [Arm.pairing, Pairing.text, unclosed?_of_isTypeToken ha.opcode,
        unclosed?_of_isTypeToken ha.element, readBracket, closer?, isCloser]
    · simp [readBracket, closer?, isCloser]
  have hline : Bracketed (armText o arm).toList ∧ (armText o arm).toList.head? ≠ some '\x7d' := by
    rw [toList_armText]
    constructor
    · rw [bracketed_iff]
      simp [hiterate, htail, unclosed?_of_isTypeToken ha.token, unclosed?_of_isTypeToken ha.handler,
        readBracket, closer?, isCloser, -Nat.toString_eq_repr]
    · obtain ⟨d, ds, hd, hdigit⟩ := exists_digit_toString arm.key.toNat
      rw [hd, List.cons_append, List.head?_cons]
      rintro ⟨⟩
      cases hdigit
  exact ⟨hline, trivial⟩

theorem inBraces_element : Layout.InBraces (element o) := by
  have hrefuse := (bracketed_refuse hs).unclosed?_eq
  have hsome : (Step.line "Some(operand) => operand.type_ordinal(),").InBraces :=
    Step.inBraces_line (by decide) (by decide)
  have hnone : (Step.line s!"None => {refuse o},").InBraces := by
    refine Step.inBraces_line ?_ (by simp)
    rw [bracketed_iff]
    simp [hrefuse, readBracket, closer?, isCloser]
  have hopening : "let element = match instr.operands().first() \x7b".toList =
    "let element = match instr.operands().first() ".toList ++ ['\x7b'] := by decide
  rw [element, Layout.inBraces_singleton, Step.InBraces, Layout.InBraces, Layout.inBraces_singleton]
  exact ⟨⟨_, hopening, by decide, by decide⟩, ⟨hsome, hnone⟩, _, [';'], rfl, by decide, by decide⟩

theorem inBraces_routine (ht : t.Spelled) : Layout.InBraces (routine o t) := by
  have h := hs.unclosed?
  simp only [Symbols.toList, List.forall_mem_cons] at h
  have hsignature : Bracketed (s!"pub fn {o.symbols.routineName}(instructions: &[{
      o.symbols.instructionType}]) -> {o.symbols.statusType}").toList := by
    rw [bracketed_iff]
    simp [h, readBracket, closer?, isCloser]
  have hopcode : (Step.line "let opcode = instr.opcode();").InBraces :=
    Step.inBraces_line (by decide) (by decide)
  have hkey : (Step.line (keyText t.base)).InBraces := by
    refine Step.inBraces_line ?_ (by simp [toList_keyText])
    rw [bracketed_iff, toList_keyText]
    simp [readBracket, closer?, isCloser, -Nat.toString_eq_repr]
  have hrefuse := (bracketed_refuse hs).unclosed?_eq
  have hother : (Step.line s!"_ => {refuse o},").InBraces := by
    refine Step.inBraces_line ?_ (by simp)
    rw [bracketed_iff]
    simp [hrefuse, readBracket, closer?, isCloser]
  have hmatch : (Step.braced "match key" (t.arms.flatMap (arm o) ++
      [.line s!"_ => {refuse o},"])).InBraces :=
    Step.inBraces_braced (by decide) (by decide) (Layout.inBraces_append.2
      ⟨Layout.inBraces_flatMap fun arm h => inBraces_arm hs (ht.arms arm h),
        Layout.inBraces_singleton.2 hother⟩)
  have hbody : Layout.InBraces (.line "let opcode = instr.opcode();" ::
      Rust.controls o t.controls ++ element o ++ [.line (keyText t.base), .braced "match key" (t.arms.flatMap (arm o) ++
        [.line s!"_ => {refuse o},"])]) := by
    rw [Layout.inBraces_append, Layout.inBraces_append]
    exact ⟨⟨⟨hopcode, inBraces_controls ht.controls⟩, inBraces_element hs⟩, hkey, hmatch, trivial⟩
  have hsuccess : (Step.line o.symbols.successStatus).InBraces :=
    Step.inBraces_of_isTypeToken (hs _ (by simp [Symbols.toList]))
  refine Layout.inBraces_singleton.2 (Step.inBraces_braced hsignature (by simp) ?_)
  exact ⟨Step.inBraces_braced (by decide) (by decide) hbody, hsuccess, trivial⟩

theorem inBraces_stub (hstub : stub.Spelled) : Layout.InBraces (Rust.stub o stub) := by
  have h := hs.unclosed?
  simp only [Symbols.toList, List.forall_mem_cons] at h
  have hparams := unclosed?_of_isParamChar (isParamChar_paramsText hs hstub)
  have hnames := unclosed?_of_isParamChar (isParamChar_operandsText hstub)
  have hsignature : Bracketed (s!"pub fn {stub.name}<T>({paramsText o stub}) -> {
      o.symbols.statusType}").toList := by
    rw [bracketed_iff]
    simp [h, hparams, unclosed?_of_isTypeToken hstub.name, readBracket, closer?, isCloser]
  have huse : (Step.line s!"let _ = ({operandsText stub});").InBraces := by
    refine Step.inBraces_line ?_ (by simp)
    rw [bracketed_iff]
    simp [hnames, readBracket, closer?, isCloser]
  have hcomment : (Step.line "// kernel body goes here").InBraces :=
    Step.inBraces_line (by decide) (by decide)
  have hsuccess : (Step.line o.symbols.successStatus).InBraces :=
    Step.inBraces_of_isTypeToken (hs _ (by simp [Symbols.toList]))
  refine Layout.inBraces_singleton.2 (Step.inBraces_braced hsignature (by simp) ?_)
  exact ⟨huse, hcomment, hsuccess, trivial⟩

end

end Rust

/-! ## C++ -/

namespace Cpp

variable {o : Options} {t : Table} {arm : Arm} {stub : Stub}

/-- A label closes what it opens, whether it is literal or symbolic. -/
theorem bracketed_label {literal symbolic comment : String}
    (hl : ∀ pending, unclosed? pending literal.toList = some pending)
    (hsym : ∀ pending, unclosed? pending symbolic.toList = some pending)
    (hc : ∀ pending, unclosed? pending comment.toList = some pending) :
    Bracketed (label o literal symbolic comment).toList := by
  have htail : ∀ pending, unclosed? pending (labelTail o comment) = some pending := by
    intro pending
    unfold labelTail
    split
    · simp [hc, readBracket, closer?, isCloser]
    · rfl
  rw [toList_label, bracketed_iff]
  cases o.keyStyle with
  | literal => simp [hl, htail, readBracket, closer?, isCloser]
  | symbolic => simp [hsym, readBracket, closer?, isCloser]

theorem bracketed_controlLabel {control : ControlEntry} (hc : isTypeToken control.name = true) :
    Bracketed (controlLabel o control).toList := by
  have hname := unclosed?_of_isTypeToken hc
  exact bracketed_label (unclosed?_toString control.ordinal.toNat) hname hname

theorem bracketed_armLabel (base : UInt32) (ha : arm.Spelled) :
    Bracketed (armLabel o base arm).toList := by
  have hopcode := unclosed?_of_isTypeToken ha.opcode
  have helement := unclosed?_of_isTypeToken ha.element
  refine bracketed_label (unclosed?_toString arm.key.toNat) (fun pending => ?_) fun pending => ?_
  · rw [toList_sum]
    simp [hopcode, helement, readBracket, closer?, isCloser, -Nat.toString_eq_repr]
  · simp [Arm.pairing, Pairing.text, hopcode, helement, readBracket, closer?, isCloser]

theorem nests_controls {controls : List ControlEntry}
    (hc : ∀ control ∈ controls, isTypeToken control.name = true) :
    Layout.Nests (Cpp.controls o controls) := by
  have hlabels : Layout.Nests (controls.map fun control => .line (controlLabel o control)) := by
    rw [List.map_eq_flatMap]
    exact Layout.nests_flatMap fun control h => ⟨bracketed_controlLabel (hc control h), trivial⟩
  have hbreak : Layout.Nests [.indent, .line "break;", .dedent, .blank] :=
    ⟨trivial, (by decide : Bracketed "break;".toList), trivial, trivial, trivial⟩
  unfold Cpp.controls
  split
  · rw [Layout.Nests]
    trivial
  · exact Layout.nests_append.2 ⟨hlabels, hbreak⟩

section
variable (hs : o.symbols.Spelled)
include hs

theorem bracketed_callText (ha : arm.Spelled) : Bracketed (callText o arm).toList := by
  have hiterate := unclosed?_of_isTypeToken (hs o.symbols.iteratePrefix (by simp [Symbols.toList]))
  rw [toList_callText, bracketed_iff]
  simp [hiterate, unclosed?_of_isTypeToken ha.token, unclosed?_of_isTypeToken ha.handler,
    readBracket, closer?, isCloser, -Nat.toString_eq_repr]

theorem nests_arm (base : UInt32) (ha : arm.Spelled) : Layout.Nests (Cpp.arm o base arm) := by
  have hbody : Layout.Nests [.line (callText o arm), .line "break;"] :=
    ⟨bracketed_callText hs ha, (by decide : Bracketed "break;".toList), trivial⟩
  exact ⟨⟨encloses_nil (bracketed_armLabel base ha), hbody⟩, trivial⟩

theorem nests_unknownKey : Layout.Nests (unknownKey o) := by
  have h := hs.unclosed?
  simp only [Symbols.toList, List.forall_mem_cons] at h
  have hmessage : Bracketed ("\"" ++ o.symbols.routineName ++
      "() encountered an unsupported instruction: %s\\n\",").toList := by
    rw [bracketed_iff]
    simp [h, readBracket, closer?, isCloser]
  have hopcode : Bracketed (s!"{o.symbols.opcodeText}(instr->opcode)").toList := by
    rw [bracketed_iff]
    simp [h, readBracket, closer?, isCloser]
  have hreturn : Bracketed (s!"return {o.symbols.unsupportedStatus};").toList := by
    rw [bracketed_iff]
    simp [h, readBracket, closer?, isCloser]
  have hstderr : Bracketed "stderr,".toList := by decide
  have hcall : Encloses "fprintf(".toList ");".toList :=
    encloses_pair rfl (by decide : Bracketed "fprintf".toList) (by decide)
  have hdefault : Encloses "default:".toList "".toList := encloses_nil (by decide)
  exact ⟨⟨hdefault, ⟨hcall, hstderr, hmessage, hopcode, trivial⟩, hreturn, trivial⟩, trivial⟩

variable (ht : t.Spelled)
include ht

theorem nests_dispatch : Layout.Nests (dispatch o t) := by
  have hkey : Bracketed (keyText t.base).toList := by
    rw [bracketed_iff, toList_keyText]
    simp [readBracket, closer?, isCloser, -Nat.toString_eq_repr]
  have hcases : Layout.Nests (t.arms.flatMap (Cpp.arm o t.base) ++ .blank :: unknownKey o) :=
    Layout.nests_append.2 ⟨Layout.nests_flatMap fun arm h => nests_arm hs t.base (ht.arms arm h),
      trivial, nests_unknownKey hs⟩
  exact ⟨hkey, Step.nests_braced (by decide) hcases, (by decide : Bracketed "break;".toList),
    trivial⟩

theorem nests_routine : Layout.Nests (routine o t) := by
  have h := hs.unclosed?
  simp only [Symbols.toList, List.forall_mem_cons] at h
  have hsignature : Bracketed (s!"{o.symbols.statusType} {o.symbols.routineName}({
      o.symbols.indexType} instruction_count, " ++ o.symbols.instructionType ++
        " instruction_list[])").toList := by
    rw [bracketed_iff]
    simp [h, readBracket, closer?, isCloser]
  have hloop : Bracketed
      (s!"for ({o.symbols.indexType} i = 0; i < instruction_count; ++i)").toList := by
    rw [bracketed_iff]
    simp [h, readBracket, closer?, isCloser]
  have hinstr : Bracketed
      (s!"{o.symbols.instructionType} *instr = &instruction_list[i];").toList := by
    rw [bracketed_iff]
    simp [h, readBracket, closer?, isCloser]
  have hreturn : Bracketed (s!"return {o.symbols.successStatus};").toList := by
    rw [bracketed_iff]
    simp [h, readBracket, closer?, isCloser]
  have hswitch : Layout.Nests (Cpp.controls o t.controls ++ [.braced "default:" (dispatch o t)]) :=
    Layout.nests_append.2 ⟨nests_controls ht.controls,
      Step.nests_braced (by decide) (nests_dispatch hs ht), trivial⟩
  refine ⟨Step.nests_braced hsignature ⟨Step.nests_braced hloop ⟨hinstr, ?_, trivial⟩, hreturn,
    trivial⟩, trivial⟩
  exact Step.nests_braced (by decide) hswitch

omit ht in
theorem nests_stub (hstub : stub.Spelled) : Layout.Nests (Cpp.stub o stub) := by
  have h := hs.unclosed?
  simp only [Symbols.toList, List.forall_mem_cons] at h
  have hparams := unclosed?_of_isParamChar (isParamChar_paramsText hs hstub)
  have htemplate : Bracketed "template <typename T>".toList := by decide
  have hsignature : Bracketed
      (s!"{o.symbols.statusType} {stub.name}({paramsText o stub})").toList := by
    rw [bracketed_iff]
    simp [h, hparams, unclosed?_of_isTypeToken hstub.name, readBracket, closer?, isCloser]
  have hcomment : Bracketed "// kernel body goes here".toList := by decide
  have hreturn : Bracketed (s!"return {o.symbols.successStatus};").toList := by
    rw [bracketed_iff]
    simp [h, readBracket, closer?, isCloser]
  exact ⟨htemplate, Step.nests_braced hsignature ⟨hcomment, hreturn, trivial⟩, trivial⟩

end

end Cpp

/-! ## Parts of an artifact -/

/-- What makes the text of a layout well formed: its brackets match, in Rust its blocks are braces,
and its texts are lines without blanks at either end. -/
structure Layout.Neat (target : Target) (layout : Layout) : Prop where
  nests : Nests layout
  in_braces : target = .rust → InBraces layout
  flush : ∀ text ∈ texts layout, Flush text.toList
  ends_clean : ∀ text ∈ texts layout, EndsClean text.toList

namespace Layout

variable {target : Target} {a b : Layout}

theorem neat_nil : Neat target [] where
  nests := by rw [Nests]; trivial
  in_braces _ := by rw [InBraces]; trivial
  flush := by simp [texts]
  ends_clean := by simp [texts]

theorem neat_blank : Neat target [.blank] where
  nests := ⟨trivial, trivial⟩
  in_braces _ := ⟨trivial, trivial⟩
  flush := by simp [texts, Step.texts, flush_iff]
  ends_clean := by simp [texts, Step.texts]

theorem Neat.append (ha : Neat target a) (hb : Neat target b) : Neat target (a ++ b) where
  nests := nests_append.2 ⟨ha.nests, hb.nests⟩
  in_braces ht := Layout.inBraces_append.2 ⟨ha.in_braces ht, hb.in_braces ht⟩
  flush := by
    rw [texts_append, List.forall_mem_append]
    exact ⟨ha.flush, hb.flush⟩
  ends_clean := by
    rw [texts_append, List.forall_mem_append]
    exact ⟨ha.ends_clean, hb.ends_clean⟩

end Layout

namespace Options

variable {o : Options} {t : Table} {stub : Stub} {handlers : List Stub}

section
variable (hs : o.symbols.Spelled)
include hs

theorem neat_stub (hstub : stub.Spelled) : Layout.Neat o.target (o.stub stub) := by
  unfold Options.stub
  cases o.target with
  | cpp => exact {
      nests := Cpp.nests_stub hs hstub
      in_braces := nofun
      flush := Cpp.flush_stub hs hstub
      ends_clean := Cpp.endsClean_stub }
  | rust => exact {
      nests := Layout.InBraces.nests (Rust.inBraces_stub hs hstub)
      in_braces := fun _ => Rust.inBraces_stub hs hstub
      flush := Rust.flush_stub hs hstub
      ends_clean := Rust.endsClean_stub hs }

theorem neat_stubs (hh : ∀ stub ∈ handlers, stub.Spelled) :
    Layout.Neat o.target (o.stubs handlers) := by
  induction handlers with
  | nil => exact Layout.neat_nil
  | cons stub rest ih =>
    rw [List.forall_mem_cons] at hh
    cases rest with
    | nil => exact neat_stub hs hh.1
    | cons next rest =>
      rw [stubs_cons_cons, ← List.singleton_append]
      exact (neat_stub hs hh.1).append (Layout.neat_blank.append (ih hh.2))

theorem neat_routine (ht : t.Spelled) : Layout.Neat o.target (o.routine t) := by
  unfold Options.routine
  cases o.target with
  | cpp => exact {
      nests := Cpp.nests_routine hs ht
      in_braces := nofun
      flush := Cpp.flush_texts hs ht
      ends_clean := Cpp.endsClean_texts ht }
  | rust => exact {
      nests := Layout.InBraces.nests (Rust.inBraces_routine hs ht)
      in_braces := fun _ => Rust.inBraces_routine hs ht
      flush := Rust.flush_texts hs ht
      ends_clean := Rust.endsClean_texts hs ht }

end

theorem texts_stub_ne_nil (o : Options) (stub : Stub) : Layout.texts (o.stub stub) ≠ [] := by
  unfold Options.stub
  cases o.target with
  | cpp => simp [Cpp.texts_stub, Cpp.stubTexts]
  | rust => simp [Rust.texts_stub, Rust.stubTexts]

theorem texts_stubs_ne_nil (o : Options) (hne : handlers ≠ []) :
    Layout.texts (o.stubs handlers) ≠ [] := by
  obtain ⟨stub, rest, rfl⟩ := List.exists_cons_of_ne_nil hne
  cases rest with
  | nil => exact texts_stub_ne_nil o stub
  | cons next rest =>
    rw [stubs_cons_cons, Layout.texts_append]
    exact List.append_ne_nil_of_left_ne_nil (texts_stub_ne_nil o stub) _

theorem texts_routine_ne_nil (o : Options) (t : Table) : Layout.texts (o.routine t) ≠ [] := by
  unfold Options.routine
  cases o.target with
  | cpp => simp [Cpp.texts_routine]
  | rust => simp [Rust.texts_routine]

end Options

/-- Every bracket of the text has its partner; in Rust, a line is indented by the braces it stands
in; no line ends in a blank, and the last one ends with a newline. -/
structure Text.Nested (o : Options) (text : String) : Prop where
  brackets : Bracketed text.toList
  indents : o.target = .rust → IndentsByBraces o.indent [] (splitAt '\n' text.toList)
  ends_clean : ∀ line ∈ splitAt '\n' text.toList, EndsClean line
  last_newline : text.toList.getLast? = some '\n'

theorem Layout.Neat.nested {o : Options} {layout : Layout} (h : Neat o.target layout)
    (hne : texts layout ≠ []) : Nested o (layout.text o.indent) where
  brackets := h.nests.text o.indent 0
  indents ht := (h.in_braces ht).indents o.indent h.flush
  ends_clean := endsClean_text o.indent 0 h.flush h.ends_clean
  last_newline := getLast?_text o.indent 0 hne

theorem Catalog.generated_code_nests {decl : CatalogDecl} {c : Catalog} {o : Options}
    (hb : decl.build = .ok c) (ho : o.validate = .ok ()) (parts : Parts) :
    ∃ a, c.generate o parts = .ok a ∧ a.stubs.isSome = parts.hasStubs ∧
      a.routine.isSome = parts.hasRoutine ∧
        ∀ text, a.stubs = some text ∨ a.routine = some text → Nested o text := by
  have hc := CatalogDecl.valid_of_build hb
  have hs := Options.spelled_of_validate ho
  have hne : c.stubs ≠ [] := by
    simpa [Catalog.stubs] using hc.numeric_ne_nil
  have hstubs : Nested o ((o.stubs c.stubs).text o.indent) :=
    (Options.neat_stubs hs hc.spelled_stubs).nested (o.texts_stubs_ne_nil hne)
  have hroutine : Nested o ((o.routine c.table).text o.indent) :=
    (Options.neat_routine hs hc.spelled_table).nested (o.texts_routine_ne_nil c.table)
  refine ⟨_, hc.generate_eq ho parts, ?_, ?_, ?_⟩
  · cases parts <;> rfl
  · cases parts <;> rfl
  · rintro text (h | h)
    · obtain ⟨-, htext⟩ := Option.ite_none_right_eq_some.1 h
      rwa [← Option.some.inj htext]
    · obtain ⟨-, htext⟩ := Option.ite_none_right_eq_some.1 h
      rwa [← Option.some.inj htext]

/-- Both parts of the Rust artifact of `addMul`, three spaces a level. -/
theorem Catalog.generated_code_nests_addMul :
    let o := { Options.ofTarget .rust with indent := { size := 3 } }
    CatalogDecl.addMul.build = .ok addMul ∧ o.validate = .ok () ∧
      ∃ a stubs routine, addMul.generate o .all = .ok a ∧ a.stubs = some stubs ∧
        a.routine = some routine ∧ Nested o stubs ∧ Nested o routine := by
  intro o
  have ho : o.validate = .ok () := Options.validate_ofTarget .rust
  obtain ⟨a, ha, hstubs, hroutine, hnested⟩ := generated_code_nests build_addMul ho .all
  obtain ⟨stubs, hs⟩ := Option.isSome_iff_exists.1 hstubs
  obtain ⟨routine, hr⟩ := Option.isSome_iff_exists.1 hroutine
  exact ⟨build_addMul, ho, a, stubs, routine, ha, hs, hr, hnested _ (.inl hs),
    hnested _ (.inr hr)⟩

end DispatchGen
