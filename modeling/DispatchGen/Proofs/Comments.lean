import DispatchGen.Proofs.RoutineReading
import DispatchGen.Proofs.SwitchReading
import Mathlib.Data.List.DropRight

/-!
# Comments

`Text.codeLines` is what a text says without its comments: each line up to the first `//`, without the
blanks left behind, where anything is left. Layouts with the same code at any depth
(`Layout.SameCode`) may stand for each other inside a larger layout, and a comment behind a line or on
a line of its own is nothing to the code. Hence `Catalog.comments_add_no_code`: artifacts that differ
in the comments option alone have the same code, and their routines read back alike.
-/

namespace DispatchGen

namespace Text

/-! ## Code -/

/-- The part of a line in front of the first `//`. -/
def beforeComment : List Char → List Char
  | [] => []
  | c :: cs => if "//".toList.isPrefixOf (c :: cs) then [] else c :: beforeComment cs

/-- A line without its comment and without blanks at the end. -/
def code (line : List Char) : List Char :=
  (beforeComment line).rdropWhile isBlank

/-- The code of the lines that have any. -/
def codeOf (lines : List (List Char)) : List (List Char) :=
  (lines.map code).filter (· ≠ [])

/-- The code in a text, line by line. -/
def codeLines (text : String) : List (List Char) :=
  codeOf (splitAt '\n' text.toList)

example : codeLines "\tcase 4: // ADD / x \n// SYNC\n\n\tbreak; \n" =
    ["\tcase 4:".toList, "\tbreak;".toList] := by
  decide

theorem codeOf_append (a b : List (List Char)) : codeOf (a ++ b) = codeOf a ++ codeOf b := by
  rw [codeOf, List.map_append, List.filter_append, codeOf, codeOf]

/-- A comment changes nothing in front of it, but for the blank that sets it off. -/
theorem beforeComment_append (line comment : List Char) :
    beforeComment (line ++ " //".toList ++ comment) = beforeComment line ∨
      beforeComment (line ++ " //".toList ++ comment) = beforeComment line ++ [' '] := by
  induction line with
  | nil => exact .inr rfl
  | cons c line ih =>
    have hmark : "//".toList.isPrefixOf (c :: line ++ " //".toList ++ comment) =
        "//".toList.isPrefixOf (c :: line) := by
      cases line with
      | nil => simp [List.isPrefixOf_cons_cons]
      | cons => simp [List.isPrefixOf_cons_cons]
    rw [List.cons_append, List.cons_append] at hmark ⊢
    rw [beforeComment, beforeComment, hmark]
    split
    · exact .inl rfl
    · rcases ih with ih | ih
      · exact .inl (by rw [ih])
      · exact .inr (by rw [ih, List.cons_append])

theorem code_append_comment (line comment : List Char) :
    code (line ++ " //".toList ++ comment) = code line := by
  unfold code
  rcases beforeComment_append line comment with h | h
  · rw [h]
  · rw [h, List.rdropWhile_concat_pos _ _ _ (by decide)]

/-- A line that holds nothing but a comment, behind a margin. -/
theorem code_comment {margin : List Char} (h : ∀ c ∈ margin, isBlank c = true)
    (comment : List Char) : code (margin ++ "//".toList ++ comment) = [] := by
  have hfront : beforeComment (margin ++ "//".toList ++ comment) = margin := by
    induction margin with
    | nil => rfl
    | cons c margin ih =>
      rw [List.forall_mem_cons] at h
      have hslash : (c == '/') = false := beq_false_of_ne fun e => by simp [e, isBlank] at h
      rw [List.cons_append, List.cons_append, beforeComment, ih h.2]
      simp [List.isPrefixOf_cons_cons, hslash, BEq.comm]
  rw [code, hfront]
  exact List.rdropWhile_eq_nil_iff.2 h

theorem code_of_blank {margin : List Char} (h : ∀ c ∈ margin, isBlank c = true) :
    code margin = [] := by
  have hblank : ∀ c ∈ margin ++ [' '], isBlank c = true := by
    rw [List.forall_mem_append]
    exact ⟨h, by simp [isBlank]⟩
  have hmark : margin ++ [' '] ++ "//".toList ++ [] = margin ++ " //".toList ++ [] := by
    simp
  rw [← code_append_comment margin [], ← hmark, code_comment hblank]

theorem code_indentLine (style : IndentStyle) (depth : Nat) (line : String) :
    code (style.indentLine depth line).toList =
      code ((style.margin depth).toList ++ line.toList) := by
  unfold IndentStyle.indentLine
  split
  · next h =>
    rw [String.isEmpty_iff.1 h, String.toList_empty, List.append_nil,
      code_of_blank fun c hc => style.isBlank_of_mem_margin hc]
    rfl
  · rw [String.toList_append]

end Text

open Text

/-! ## Layouts -/

namespace Layout

/-- The code in the lines of a layout. -/
def code (style : IndentStyle) (depth : Nat) (layout : Layout) : List (List Char) :=
  codeOf ((lines style depth layout).map String.toList)

/-- Two layouts with the same code, wherever they start, that end at one depth. -/
structure SameCode (a b : Layout) : Prop where
  depth_eq : ∀ depth, depthAfter depth a = depthAfter depth b
  code_eq : ∀ style depth, code style depth a = code style depth b

theorem codeLines_text (style : IndentStyle) (depth : Nat) (layout : Layout) :
    codeLines (layout.text style depth) = layout.code style depth := by
  rw [codeLines, text, splitAt_ofLines (newline_not_mem_lines style depth layout), codeOf_append]
  exact List.append_nil _

theorem code_append (style : IndentStyle) (depth : Nat) (a b : Layout) :
    code style depth (a ++ b) = code style depth a ++ code style (depthAfter depth a) b := by
  rw [code, lines_append, List.map_append, codeOf_append]
  rfl

namespace SameCode

variable {a a' b b' : Layout}

theorem refl (a : Layout) : SameCode a a :=
  ⟨fun _ => rfl, fun _ _ => rfl⟩

theorem symm (h : SameCode a b) : SameCode b a :=
  ⟨fun depth => (h.depth_eq depth).symm, fun style depth => (h.code_eq style depth).symm⟩

theorem trans {c : Layout} (h : SameCode a b) (h' : SameCode b c) : SameCode a c :=
  ⟨fun depth => (h.depth_eq depth).trans (h'.depth_eq depth),
    fun style depth => (h.code_eq style depth).trans (h'.code_eq style depth)⟩

theorem append (h : SameCode a b) (h' : SameCode a' b') : SameCode (a ++ a') (b ++ b') where
  depth_eq depth := by
    rw [depthAfter_append, depthAfter_append, h.depth_eq, h'.depth_eq]
  code_eq style depth := by
    rw [code_append, code_append, h.code_eq, h.depth_eq, h'.code_eq]

theorem cons {s s' : Step} (h : SameCode [s] [s']) (h' : SameCode a b) :
    SameCode (s :: a) (s' :: b) :=
  h.append h'

theorem flatMap {α : Type} {f g : α → Layout} {xs : List α} (h : ∀ x ∈ xs, SameCode (f x) (g x)) :
    SameCode (xs.flatMap f) (xs.flatMap g) := by
  induction xs with
  | nil => exact refl []
  | cons x xs ih =>
    rw [List.forall_mem_cons] at h
    rw [List.flatMap_cons, List.flatMap_cons]
    exact h.1.append (ih h.2)

/-- Blocks keep the code of what they are made of. -/
theorem block {opening opening' : String} (ho : SameCode [.line opening] [.line opening'])
    (hb : SameCode a b) (closing : Option String) :
    SameCode [.block opening a closing] [.block opening' b closing] where
  depth_eq depth := by
    simp only [depthAfter, Step.depthAfter, hb.depth_eq]
  code_eq style depth := by
    have hopening := ho.code_eq style depth
    have hbody := hb.code_eq style (depth + 1)
    simp only [code, lines, Step.lines, List.append_nil, List.map_append, codeOf_append] at *
    rw [hopening, hbody, hb.depth_eq]

theorem braced (head : String) (hb : SameCode a b) :
    SameCode [.braced head a] [.braced head b] :=
  block (refl _) hb _

/-! ### Comments in layouts -/

theorem code_line {text : String} (h : '\n' ∉ text.toList) (style : IndentStyle) (depth : Nat) :
    code style depth [.line text] =
      [Text.code ((style.margin depth).toList ++ text.toList)].filter (· ≠ []) := by
  have hlines : lines style depth [.line text] = [style.indentLine depth text] := by
    rw [lines, lines, List.append_nil, Step.lines, style.indentText_eq_singleton depth h]
  rw [code, hlines, codeOf, List.map_singleton, List.map_singleton, code_indentLine]

/-- A comment behind a line. -/
theorem comment_behind {text comment : String} (h : '\n' ∉ (text ++ " // " ++ comment).toList) :
    SameCode [.line (text ++ " // " ++ comment)] [.line text] where
  depth_eq _ := rfl
  code_eq style depth := by
    have htext : '\n' ∉ text.toList := by
      simp only [String.toList_append, List.mem_append, not_or] at h
      exact h.1.1
    have hmark : (text ++ " // " ++ comment).toList =
        text.toList ++ " //".toList ++ (' ' :: comment.toList) := by
      simp
    rw [code_line h, code_line htext, hmark, ← List.append_assoc, ← List.append_assoc,
      code_append_comment]

/-- A comment on a line of its own. -/
theorem comment_line {comment : String} (h : '\n' ∉ ("// " ++ comment).toList) :
    SameCode [.line ("// " ++ comment)] [] where
  depth_eq _ := rfl
  code_eq style depth := by
    have hmark : ("// " ++ comment).toList = "//".toList ++ (' ' :: comment.toList) := by
      simp
    rw [code_line h, hmark, ← List.append_assoc,
      code_comment fun c hc => style.isBlank_of_mem_margin hc]
    rfl

end SameCode

end Layout

open Layout (SameCode)

/-- The same options without comments. -/
def Options.bare (o : Options) : Options :=
  { o with comments := false }

/-! ## C++ -/

namespace Cpp

variable {o : Options} {t : Table}

theorem sameCode_label {literal symbolic comment : String}
    (h : '\n' ∉ (label o literal symbolic comment).toList) :
    SameCode [.line (label o literal symbolic comment)]
      [.line (label o.bare literal symbolic comment)] := by
  obtain ⟨target, style, indent, comments, symbols⟩ := o
  cases style with
  | symbolic => exact .refl _
  | literal =>
    cases comments with
    | false => exact .refl _
    | true =>
      have hlabel : label ⟨target, .literal, indent, true, symbols⟩ literal symbolic comment =
          s!"case {literal}:" ++ " // " ++ comment := by
        rw [← String.toList_inj, toList_label]
        simp [labelTail]
      rw [hlabel] at h ⊢
      exact .comment_behind h

theorem sameCode_controls (ht : t.Spelled) :
    SameCode (Cpp.controls o t.controls) (Cpp.controls o.bare t.controls) := by
  unfold Cpp.controls
  split
  · exact .refl _
  · refine .append ?_ (.refl _)
    rw [List.map_eq_flatMap, List.map_eq_flatMap]
    exact .flatMap fun control hc =>
      sameCode_label (flush_controlLabel (ht.controls control hc)).newline_not_mem

theorem sameCode_arms (ht : t.Spelled) :
    SameCode (t.arms.flatMap (arm o t.base)) (t.arms.flatMap (arm o.bare t.base)) :=
  .flatMap fun arm ha =>
    .block (sameCode_label (flush_armLabel t.base (ht.arms arm ha)).newline_not_mem) (.refl _) _

theorem sameCode_routine (ht : t.Spelled) : SameCode (routine o t) (routine o.bare t) := by
  have hdispatch : SameCode (dispatch o t) (dispatch o.bare t) :=
    .cons (.refl _) (.cons (.braced _ ((sameCode_arms ht).append (.refl _))) (.refl _))
  have hswitch : SameCode (Cpp.controls o t.controls ++ [.braced "default:" (dispatch o t)])
      (Cpp.controls o.bare t.controls ++ [.braced "default:" (dispatch o.bare t)]) :=
    (sameCode_controls ht).append (.braced _ hdispatch)
  exact .braced _ (.cons (.braced _ (.cons (.refl _) (.braced _ hswitch))) (.refl _))

end Cpp

/-! ## Rust -/

namespace Rust

variable {o : Options} {t : Table}

theorem sameCode_arm {arm : Arm} (h : '\n' ∉ (armText o arm).toList) :
    SameCode (Rust.arm o arm) (Rust.arm o.bare arm) := by
  obtain ⟨target, style, indent, comments, symbols⟩ := o
  cases comments with
  | false => exact .refl _
  | true => exact .comment_behind h

theorem sameCode_controls (ht : t.Spelled) :
    SameCode (Rust.controls o t.controls) (Rust.controls o.bare t.controls) := by
  unfold Rust.controls
  split
  · exact .refl _
  · refine .append ?_ (.refl _)
    split
    · exact .comment_line (aside_namesText ht.controls).newline_not_mem
    · exact .refl _

theorem sameCode_routine (hs : o.symbols.Spelled) (ht : t.Spelled) :
    SameCode (routine o t) (routine o.bare t) := by
  have harms : SameCode (t.arms.flatMap (arm o)) (t.arms.flatMap (arm o.bare)) :=
    .flatMap fun arm ha => sameCode_arm (aside_armText hs (ht.arms arm ha)).newline_not_mem
  have hfront : SameCode (.line "let opcode = instr.opcode();" :: Rust.controls o t.controls ++
      element o) (.line "let opcode = instr.opcode();" :: Rust.controls o.bare t.controls ++
        element o.bare) :=
    .append (.cons (.refl _) (sameCode_controls ht)) (.refl _)
  have hmatch := SameCode.braced "match key" (harms.append (.refl [.line s!"_ => {refuse o},"]))
  exact .braced _ (.cons (.braced _ (hfront.append (.cons (.refl _) hmatch))) (.refl _))

end Rust

/-! ## Artifacts -/

namespace Options

/-- What the text of a routine says to a reader of the target's language. -/
def read? (o : Options) (text : String) : Option (Switch ⊕ Routine) :=
  match o.target with
  | .cpp => (Switch.read? o.symbols.iteratePrefix o.keyStyle text).map .inl
  | .rust => (Routine.read? o.symbols.iteratePrefix text).map .inr

/-- What a table says in the target's language. -/
def said (o : Options) (t : Table) : Switch ⊕ Routine :=
  match o.target with
  | .cpp => .inl (t.inSwitch o.keyStyle)
  | .rust => .inr t.inRoutine

/-- The one comment in a stub stays, whatever the option says. -/
theorem stubs_bare (o : Options) (handlers : List Stub) :
    o.bare.stubs handlers = o.stubs handlers := by
  have hstub : o.bare.stub = o.stub := rfl
  exact stubs_congr hstub handlers

section
variable {o : Options} {t : Table} (hs : o.symbols.Spelled) (ht : t.Spelled)
include hs ht

theorem sameCode_routine : SameCode (o.routine t) (o.bare.routine t) := by
  unfold routine
  show SameCode _ (match o.target with
    | .cpp => Cpp.routine o.bare t
    | .rust => Rust.routine o.bare t)
  cases o.target with
  | cpp => exact Cpp.sameCode_routine ht
  | rust => exact Rust.sameCode_routine hs ht

theorem read?_routine (style : IndentStyle) (depth : Nat) :
    o.read? ((o.routine t).text style depth) = some (o.said t) := by
  unfold read? said routine
  cases o.target with
  | cpp => simp only [Cpp.read?_routine hs ht, Option.map_some]
  | rust => simp only [Rust.read?_routine hs ht, Option.map_some]

end

end Options

/-- The comments option takes or leaves comments and nothing else: with and without it, the parts of
an artifact have the same code, and a reader finds the table's labels, tests and calls in both. -/
theorem Catalog.comments_add_no_code {decl : CatalogDecl} {c : Catalog} {o : Options}
    (hb : decl.build = .ok c) (ho : o.validate = .ok ()) (comments : Bool) (parts : Parts) :
    ∃ t a a', c.emitTable = .ok t ∧ c.generate o parts = .ok a ∧
      c.generate { o with comments } parts = .ok a' ∧
      a.stubs.map codeLines = a'.stubs.map codeLines ∧
      a.routine.map codeLines = a'.routine.map codeLines ∧
      ∀ text, a.routine = some text ∨ a'.routine = some text →
        o.read? text = some (o.said t) := by
  have hc := CatalogDecl.valid_of_build hb
  have hs := Options.spelled_of_validate ho
  have ht := hc.spelled_table
  let o' : Options := { o with comments }
  have ho' : o'.validate = .ok () := ho
  have hcode : SameCode (o.routine c.table) (o'.routine c.table) :=
    (Options.sameCode_routine hs ht).trans (Options.sameCode_routine (o := o') hs ht).symm
  have hstubs : o.stubs c.stubs = o'.stubs c.stubs :=
    (o.stubs_bare c.stubs).symm.trans (o'.stubs_bare c.stubs)
  refine ⟨_, _, _, hc.emitTable_eq, hc.generate_eq ho parts, hc.generate_eq ho' parts, ?_, ?_, ?_⟩
  · simp only [render, hstubs]
    rfl
  · unfold render
    cases parts.hasRoutine with
    | false => rfl
    | true =>
      simp only [if_true, Option.map_some, Layout.codeLines_text, hcode.code_eq]
      rfl
  · intro text h
    unfold render at h
    cases hp : parts.hasRoutine with
    | false => simp [hp] at h
    | true =>
      simp only [hp, if_true, Option.some.injEq] at h
      rcases h with rfl | rfl
      · exact Options.read?_routine hs ht o.indent 0
      · exact Options.read?_routine (o := o') hs ht o.indent 0

/-- The routines of `addMul` in Rust, with the comments and without them, are two texts. -/
theorem Catalog.comments_add_no_code_addMul :
    let o := Options.ofTarget .rust
    CatalogDecl.addMul.build = .ok addMul ∧ o.validate = .ok () ∧
      ∃ t a a', addMul.emitTable = .ok t ∧ addMul.generate o .all = .ok a ∧
        addMul.generate { o with comments := false } .all = .ok a' ∧ a.routine ≠ a'.routine ∧
        a.stubs.map codeLines = a'.stubs.map codeLines ∧
        a.routine.map codeLines = a'.routine.map codeLines ∧
        ∀ text, a.routine = some text ∨ a'.routine = some text →
          o.read? text = some (o.said t) := by
  intro o
  have ho : o.validate = .ok () := Options.validate_ofTarget .rust
  obtain ⟨t, a, a', ht, ha, ha', hstubs, hroutine, hread⟩ :=
    comments_add_no_code build_addMul ho false .all
  refine ⟨build_addMul, ho, t, a, a', ht, ha, ha', ?_, hstubs, hroutine, hread⟩
  have hc := CatalogDecl.valid_of_build build_addMul
  have ho' : ({ o with comments := false } : Options).validate = .ok () := ho
  obtain rfl := Except.ok.inj ((hc.generate_eq ho .all).symm.trans ha)
  obtain rfl := Except.ok.inj ((hc.generate_eq ho' .all).symm.trans ha')
  -- one text has a line more, that of the control opcodes' names
  have hlines : ∀ o : Options, o.validate = .ok () →
      (bareLines ((Rust.routine o addMul.table).text o.indent)).length =
        (Layout.texts (Rust.routine o addMul.table)).length + 1 := by
    intro o ho
    have hflush := Rust.flush_texts (Options.spelled_of_validate ho) hc.spelled_table
    rw [Layout.bareLines_text_of_flush hflush, List.length_append, List.length_map,
      List.length_singleton]
  intro h
  have hlength := congrArg (fun text => (bareLines text).length) (Option.some.inj h)
  exact absurd ((hlines o ho).symm.trans (hlength.trans (hlines _ ho'))) (by decide +kernel)

end DispatchGen
