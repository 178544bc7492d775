import DispatchGen.Proofs.Emission

/-!
# Headers

The name of a catalog is the one text of it that no check looks at, and the header of an artifact the
one place where it is written. `Catalog.header_comment_iff`: catalogs that differ in the name alone
have artifacts that differ in the header alone, and a header is a single line of comment exactly when
the name holds no newline. Behind a newline, the rest of a name stands in the source as code
(`header_holds_code`).
-/

namespace DispatchGen

/-! ## Lines to text -/

namespace Text

/-- The separator behind each piece is the separator between the pieces, and once more at the end. -/
theorem flatMap_append_sep (sep : Char) {pieces : List (List Char)} (hne : pieces ≠ []) :
    pieces.flatMap (· ++ [sep]) = joinWith sep pieces ++ [sep] := by
  match pieces with
  | [] => exact absurd rfl hne
  | [piece] => simp [joinWith]
  | piece :: next :: rest =>
    have ih := flatMap_append_sep sep (List.cons_ne_nil next rest)
    rw [List.flatMap_cons, ih]
    simp only [joinWith, List.append_assoc, List.cons_append, List.nil_append]

theorem ofLines_lines (s : String) : ofLines (lines s) = s ++ "\n" := by
  have hpieces : (splitAt '\n' s.toList).flatMap (· ++ ['\n']) = s.toList ++ ['\n'] := by
    rw [flatMap_append_sep '\n' (splitAt_ne_nil '\n' s.toList), joinWith_splitAt]
  apply String.toList_injective
  simpa [ofLines, lines, List.flatMap_map] using hpieces

end Text

theorem IndentStyle.indentLine_zero (style : IndentStyle) (line : String) :
    style.indentLine 0 line = line := by
  simp [indentLine, margin, width]

/-- At depth zero a line is laid out as it is, cut where it holds a newline or not. -/
theorem Layout.text_line (style : IndentStyle) (line : String) :
    Layout.text style [.line line] = line ++ "\n" := by
  have hindent : style.indentLine 0 = id := funext style.indentLine_zero
  simp only [text, lines, Step.lines, IndentStyle.indentText, hindent, List.map_id,
    List.append_nil, Text.ofLines_lines]

/-! ## The header -/

/-- A single line, which is a comment: it opens with slashes, and its one newline is its end. -/
structure IsCommentLine (text : String) : Prop where
  slashes : "//".toList <+: text.toList
  one_newline : ∃ line : List Char, text.toList = line ++ ['\n'] ∧ '\n' ∉ line

namespace Target

/-- What stands in front of the catalog's name. -/
def headerLead : Target → String
  | cpp => "// Generated by ve-gen from catalog '"
  | rust => "// @generated by ve-gen from catalog '"

def headerLine (target : Target) (name : String) : String :=
  target.headerLead ++ name ++ "'. Do not edit."

theorem isCommentLine_headerLine (target : Target) (name : String) :
    IsCommentLine (target.headerLine name ++ "\n") ↔ '\n' ∉ name.toList := by
  have hlead : "//".toList <+: target.headerLead.toList ∧ '\n' ∉ target.headerLead.toList := by
    cases target with
    | cpp => decide
    | rust => decide
  -- the name is the one part of the line that may hold a newline
  have hname : '\n' ∈ (target.headerLine name).toList ↔ '\n' ∈ name.toList := by
    simp [headerLine, hlead.2]
  rw [← not_iff_not.2 hname]
  constructor
  · rintro ⟨-, line, hline, hfree⟩
    rw [String.toList_append] at hline
    rwa [List.append_cancel_right hline]
  · intro hfree
    refine ⟨?_, _, String.toList_append, hfree⟩
    simp only [headerLine, String.toList_append, List.append_assoc]
    exact hlead.1.trans (List.prefix_append _ _)

end Target

theorem Options.text_header (o : Options) (name : String) :
    (o.header name).text o.indent = o.target.headerLine name ++ "\n" := by
  rw [header]
  cases o.target with
  | cpp => exact Layout.text_line ..
  | rust => exact Layout.text_line ..

namespace Artifact

/-- The source behind the header. -/
def body (a : Artifact) : String :=
  (a.stubs.map ("\n" ++ ·)).getD "" ++ (a.routine.map ("\n" ++ ·)).getD ""

theorem source_eq (a : Artifact) : a.source = a.header ++ a.body :=
  String.append_assoc ..

end Artifact

theorem Catalog.Valid.generate_header {c : Catalog} (h : c.Valid) {o : Options}
    (ho : o.validate = .ok ()) (parts : Parts) :
    ∃ a, c.generate o parts = .ok a ∧ a.header = o.target.headerLine c.name ++ "\n" :=
  ⟨_, h.generate_eq ho parts, o.text_header c.name⟩

/-! ## Catalogs that differ in the name -/

theorem Catalog.Valid.rename {c : Catalog} (h : c.Valid) (name : String) :
    ({ c with name } : Catalog).Valid where
  types := h.types
  opcodes := h.opcodes
  ordinal_lt_base := h.ordinal_lt_base
  handlers := h.handlers
  handlers_nodup := h.handlers_nodup
  dispatchable_ne_nil := h.dispatchable_ne_nil
  numeric_ne_nil := h.numeric_ne_nil

theorem CatalogDecl.build_rename {decl : CatalogDecl} {c : Catalog} (hb : decl.build = .ok c)
    (name : String) : ({ decl with name } : CatalogDecl).build = .ok { c with name } := by
  obtain ⟨shaped, hs, rfl, hc⟩ := build_eq_ok_iff.1 hb
  exact build_eq_ok_iff.2 ⟨shaped, hs, rfl, hc.rename name⟩

namespace Catalog

variable {c : Catalog} {o : Options}

/-- A routine is laid out without its table's name. -/
theorem routine_rename (name : String) :
    o.routine ({ c with name } : Catalog).table = o.routine c.table := by
  unfold Options.routine
  cases o.target with
  | cpp => rfl
  | rust => rfl

theorem render_rename (parts : Parts) (name : String) :
    render ({ c with name } : Catalog).table ({ c with name } : Catalog).stubs o parts =
      { render c.table c.stubs o parts with
        header := o.target.headerLine name ++ "\n"
        table := { c.table with catalog := name } } := by
  rw [render, routine_rename, ← o.text_header]
  rfl

/-- Whatever an accepted catalog is named, only the header depends on it; the header is one line of
comment exactly under names without a newline. -/
theorem header_comment_iff {decl : CatalogDecl} (hb : decl.build = .ok c)
    (ho : o.validate = .ok ()) (parts : Parts) :
    ∃ rest stubs routine, ∀ name,
      ({ decl with name } : CatalogDecl).build = .ok { c with name } ∧
      ∃ a, ({ c with name } : Catalog).generate o parts = .ok a ∧
        a.header = o.target.headerLine name ++ "\n" ∧ a.source = a.header ++ rest ∧
        a.stubs = stubs ∧ a.routine = routine ∧
        (IsCommentLine a.header ↔ '\n' ∉ name.toList) := by
  have h := CatalogDecl.valid_of_build hb
  let a := render c.table c.stubs o parts
  refine ⟨a.body, a.stubs, a.routine, fun name => ⟨CatalogDecl.build_rename hb name, ?_⟩⟩
  have hgenerate := (h.rename name).generate_eq ho parts
  rw [render_rename] at hgenerate
  exact ⟨_, hgenerate, rfl, Artifact.source_eq _, rfl, rfl,
    o.target.isCommentLine_headerLine name⟩

theorem header_comment_iff_addMul :
    CatalogDecl.addMul.build = .ok addMul ∧ (Options.ofTarget .cpp).validate = .ok () ∧
      ∃ a, addMul.generate (.ofTarget .cpp) .all = .ok a ∧
        a.header = Target.cpp.headerLine "add-mul" ++ "\n" ∧ IsCommentLine a.header := by
  have ho := Options.validate_ofTarget .cpp
  obtain ⟨_, _, _, hnames⟩ := header_comment_iff build_addMul ho .all
  obtain ⟨-, a, ha, hheader, -, -, -, hcomment⟩ := hnames "add-mul"
  exact ⟨build_addMul, ho, a, ha, hheader, hcomment.2 (by decide)⟩

/-- A name with a newline puts a line of code into the header. -/
theorem header_holds_code :
    let name := "add-mul'\nint injected; //"
    ({ CatalogDecl.addMul with name } : CatalogDecl).build = .ok { addMul with name } ∧
      (Options.ofTarget .cpp).validate = .ok () ∧
      ∃ a, ({ addMul with name } : Catalog).generate (.ofTarget .cpp) .all = .ok a ∧
        Text.lines a.header = ["// Generated by ve-gen from catalog 'add-mul'",
          "int injected; //'. Do not edit.", ""] ∧
        ¬ IsCommentLine a.header := by
  intro name
  have ho := Options.validate_ofTarget .cpp
  have h := (CatalogDecl.valid_of_build build_addMul).rename name
  obtain ⟨a, ha, hheader⟩ := h.generate_header ho .all
  refine ⟨CatalogDecl.build_rename build_addMul name, ho, a, ha, ?_, ?_⟩
  · rw [hheader]
    decide +kernel
  · rw [hheader, Target.isCommentLine_headerLine]
    decide

end Catalog

end DispatchGen
