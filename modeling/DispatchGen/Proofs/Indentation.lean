import DispatchGen.Proofs.BareLines
import DispatchGen.Source.Artifact
import Mathlib.Data.List.Basic

/-!
# Indentation

An indent style says what stands in front of a line and nothing else. Without its margins, the
source of an artifact is the lines of the texts that its header, stubs and routine were laid out from
(`bareLines_source_render`), and no layout looks at the style. Hence
`indent_moves_margins_only`: artifacts that differ in the style alone have the same bare lines,
whatever the table and the stubs hold.
-/

namespace DispatchGen

open Text

theorem Text.bareLines_append_newline (front rest : String) :
    bareLines (front ++ ("\n" ++ rest)) = bareLines front ++ bareLines rest := by
  have hcut : (front ++ ("\n" ++ rest)).toList = front.toList ++ '\n' :: rest.toList := by
    simp
  rw [bareLines, hcut, splitAt_append_sep, List.map_append, bareLines, bareLines]

namespace Artifact

variable (a : Artifact)

/-- The parts of the source, in order. -/
def partTexts : List String :=
  a.header :: (a.stubs.toList ++ a.routine.toList)

/-- The newline between two parts adds no line of its own. -/
theorem bareLines_source : bareLines a.source = a.partTexts.flatMap bareLines := by
  have hpart : ∀ (front : String) (text : Option String),
      bareLines (front ++ (text.map ("\n" ++ ·)).getD "") =
        bareLines front ++ text.toList.flatMap bareLines := by
    intro front text
    cases text with
    | none => simp
    | some text => simp [bareLines_append_newline]
  simp only [source, hpart, partTexts, List.flatMap_cons, List.flatMap_append, List.append_assoc]

end Artifact

/-! ## Layouts under another style -/

namespace Options

variable (o : Options)

/-- The layouts of the parts of an artifact, in order. -/
def partLayouts (t : Table) (handlers : List Stub) (parts : Parts) : List Layout :=
  o.header t.catalog :: ((if parts.hasStubs then [o.stubs handlers] else []) ++
    if parts.hasRoutine then [o.routine t] else [])

/-- Layouts are made without a look at the style. -/
theorem partLayouts_indent (style : IndentStyle) (t : Table) (handlers : List Stub)
    (parts : Parts) :
    ({ o with indent := style } : Options).partLayouts t handlers parts =
      o.partLayouts t handlers parts := by
  let o' : Options := { o with indent := style }
  have hheader : o'.header t.catalog = o.header t.catalog := rfl
  have hstub : o'.stub = o.stub := rfl
  have hstubs : o'.stubs handlers = o.stubs handlers := stubs_congr hstub handlers
  have hroutine : o'.routine t = o.routine t := rfl
  show o'.partLayouts t handlers parts = _
  rw [partLayouts, hheader, hstubs, hroutine, partLayouts]

end Options

theorem partTexts_render (t : Table) (handlers : List Stub) (o : Options) (parts : Parts) :
    (render t handlers o parts).partTexts =
      (o.partLayouts t handlers parts).map fun layout => layout.text o.indent := by
  cases parts with
  | routine => rfl
  | stubs => rfl
  | all => rfl

/-- The bare lines of a source are those of the texts of its layouts; each part ends with an empty
line. -/
theorem bareLines_source_render (t : Table) (handlers : List Stub) (o : Options) (parts : Parts) :
    bareLines (render t handlers o parts).source =
      (o.partLayouts t handlers parts).flatMap fun layout =>
        (Layout.texts layout).flatMap bareLines ++ [[]] := by
  rw [Artifact.bareLines_source, partTexts_render, List.flatMap_map]
  exact List.flatMap_congr fun layout _ => Layout.bareLines_text o.indent layout 0

/-- Whatever the table and the stubs hold, the indent style changes nothing but the blanks in front
of lines. -/
theorem indent_moves_margins_only (t : Table) (handlers : List Stub) (parts : Parts) (o : Options)
    (style style' : IndentStyle) :
    bareLines (render t handlers { o with indent := style } parts).source =
      bareLines (render t handlers { o with indent := style' } parts).source := by
  have hlines : ∀ style : IndentStyle,
      bareLines (render t handlers { o with indent := style } parts).source =
        (o.partLayouts t handlers parts).flatMap fun layout =>
          (Layout.texts layout).flatMap bareLines ++ [[]] := by
    intro style
    rw [bareLines_source_render, Options.partLayouts_indent]
  rw [hlines style, hlines style']

end DispatchGen
