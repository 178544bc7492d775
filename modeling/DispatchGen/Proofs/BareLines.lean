import DispatchGen.Source.Layout
import Mathlib.Tactic.MkIffOfInductiveProp

/-!
# The lines of a layout without their margins

A layout's text is its lines behind margins. `Layout.bareLines_text` takes the margins off again:
what is left are the texts of the layout's steps in order (`Layout.texts`), cut into lines, whatever
the indent style and the depth. A reader of generated source starts there.
-/

namespace DispatchGen

namespace Text

/-! ## Cutting at a character -/

variable {sep : Char}

theorem splitAt_of_not_mem {piece : List Char} (h : sep ∉ piece) : splitAt sep piece = [piece] := by
  induction piece with
  | nil => rfl
  | cons c piece ih =>
    rw [List.mem_cons, not_or] at h
    rw [splitAt, if_neg (Ne.symm h.1), ih h.2]

/-- The pieces on both sides of a separator stay as they are. -/
theorem splitAt_append_sep (front rest : List Char) :
    splitAt sep (front ++ sep :: rest) = splitAt sep front ++ splitAt sep rest := by
  induction front with
  | nil => simp [splitAt]
  | cons c front ih =>
    rw [List.cons_append, splitAt, splitAt, ih]
    split
    · rfl
    · cases h : splitAt sep front with
      | nil => exact absurd h (splitAt_ne_nil sep front)
      | cons piece pieces => rfl

theorem splitAt_append {piece : List Char} (h : sep ∉ piece) (rest : List Char) :
    splitAt sep (piece ++ sep :: rest) = piece :: splitAt sep rest := by
  rw [splitAt_append_sep, splitAt_of_not_mem h, List.singleton_append]

/-- Cutting undoes joining when no piece holds the separator. -/
theorem splitAt_joinWith {pieces : List (List Char)} (hne : pieces ≠ [])
    (h : ∀ piece ∈ pieces, sep ∉ piece) : splitAt sep (joinWith sep pieces) = pieces := by
  match pieces with
  | [] => exact absurd rfl hne
  | [piece] => exact splitAt_of_not_mem (h piece List.mem_cons_self)
  | piece :: next :: rest =>
    have ih : splitAt sep (joinWith sep (next :: rest)) = next :: rest :=
      splitAt_joinWith (List.cons_ne_nil next rest) fun p hp => h p (List.mem_cons_of_mem _ hp)
    simp only [joinWith, splitAt_append (h piece List.mem_cons_self), ih]

theorem splitAt_ofLines {lines : List String} (h : ∀ line ∈ lines, '\n' ∉ line.toList) :
    splitAt '\n' (ofLines lines).toList = lines.map String.toList ++ [[]] := by
  induction lines with
  | nil => rfl
  | cons line lines ih =>
    have hl := h line List.mem_cons_self
    have ih := ih fun l hl => h l (List.mem_cons_of_mem _ hl)
    have hcons : (ofLines (line :: lines)).toList =
        line.toList ++ '\n' :: (ofLines lines).toList := by
      simp [ofLines, String.toList_join]
    rw [hcons, splitAt_append hl, ih]
    rfl

/-! ## Margins -/

def isBlank (c : Char) : Bool :=
  c == ' ' || c == '\t'

theorem isBlank_eq_true_iff {c : Char} : isBlank c = true ↔ c = ' ' ∨ c = '\t' := by
  simp [isBlank]

/-- A line without the blanks in front of it. -/
def unindent (line : List Char) : List Char :=
  line.dropWhile isBlank

/-- The lines of a text, without their margins. -/
def bareLines (text : String) : List (List Char) :=
  (splitAt '\n' text.toList).map unindent

theorem bareLines_eq (text : String) :
    bareLines text = (lines text).map fun line => unindent line.toList := by
  simp [bareLines, lines, Function.comp_def]

/-- One line, without a margin. -/
@[mk_iff]
structure Flush (line : List Char) : Prop where
  newline_not_mem : '\n' ∉ line
  head_not_blank : ∀ c ∈ line.head?, isBlank c = false

theorem Flush.unindent_eq {line : List Char} (h : Flush line) : unindent line = line := by
  rw [unindent]
  cases line with
  | nil => rfl
  | cons c cs =>
    rw [List.dropWhile_cons_of_neg]
    simpa using h.head_not_blank

/-- A flush line is its own bare line. -/
theorem Flush.bareLines_eq {text : String} (h : Flush text.toList) :
    bareLines text = [text.toList] := by
  rw [bareLines, splitAt_of_not_mem h.newline_not_mem, List.map_singleton, h.unindent_eq]

end Text

open Text

namespace IndentStyle

variable (style : IndentStyle)

theorem isBlank_of_mem_margin {depth : Nat} {c : Char} (h : c ∈ (style.margin depth).toList) :
    isBlank c = true := by
  rw [margin] at h
  split at h
  · rw [String.toList_ofList] at h
    rw [List.eq_of_mem_replicate h]
    rfl
  · rw [String.toList_ofList] at h
    rw [List.eq_of_mem_replicate h]
    rfl

theorem unindent_indentLine (depth : Nat) (line : String) :
    unindent (style.indentLine depth line).toList = unindent line.toList := by
  rw [indentLine]
  split
  · rfl
  · rw [String.toList_append, unindent, unindent,
      List.dropWhile_append_of_pos fun c hc => style.isBlank_of_mem_margin hc]

theorem newline_not_mem_indentLine {depth : Nat} {line : String} (h : '\n' ∉ line.toList) :
    '\n' ∉ (style.indentLine depth line).toList := by
  rw [indentLine]
  split
  · exact h
  · rw [String.toList_append, List.mem_append, not_or]
    exact ⟨fun hm => absurd (style.isBlank_of_mem_margin hm) (by decide), h⟩

theorem newline_not_mem_indentText {depth : Nat} {text line : String}
    (h : line ∈ style.indentText depth text) : '\n' ∉ line.toList := by
  obtain ⟨piece, hp, rfl⟩ := List.mem_map.1 h
  obtain ⟨cs, hcs, rfl⟩ := List.mem_map.1 hp
  refine style.newline_not_mem_indentLine ?_
  rw [String.toList_ofList]
  exact not_mem_of_mem_splitAt hcs

/-- A text without a newline is one line. -/
theorem indentText_eq_singleton (depth : Nat) {text : String} (h : '\n' ∉ text.toList) :
    style.indentText depth text = [style.indentLine depth text] := by
  simp [indentText, Text.lines, splitAt_of_not_mem h]

theorem map_unindent_indentText (depth : Nat) (text : String) :
    (style.indentText depth text).map (fun line => unindent line.toList) = bareLines text := by
  rw [indentText, List.map_map, bareLines_eq]
  exact List.map_congr_left fun line _ => style.unindent_indentLine depth line

end IndentStyle

/-! ## Layouts -/

mutual

/-- The texts a step writes, in order; a blank line is the empty text. -/
def Step.texts : Step → List String
  | .line text => [text]
  | .blank => [""]
  | .indent => []
  | .dedent => []
  | .block opening body closing => opening :: Layout.texts body ++ closing.toList

def Layout.texts : List Step → List String
  | [] => []
  | step :: rest => step.texts ++ Layout.texts rest

end

mutual

/-- Every line of a step is a line of one of its texts, at some depth. -/
theorem Step.forall_mem_lines {P : String → Prop} {style : IndentStyle} {step : Step}
    (h : ∀ text ∈ step.texts, ∀ depth, ∀ line ∈ style.indentText depth text, P line)
    (depth : Nat) : ∀ line ∈ step.lines style depth, P line := by
  intro line hline
  match step with
  | .line text => exact h text List.mem_cons_self depth line hline
  | .blank =>
    have hblank : style.indentText depth "" = [""] := rfl
    exact h "" List.mem_cons_self depth line (hblank ▸ hline)
  | .indent => simp [Step.lines] at hline
  | .dedent => simp [Step.lines] at hline
  | .block opening body closing =>
    simp only [Step.texts, List.cons_append, List.forall_mem_cons, List.forall_mem_append] at h
    obtain ⟨hopening, hbody, hclosing⟩ := h
    simp only [Step.lines_block, List.mem_append, List.mem_flatMap] at hline
    rcases hline with (hline | hline) | ⟨text, htext, hline⟩
    · exact hopening depth line hline
    · exact Layout.forall_mem_lines hbody _ line hline
    · exact hclosing text htext _ line hline

theorem Layout.forall_mem_lines {P : String → Prop} {style : IndentStyle} {layout : List Step}
    (h : ∀ text ∈ Layout.texts layout, ∀ depth, ∀ line ∈ style.indentText depth text, P line)
    (depth : Nat) : ∀ line ∈ Layout.lines style depth layout, P line := by
  intro line hline
  match layout with
  | [] => simp [Layout.lines] at hline
  | step :: rest =>
    rw [Layout.texts, List.forall_mem_append] at h
    rw [Layout.lines, List.mem_append] at hline
    rcases hline with hline | hline
    · exact Step.forall_mem_lines h.1 depth line hline
    · exact Layout.forall_mem_lines h.2 _ line hline

end

theorem Layout.newline_not_mem_lines (style : IndentStyle) (depth : Nat) (layout : Layout) :
    ∀ line ∈ Layout.lines style depth layout, '\n' ∉ line.toList :=
  Layout.forall_mem_lines (fun _ _ _ _ h => style.newline_not_mem_indentText h) depth

mutual

theorem Step.map_unindent_lines (style : IndentStyle) (depth : Nat) (step : Step) :
    (step.lines style depth).map (fun line => unindent line.toList) =
      step.texts.flatMap bareLines := by
  match step with
  | .line text =>
    rw [Step.lines, style.map_unindent_indentText, Step.texts, List.flatMap_singleton]
  | .blank => rfl
  | .indent => rfl
  | .dedent => rfl
  | .block opening body closing =>
    simp only [Step.lines_block, Step.texts, List.map_append, List.map_flatMap,
      style.map_unindent_indentText, Layout.map_unindent_lines style _ body, List.flatMap_append,
      List.flatMap_cons, List.cons_append, List.append_assoc]

theorem Layout.map_unindent_lines (style : IndentStyle) (depth : Nat) (layout : List Step) :
    (Layout.lines style depth layout).map (fun line => unindent line.toList) =
      (Layout.texts layout).flatMap bareLines := by
  match layout with
  | [] => rfl
  | step :: rest =>
    rw [Layout.lines, List.map_append, Step.map_unindent_lines style depth step,
      Layout.map_unindent_lines style _ rest, Layout.texts, List.flatMap_append]

end

namespace Layout

theorem texts_append (a b : Layout) : texts (a ++ b) = texts a ++ texts b := by
  induction a with
  | nil => rfl
  | cons step a ih => rw [List.cons_append, texts, ih, texts, List.append_assoc]

theorem texts_map_line (lines : List String) : texts (lines.map Step.line) = lines := by
  induction lines with
  | nil => rfl
  | cons line lines ih => rw [List.map_cons, texts, ih, Step.texts, List.singleton_append]

theorem splitAt_text (style : IndentStyle) (layout : Layout) (depth : Nat) :
    splitAt '\n' (layout.text style depth).toList =
      (lines style depth layout).map String.toList ++ [[]] :=
  splitAt_ofLines (newline_not_mem_lines style depth layout)

/-- Without margins, the lines of a layout are those of its texts; the last newline leaves an empty
line behind. -/
theorem bareLines_text (style : IndentStyle) (layout : Layout) (depth : Nat) :
    bareLines (layout.text style depth) = (texts layout).flatMap bareLines ++ [[]] := by
  rw [bareLines, splitAt_text, List.map_append, ← map_unindent_lines style depth layout,
    List.map_map]
  rfl

theorem bareLines_text_of_flush {layout : Layout} (h : ∀ text ∈ texts layout, Flush text.toList)
    (style : IndentStyle) (depth : Nat) :
    bareLines (layout.text style depth) = (texts layout).map String.toList ++ [[]] := by
  have hone : (texts layout).map bareLines = (texts layout).map fun text => [text.toList] :=
    List.map_congr_left fun text ht => (h text ht).bareLines_eq
  rw [bareLines_text, List.flatMap_def, hone, ← List.flatMap_def, List.map_eq_flatMap]

end Layout

end DispatchGen
