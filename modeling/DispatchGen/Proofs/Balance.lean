import DispatchGen.Proofs.BareLines
import DispatchGen.Proofs.Writer
import Mathlib.Data.List.Basic

/-!
# Balanced layouts

A layout is balanced when it never dedents more often than it has indented before, indents and
dedents as often as each other, and so do the bodies of its blocks (`Layout.Balanced`). It then goes
back to the depth it starts from, wherever that is; its text is the text it has at depth zero, moved
(`Layout.Balanced.text_eq`); and its blocks close where they open, on every level
(`Layout.Balanced.closes`).

The invariant of a run from depth `k` is that no dedent is lost: up to any step that is to come,
there are at most `k` dedents more than indents (`Layout.run_shift`). Moving a text needs margins that
add up, which they do as long as they fit into strings (`IndentStyle.margin_add`).
-/

namespace DispatchGen

/-! ## Moving text -/

namespace Text

theorem intercalate_newline (lines : List String) :
    "\n".intercalate (lines ++ [""]) = ofLines lines := by
  induction lines with
  | nil => rfl
  | cons line lines ih =>
    rw [List.cons_append, String.intercalate_cons_of_ne_nil (by simp), ih, ofLines_cons]

theorem lines_ofLines {ls : List String} (h : ∀ line ∈ ls, '\n' ∉ line.toList) :
    lines (ofLines ls) = ls ++ [""] := by
  rw [lines, splitAt_ofLines h, List.map_append, List.map_map]
  simp [Function.comp_def]

end Text

namespace IndentStyle

variable {style : IndentStyle} {depth k : Nat}

theorem blanks_add : style.blanks (depth + k) = style.blanks depth + style.blanks k := by
  rw [blanks, blanks, blanks]
  split
  · rfl
  · exact Nat.add_mul depth k style.size.toNat

/-- Margins that are strings add up. -/
theorem margin_add (h : style.Fits (depth + k)) :
    style.margin (depth + k) = style.margin depth ++ style.margin k := by
  rw [margin_eq_replicate h, margin_eq_replicate (h.mono (Nat.le_add_right depth k)),
    margin_eq_replicate (h.mono (Nat.le_add_left k depth)), ← String.ofList_append,
    List.replicate_append_replicate, blanks_add]

theorem indentLine_add (h : style.Fits (depth + k)) (line : String) :
    style.indentLine (depth + k) line = style.indentLine depth (style.indentLine k line) := by
  by_cases hline : line.isEmpty
  · simp [indentLine, hline]
  · have hmoved : ¬ (style.margin k ++ line).isEmpty := by
      simp_all [String.isEmpty_iff]
    simp only [indentLine, if_neg hline, if_neg hmoved, margin_add h, String.append_assoc]

theorem indentText_add (h : style.Fits (depth + k)) (text : String) :
    style.indentText (depth + k) text = (style.indentText k text).map (style.indentLine depth) := by
  rw [indentText, indentText, List.map_map]
  exact List.map_congr_left fun line _ => indentLine_add h line

variable (style)

/-- The text with the margin of a depth in front of each line that is not empty. -/
def shift (depth : Nat) (text : String) : String :=
  "\n".intercalate ((Text.lines text).map (style.indentLine depth))

theorem shift_ofLines {lines : List String} (h : ∀ line ∈ lines, '\n' ∉ line.toList)
    (depth : Nat) :
    style.shift depth (Text.ofLines lines) = Text.ofLines (lines.map (style.indentLine depth)) := by
  have hlast : style.indentLine depth "" = "" := rfl
  rw [shift, Text.lines_ofLines h, List.map_append, List.map_singleton, hlast,
    Text.intercalate_newline]

/-- Margins only add to a text. -/
theorem utf8ByteSize_ofLines_le (depth : Nat) (lines : List String) :
    (Text.ofLines lines).utf8ByteSize ≤
      (Text.ofLines (lines.map (style.indentLine depth))).utf8ByteSize := by
  induction lines with
  | nil => exact Nat.le_refl _
  | cons line lines ih =>
    have hline : line.utf8ByteSize ≤ (style.indentLine depth line).utf8ByteSize := by
      rw [indentLine]
      split
      · exact Nat.le_refl _
      · rw [String.utf8ByteSize_append]
        exact Nat.le_add_left _ _
    rw [List.map_cons, Text.ofLines_cons, Text.ofLines_cons]
    simp only [String.utf8ByteSize_append]
    omega

end IndentStyle

/-! ## Balance -/

namespace Layout

/-- The indents among the steps, blocks apart. -/
def indents (layout : Layout) : Nat :=
  layout.countP (· matches .indent)

/-- The dedents among the steps, blocks apart. -/
def dedents (layout : Layout) : Nat :=
  layout.countP (· matches .dedent)

theorem indents_append (a b : Layout) : indents (a ++ b) = indents a + indents b :=
  List.countP_append

theorem dedents_append (a b : Layout) : dedents (a ++ b) = dedents a + dedents b :=
  List.countP_append

theorem indents_cons (step : Step) (rest : Layout) :
    indents (step :: rest) = indents [step] + indents rest :=
  indents_append [step] rest

theorem dedents_cons (step : Step) (rest : Layout) :
    dedents (step :: rest) = dedents [step] + dedents rest :=
  dedents_append [step] rest

/-- Up to any step there are no more dedents than indents, and over all steps there are as many;
likewise in the body of every block. -/
inductive Balanced : List Step → Prop
  | intro {layout : List Step}
      (ahead : ∀ front, front <+: layout → dedents front ≤ indents front)
      (even : dedents layout = indents layout)
      (bodies : ∀ opening body closing, .block opening body closing ∈ layout → Balanced body) :
      Balanced layout

/-- The layout goes back to the depth it starts from, and wherever it fits its lines are those from
further out behind margins. -/
structure Uniform (style : IndentStyle) (layout : Layout) : Prop where
  depthAfter_eq : ∀ depth, depthAfter depth layout = depth
  lines_eq : ∀ depth k, Fits style (depth + k) layout →
    lines style (depth + k) layout = (lines style k layout).map (style.indentLine depth)

variable {style : IndentStyle}

/-! ### Runs -/

/-- What a step does at depth `k`, it does `depth` levels further in, unless a dedent is lost. -/
theorem step_shift {step : Step} {k : Nat} (hk : dedents [step] ≤ k + indents [step])
    (hbody : ∀ opening body closing, step = .block opening body closing → Uniform style body)
    (depth : Nat) :
    step.depthAfter (depth + k) = depth + step.depthAfter k ∧
      step.depthAfter k + dedents [step] = k + indents [step] ∧
      (step.Fits style (depth + k) →
        step.lines style (depth + k) = (step.lines style k).map (style.indentLine depth)) := by
  cases step with
  | line text => exact ⟨rfl, rfl, fun hfits => IndentStyle.indentText_add hfits text⟩
  | blank => exact ⟨rfl, rfl, fun _ => rfl⟩
  | indent => exact ⟨rfl, rfl, fun _ => rfl⟩
  | dedent =>
    have hpos : 1 ≤ k := hk
    simp only [Step.depthAfter]
    exact ⟨by omega, Nat.sub_add_cancel hpos, fun _ => rfl⟩
  | block opening body closing =>
    have hb := hbody opening body closing rfl
    have hback : ∀ depth, depthAfter (depth + 1) body - 1 = depth := fun depth => by
      rw [hb.depthAfter_eq, Nat.add_sub_cancel]
    refine ⟨?_, ?_, fun ⟨hopening, _, hbody, hclosing⟩ => ?_⟩
    · rw [Step.depthAfter, Step.depthAfter, hback, hback]
    · rw [Step.depthAfter, hback]
      rfl
    · have hlines : lines style (depth + k + 1) body =
          (lines style (k + 1) body).map (style.indentLine depth) := hb.lines_eq depth (k + 1) hbody
      have hend : closing.toList.flatMap (style.indentText (depth + k)) =
          (closing.toList.flatMap (style.indentText k)).map (style.indentLine depth) := by
        rw [List.map_flatMap]
        exact List.flatMap_congr fun text _ => IndentStyle.indentText_add hopening text
      rw [Step.lines_block, Step.lines_block, hback, hback, hlines, hend,
        IndentStyle.indentText_add hopening, List.map_append, List.map_append]

/-- So does a run from depth `k`; it ends as far from there as indents and dedents add up to. -/
theorem run_shift {layout : Layout} {k : Nat}
    (ahead : ∀ front, front <+: layout → dedents front ≤ k + indents front)
    (hbodies : ∀ opening body closing, .block opening body closing ∈ layout → Uniform style body)
    (depth : Nat) :
    depthAfter (depth + k) layout + dedents layout = depth + k + indents layout ∧
      (Fits style (depth + k) layout →
        lines style (depth + k) layout = (lines style k layout).map (style.indentLine depth)) := by
  induction layout generalizing k with
  | nil => exact ⟨rfl, fun _ => rfl⟩
  | cons step rest ih =>
    have hstep : dedents [step] ≤ k + indents [step] :=
      ahead [step] (List.prefix_append [step] rest)
    obtain ⟨hdepth, hcount, hlines⟩ := step_shift hstep
      (fun opening body closing e => hbodies opening body closing (e ▸ List.mem_cons_self)) depth
    -- behind the step, its indent or dedent is in the levels in hand
    have hrest : ∀ front, front <+: rest → dedents front ≤ step.depthAfter k + indents front := by
      intro front hfront
      have h := ahead (step :: front) (List.cons_prefix_cons.2 ⟨rfl, hfront⟩)
      rw [dedents_cons, indents_cons] at h
      omega
    obtain ⟨hafter, hmoved⟩ := ih hrest fun opening body closing h =>
      hbodies opening body closing (List.mem_cons_of_mem step h)
    refine ⟨?_, fun ⟨hstepFits, hrestFits⟩ => ?_⟩
    · rw [depthAfter, hdepth, dedents_cons, indents_cons]
      omega
    · rw [hdepth] at hrestFits
      rw [lines, lines, hdepth, hlines hstepFits, hmoved hrestFits, List.map_append]

namespace Balanced

variable {layout : Layout}

theorem of_block_mem (h : Balanced layout) {opening : String} {body : List Step}
    {closing : Option String} (hm : .block opening body closing ∈ layout) : Balanced body := by
  obtain ⟨-, -, hbodies⟩ := h
  exact hbodies opening body closing hm

theorem uniform (h : Balanced layout) : Uniform style layout := by
  induction h with
  | @intro layout ahead even _ ih =>
    -- no levels in hand are needed, so there may be any number of them
    have hahead : ∀ k front, front <+: layout → dedents front ≤ k + indents front :=
      fun k front hf => Nat.le_add_left_of_le (ahead front hf)
    refine ⟨fun depth => ?_, fun depth k => (run_shift (hahead k) ih depth).2⟩
    have hafter : depthAfter (depth + 0) layout + dedents layout = depth + 0 + indents layout :=
      (run_shift (hahead 0) ih depth).1
    rw [even] at hafter
    exact Nat.add_right_cancel hafter

theorem depthAfter_eq (h : Balanced layout) (depth : Nat) : depthAfter depth layout = depth := by
  have hu : Uniform {} layout := h.uniform
  exact hu.depthAfter_eq depth

theorem fits_append {rest : Layout} (h : Balanced layout) {depth : Nat} :
    Fits style depth (layout ++ rest) ↔ Fits style depth layout ∧ Fits style depth rest := by
  rw [Layout.fits_append, h.depthAfter_eq]

/-- The text at a depth is the text at depth zero, moved there. -/
theorem text_eq (h : Balanced layout) {depth : Nat} (hfits : Fits style depth layout) :
    layout.text style depth = style.shift depth (layout.text style) := by
  rw [text, text, style.shift_ofLines (newline_not_mem_lines style 0 layout)]
  exact congrArg Text.ofLines (h.uniform.lines_eq depth 0 hfits)

end Balanced

/-! ### Moving with the depth -/

/-- A run of the layout is left at the depth it starts from, and wherever that is it writes what is
written from nothing, moved there. -/
def MovesWithDepth (style : IndentStyle) (layout : Layout) : Prop :=
  ∀ w w' : Writer, w.run? style layout = some w' → w'.depth = w.depth ∧
    ∃ text, layout.write? style = some text ∧ w'.output = w.output ++ style.shift w.depth text

theorem Balanced.movesWithDepth {layout : Layout} (h : Balanced layout) :
    MovesWithDepth style layout := by
  intro w w' hrun
  obtain ⟨hfits, houtput, hdepth⟩ := Writer.run?_eq_some_iff.1 hrun
  have htext := h.text_eq hfits
  have hroom : (layout.text style).utf8ByteSize ≤ Text.maxBytes := by
    have hle : (w.output ++ layout.text style w.depth).utf8ByteSize ≤ Text.maxBytes :=
      houtput ▸ w'.output_le
    have hmoved : (layout.text style).utf8ByteSize ≤
        (layout.text style w.depth).utf8ByteSize := by
      rw [htext, text, style.shift_ofLines (newline_not_mem_lines style 0 layout)]
      exact style.utf8ByteSize_ofLines_le w.depth _
    rw [String.utf8ByteSize_append] at hle
    omega
  exact ⟨hdepth.trans (h.depthAfter_eq w.depth), layout.text style,
    write?_eq_some_iff.2 ⟨⟨hfits.mono (Nat.zero_le w.depth), hroom⟩, rfl⟩, htext ▸ houtput⟩

/-! ### Blocks -/

/-- A run of the layout from `depth` comes to `step` at `level`. -/
inductive Reaches : Nat → List Step → Nat → Step → Prop
  | here (depth : Nat) (front : List Step) (step : Step) (rest : List Step) :
      Reaches depth (front ++ step :: rest) (depthAfter depth front) step
  | inside {depth level : Nat} (front : List Step) {opening : String} {body : List Step}
      {closing : Option String} (rest : List Step) {step : Step}
      (h : Reaches (depthAfter depth front + 1) body level step) :
      Reaches depth (front ++ .block opening body closing :: rest) level step

theorem lines_step_within (style : IndentStyle) (depth : Nat) (front : Layout) (step : Step)
    (rest : Layout) :
    step.lines style (depthAfter depth front) <:+: lines style depth (front ++ step :: rest) := by
  rw [lines_append, lines, ← List.append_assoc]
  exact List.infix_append ..

namespace Reaches

variable {layout : Layout} {depth level : Nat} {step : Step}

/-- What a step writes stands in one piece among the lines of the layout. -/
theorem lines_within (h : Reaches depth layout level step) (style : IndentStyle) :
    step.lines style level <:+: lines style depth layout := by
  induction h with
  | here depth front step rest => exact lines_step_within style depth front step rest
  | @inside depth level front opening body closing rest step _ ih =>
    have hbody : lines style (depthAfter depth front + 1) body <:+:
        (Step.block opening body closing).lines style (depthAfter depth front) := by
      rw [Step.lines_block]
      exact List.infix_append ..
    exact (ih.trans hbody).trans (lines_step_within style depth front _ rest)

/-- All blocks that a run comes to have balanced bodies. -/
theorem balanced (h : Reaches depth layout level step) (hl : Balanced layout) :
    ∀ opening body closing, step = .block opening body closing → Balanced body := by
  induction h with
  | here depth front step rest =>
    rintro opening body closing rfl
    exact hl.of_block_mem (List.mem_append_right front List.mem_cons_self)
  | inside front rest _ ih =>
    exact ih (hl.of_block_mem (List.mem_append_right front List.mem_cons_self))

end Reaches

/-- A block closes at the depth it opens at. -/
theorem Balanced.closes {layout : Layout} (hl : Balanced layout) {depth level : Nat}
    {opening : String} {body : List Step} {closing : Option String}
    (h : Reaches depth layout level (.block opening body closing)) (style : IndentStyle) :
    style.indentText level opening ++ lines style (level + 1) body ++
      closing.toList.flatMap (style.indentText level) <:+: lines style depth layout := by
  have hbody : Balanced body := h.balanced hl opening body closing rfl
  have hlines := h.lines_within style
  rwa [Step.lines_block, hbody.depthAfter_eq, Nat.add_sub_cancel] at hlines

/-! ### Building balanced layouts -/

namespace Balanced

variable {a b body rest layout : Layout}

theorem nil : Balanced [] :=
  .intro (fun front hf => by rw [List.prefix_nil.1 hf, dedents]; exact Nat.zero_le _) rfl (by simp)

theorem append (ha : Balanced a) (hb : Balanced b) : Balanced (a ++ b) := by
  obtain ⟨haheadA, hevenA, hbodiesA⟩ := ha
  obtain ⟨haheadB, hevenB, hbodiesB⟩ := hb
  refine .intro (fun front hf => ?_) ?_ fun opening body closing h => ?_
  · rcases List.prefix_or_prefix_of_prefix hf (List.prefix_append a b) with h | ⟨back, rfl⟩
    · exact haheadA front h
    · have h := haheadB back ((List.prefix_append_right_inj a).1 hf)
      rw [dedents_append, indents_append]
      omega
  · rw [dedents_append, indents_append, hevenA, hevenB]
  · rcases List.mem_append.1 h with h | h
    · exact hbodiesA opening body closing h
    · exact hbodiesB opening body closing h

theorem singleton {step : Step} (hdedents : dedents [step] = 0) (hindents : indents [step] = 0)
    (hbody : ∀ opening body closing, step = .block opening body closing → Balanced body) :
    Balanced [step] := by
  refine .intro (fun front hf => ?_) (hdedents.trans hindents.symm) fun opening body closing h => ?_
  · have hle : dedents front ≤ dedents [step] := hf.sublist.countP_le
    omega
  · exact hbody opening body closing (List.mem_singleton.1 h).symm

theorem line {text : String} (h : Balanced rest) : Balanced (.line text :: rest) := by
  have hline : Balanced [.line text] := singleton rfl rfl (by simp)
  exact hline.append h

theorem blank (h : Balanced rest) : Balanced (.blank :: rest) := by
  have hblank : Balanced [.blank] := singleton rfl rfl (by simp)
  exact hblank.append h

theorem block {opening : String} {closing : Option String} (hb : Balanced body)
    (h : Balanced rest) : Balanced (.block opening body closing :: rest) := by
  have hblock : Balanced [.block opening body closing] := by
    refine singleton rfl rfl fun _ _ _ e => ?_
    obtain ⟨-, rfl, -⟩ := Step.block.inj e
    exact hb
  exact hblock.append h

/-- Steps between an indent and its dedent. -/
theorem indented (h : Balanced layout) : Balanced (.indent :: (layout ++ [.dedent])) := by
  obtain ⟨hahead, heven, hbodies⟩ := h
  have hindent : ∀ front : Layout, indents (.indent :: front) = indents front + 1 ∧
      dedents (.indent :: front) = dedents front := by
    intro front
    rw [indents_cons, dedents_cons]
    exact ⟨Nat.add_comm .., Nat.zero_add _⟩
  have hclosed : dedents (layout ++ [.dedent]) = indents (layout ++ [.dedent]) + 1 := by
    rw [dedents_append, indents_append, heven]
    rfl
  refine .intro (fun front hf => ?_) ?_ fun opening body closing hb => ?_
  · rcases List.prefix_cons_iff.1 hf with rfl | ⟨rest, rfl, hrest⟩
    · exact Nat.zero_le _
    · rw [(hindent rest).1, (hindent rest).2]
      rcases List.prefix_concat_iff.1 hrest with rfl | hrest
      · exact Nat.le_of_eq hclosed
      · exact Nat.le_succ_of_le (hahead rest hrest)
  · rw [(hindent _).1, (hindent _).2, hclosed]
  · exact hbodies opening body closing (by simpa using hb)

theorem flatMap {α : Type} {f : α → Layout} {xs : List α} (h : ∀ x ∈ xs, Balanced (f x)) :
    Balanced (xs.flatMap f) := by
  induction xs with
  | nil => exact nil
  | cons x xs ih =>
    rw [List.forall_mem_cons] at h
    exact h.1.append (ih h.2)

theorem map_line {α : Type} (f : α → String) (xs : List α) :
    Balanced (xs.map fun x => .line (f x)) := by
  rw [List.map_eq_flatMap]
  exact flatMap fun x _ => line nil

end Balanced

end Layout

end DispatchGen
