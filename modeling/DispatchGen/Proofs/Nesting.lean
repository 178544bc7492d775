import DispatchGen.Proofs.Brackets

/-!
# Layouts and their braces

A layout knows its depth, a reader of its text only the braces in front of a line. Where each block
stands in braces and nothing else moves the depth (`Layout.InBraces`), the two agree: every line is
indented by the braces it stands in (`Layout.InBraces.indents`). The invariant is that the layout's
depth is the number of braces a reader has seen opened and not closed (`LaidOut` from `braces depth`
back to `braces depth`).
-/

namespace DispatchGen

open Text

namespace Text

/-! ## Lines indented by braces -/

/-- The braces a line stands in: those open in front of it, less the one it closes first. -/
def bracesAround (pending line : List Char) : Nat :=
  pending.count '\x7d' - if (unindent line).head? = some '\x7d' then 1 else 0

/-- Every line that is not empty is indented by the braces it stands in, where `pending` is what the
text in front of the lines leaves unclosed. -/
def IndentsByBraces (style : IndentStyle) (pending : List Char) (lines : List (List Char)) : Prop :=
  ∀ front line rest, lines = front ++ line :: rest → line ≠ [] →
    ∃ still, unclosed? pending front.flatten = some still ∧
      line = (style.margin (bracesAround still line)).toList ++ unindent line

/-- Lines indented by braces that go on from `before` and leave `after`. -/
structure LaidOut (style : IndentStyle) (before : List Char) (lines : List (List Char))
    (after : List Char) : Prop where
  indents : IndentsByBraces style before lines
  leaves : unclosed? before lines.flatten = some after

namespace LaidOut

variable {style : IndentStyle} {before between after : List Char} {a b : List (List Char)}

theorem nil (style : IndentStyle) (pending : List Char) : LaidOut style pending [] pending where
  indents := by simp [IndentsByBraces]
  leaves := rfl

theorem append (ha : LaidOut style before a between) (hb : LaidOut style between b after) :
    LaidOut style before (a ++ b) after where
  indents := by
    intro front line rest hsplit hne
    rcases List.append_eq_append_iff.1 hsplit with ⟨front', rfl, hrest⟩ | ⟨back, ha', hrest⟩
    · -- the line is one of `b`
      obtain ⟨still, hstill, hline⟩ := hb.indents front' line rest hrest hne
      refine ⟨still, ?_, hline⟩
      rw [List.flatten_append, unclosed?_append, ha.leaves, Option.bind_some, hstill]
    · cases back with
      | nil =>
        obtain ⟨still, hstill, hline⟩ := hb.indents [] line rest hrest.symm hne
        refine ⟨still, ?_, hline⟩
        rw [← ha'.trans (List.append_nil front), ha.leaves]
        exact hstill
      | cons line' back =>
        obtain ⟨rfl, -⟩ := List.cons.inj hrest
        exact ha.indents front line back ha' hne
  leaves := by rw [List.flatten_append, unclosed?_append, ha.leaves, Option.bind_some, hb.leaves]

/-- One flush line, indented by the braces it stands in. -/
theorem indentLine {depth : Nat} {text : String} (hf : Flush text.toList)
    (hd : bracesAround before text.toList = depth)
    (hu : unclosed? before text.toList = some after) :
    LaidOut style before [(style.indentLine depth text).toList] after where
  indents := by
    intro front line rest hsplit hne
    obtain ⟨rfl, rfl, -⟩ : front = [] ∧ (style.indentLine depth text).toList = line ∧
        rest = [] := by
      rw [List.singleton_eq_append_iff] at hsplit
      simpa [and_comm, and_left_comm, eq_comm] using hsplit
    have hbare : unindent (style.indentLine depth text).toList = text.toList := by
      rw [style.unindent_indentLine, hf.unindent_eq]
    have hdepth : bracesAround before (style.indentLine depth text).toList = depth := by
      rw [bracesAround, hbare, ← hf.unindent_eq]
      exact hd
    refine ⟨before, rfl, ?_⟩
    rw [hdepth, hbare, IndentStyle.indentLine] at *
    split at hne
    · next h => simp [String.isEmpty_iff.1 h] at hne
    · next h => rw [if_neg h, String.toList_append]
  leaves := by
    rw [List.flatten_singleton, ← unclosed?_marks, style.marks_indentLine, unclosed?_marks, hu]

end LaidOut

end Text

/-! ## Blocks in braces -/

mutual

/-- Every block stands in braces, the last character of its first line and the first of its last,
and nothing else changes the depth. -/
def Step.InBraces : Step → Prop
  | .line text => Bracketed text.toList ∧ text.toList.head? ≠ some '\x7d'
  | .blank => True
  | .indent => False
  | .dedent => False
  | .block opening body closing =>
    (∃ head, opening.toList = head ++ ['\x7b'] ∧ Bracketed head ∧ head.head? ≠ some '\x7d') ∧
      Layout.InBraces body ∧
        ∃ text tail, closing = some text ∧ text.toList = '\x7d' :: tail ∧ Bracketed tail

def Layout.InBraces : List Step → Prop
  | [] => True
  | step :: rest => step.InBraces ∧ Layout.InBraces rest

end

mutual

theorem Step.InBraces.nests {step : Step} (h : step.InBraces) : step.Nests := by
  match step with
  | .line text => exact h.1
  | .blank => trivial
  | .block opening body closing =>
    obtain ⟨⟨head, hopening, hhead, -⟩, hbody, text, tail, rfl, htext, htail⟩ := h
    refine ⟨?_, Layout.InBraces.nests hbody⟩
    rw [hopening, Option.getD_some, htext]
    exact encloses_pair rfl hhead htail

theorem Layout.InBraces.nests {layout : List Step} (h : Layout.InBraces layout) :
    Layout.Nests layout := by
  match layout with
  | [] => trivial
  | step :: rest => exact ⟨Step.InBraces.nests h.1, Layout.InBraces.nests h.2⟩

end

mutual

/-- The depth counts the open braces. -/
theorem Step.InBraces.depthAfter_eq {step : Step} (h : step.InBraces) (depth : Nat) :
    step.depthAfter depth = depth := by
  match step with
  | .line text => rfl
  | .blank => rfl
  | .block opening body closing =>
    obtain ⟨-, hbody, -⟩ := h
    rw [Step.depthAfter, Layout.InBraces.depthAfter_eq hbody, Nat.add_sub_cancel]

theorem Layout.InBraces.depthAfter_eq {layout : List Step} (h : Layout.InBraces layout)
    (depth : Nat) : Layout.depthAfter depth layout = depth := by
  match layout with
  | [] => rfl
  | step :: rest =>
    rw [Layout.depthAfter, Step.InBraces.depthAfter_eq h.1, Layout.InBraces.depthAfter_eq h.2]

end

/-- As many closing braces to come as there are levels. -/
def Text.braces (depth : Nat) : List Char :=
  List.replicate depth '\x7d'

theorem Text.bracesAround_braces {depth : Nat} {line : List Char} (hf : Flush line) :
    bracesAround (braces depth) line = depth - if line.head? = some '\x7d' then 1 else 0 := by
  rw [bracesAround, braces, List.count_replicate_self, hf.unindent_eq]

mutual

theorem Step.InBraces.laidOut {step : Step} (h : step.InBraces)
    (hf : ∀ text ∈ step.texts, Flush text.toList) (style : IndentStyle) (depth : Nat) :
    LaidOut style (braces depth) ((step.lines style depth).map String.toList) (braces depth) := by
  match step with
  | .line text =>
    have hflush := hf text List.mem_cons_self
    rw [Step.lines, style.indentText_eq_singleton depth hflush.newline_not_mem]
    refine .indentLine hflush ?_ (h.1.unclosed?_eq _)
    rw [bracesAround_braces hflush, if_neg h.2, Nat.sub_zero]
  | .blank =>
    have hflush : Flush "".toList := hf "" List.mem_cons_self
    have hblank : LaidOut style (braces depth) [(style.indentLine depth "").toList]
        (braces depth) := .indentLine hflush (bracesAround_braces hflush) rfl
    exact hblank
  | .block opening body closing =>
    obtain ⟨⟨head, hopening, hhead, hne⟩, hbody, text, tail, rfl, htext, htail⟩ := h
    simp only [Step.texts, List.cons_append, List.forall_mem_cons, List.forall_mem_append,
      Option.toList_some] at hf
    obtain ⟨hfopening, hfbody, hftext, -⟩ := hf
    have hfirst : LaidOut style (braces depth) [(style.indentLine depth opening).toList]
        (braces (depth + 1)) := by
      refine .indentLine hfopening ?_ ?_
      · have hhead? : opening.toList.head? ≠ some '\x7d' := by
          rw [hopening]
          cases head with
          | nil => simp
          | cons => exact hne
        rw [bracesAround_braces hfopening, if_neg hhead?, Nat.sub_zero]
      · rw [hopening, unclosed?_append, hhead.unclosed?_eq]
        rfl
    have hlast : LaidOut style (braces (depth + 1)) [(style.indentLine depth text).toList]
        (braces depth) := by
      refine .indentLine hftext ?_ ?_
      · rw [bracesAround_braces hftext, htext]
        rfl
      · rw [htext, unclosed?_cons]
        exact htail.unclosed?_eq _
    have hlines : ((Step.block opening body (some text)).lines style depth).map String.toList =
        [(style.indentLine depth opening).toList] ++
          (Layout.lines style (depth + 1) body).map String.toList ++
            [(style.indentLine depth text).toList] := by
      simp only [Step.lines, style.indentText_eq_singleton _ hfopening.newline_not_mem,
        style.indentText_eq_singleton _ hftext.newline_not_mem,
        Layout.InBraces.depthAfter_eq hbody, Nat.add_sub_cancel, List.map_append,
        List.map_singleton]
    rw [hlines]
    exact (hfirst.append (Layout.InBraces.laidOut hbody hfbody style (depth + 1))).append hlast

theorem Layout.InBraces.laidOut {layout : List Step} (h : Layout.InBraces layout)
    (hf : ∀ text ∈ Layout.texts layout, Flush text.toList) (style : IndentStyle) (depth : Nat) :
    LaidOut style (braces depth) ((Layout.lines style depth layout).map String.toList)
      (braces depth) := by
  match layout with
  | [] => exact .nil style _
  | step :: rest =>
    rw [Layout.texts, List.forall_mem_append] at hf
    rw [Layout.lines, List.map_append, Step.InBraces.depthAfter_eq h.1]
    exact (Step.InBraces.laidOut h.1 hf.1 style depth).append
      (Layout.InBraces.laidOut h.2 hf.2 style depth)

end

theorem Step.inBraces_line {text : String} (hb : Bracketed text.toList)
    (hne : text.toList.head? ≠ some '\x7d') : (Step.line text).InBraces :=
  ⟨hb, hne⟩

theorem Step.inBraces_of_isTypeToken {s : String} (h : isTypeToken s = true) :
    (Step.line s).InBraces := by
  refine inBraces_line (bracketed_iff.2 (unclosed?_of_isTypeToken h [])) fun hhead => ?_
  exact not_mem_of_isTypeToken h (by decide) (List.mem_of_mem_head? hhead)

theorem Layout.inBraces_singleton {step : Step} : Layout.InBraces [step] ↔ step.InBraces := by
  simp only [Layout.InBraces, and_true]

theorem Layout.inBraces_append {a b : Layout} :
    Layout.InBraces (a ++ b) ↔ Layout.InBraces a ∧ Layout.InBraces b := by
  induction a with
  | nil => simp [Layout.InBraces]
  | cons step a ih => simp only [List.cons_append, Layout.InBraces, ih, and_assoc]

theorem Layout.inBraces_flatMap {α : Type} {f : α → Layout} {xs : List α}
    (h : ∀ x ∈ xs, Layout.InBraces (f x)) : Layout.InBraces (xs.flatMap f) := by
  induction xs with
  | nil => trivial
  | cons x xs ih =>
    rw [List.forall_mem_cons] at h
    rw [List.flatMap_cons, Layout.inBraces_append]
    exact ⟨h.1, ih h.2⟩

theorem Step.inBraces_braced {head : String} {body : List Step} (hh : Bracketed head.toList)
    (hne : head.toList.head? ≠ some '\x7d') (hb : Layout.InBraces body) :
    (Step.braced head body).InBraces := by
  refine ⟨⟨head.toList ++ [' '], by simp, hh.append (by decide), ?_⟩, hb, _, [], rfl, rfl, .nil⟩
  cases hhead : head.toList with
  | nil => simp
  | cons c cs =>
    rw [hhead] at hne
    exact hne

/-! ## The whole text -/

namespace Layout

variable (style : IndentStyle)

/-- Every line is indented by the braces it stands in. -/
theorem InBraces.indents {layout : Layout} (h : InBraces layout)
    (hf : ∀ text ∈ texts layout, Flush text.toList) :
    IndentsByBraces style [] (splitAt '\n' (layout.text style 0).toList) := by
  have hempty : Flush "".toList := ⟨by decide, by simp⟩
  have hlast : LaidOut style (braces 0) [(style.indentLine 0 "").toList] (braces 0) :=
    .indentLine hempty rfl rfl
  rw [splitAt_text]
  exact ((h.laidOut hf style 0).append hlast).indents

end Layout

end DispatchGen
