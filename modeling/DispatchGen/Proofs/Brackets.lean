import DispatchGen.Proofs.Spelling

/-!
# Brackets

`Text.Bracketed` is the grammar of texts in which round, square and curly brackets match as nested
pairs. `Text.unclosed?` reads a text from left to right and keeps the closing brackets still to
come; it accepts exactly the texts of the grammar (`Text.bracketed_iff`). A layout whose lines are
bracketed one by one, and whose blocks stand between ends that match (`Layout.Nests`), has a bracketed text at
any depth (`Layout.Nests.text`), since margins and newlines are no brackets.
-/

namespace DispatchGen

namespace Text

/-- What closes an opening bracket. -/
def closer? : Char → Option Char
  | '\x7b' => some '\x7d'
  | '(' => some ')'
  | '[' => some ']'
  | _ => none

def isCloser (c : Char) : Bool :=
  c == '\x7d' || c == ')' || c == ']'

def isBracket (c : Char) : Bool :=
  (closer? c).isSome || isCloser c

theorem isBracket_iff {c : Char} :
    isBracket c = true ↔ c ∈ ['\x7b', '(', '[', '\x7d', ')', ']'] := by
  unfold isBracket isCloser closer?
  split <;> simp_all [or_assoc]

theorem isBracket_of_isTokenChar {c : Char} (h : isTokenChar c = true) : isBracket c = false := by
  have hmarks : ['\x7b', '(', '[', '\x7d', ')', ']'].all (!isTokenChar ·) = true := by decide
  refine Bool.eq_false_iff.2 fun hb => ?_
  have hc : (!isTokenChar c) = true := List.all_eq_true.1 hmarks c (isBracket_iff.1 hb)
  simp [h] at hc

theorem isBracket_of_isBlank {c : Char} (h : isBlank c = true) : isBracket c = false := by
  rcases isBlank_eq_true_iff.1 h with rfl | rfl
  · rfl
  · rfl

/-- Every bracket has its partner, and pairs do not cross. -/
inductive Bracketed : List Char → Prop
  | nil : Bracketed []
  | other {c : Char} {rest : List Char} (hc : isBracket c = false) (hr : Bracketed rest) :
      Bracketed (c :: rest)
  | pair {c d : Char} {inner rest : List Char} (hc : closer? c = some d) (hi : Bracketed inner)
      (hr : Bracketed rest) : Bracketed (c :: (inner ++ d :: rest))

/-- Reads one character. The closing brackets still to come are kept with the next one first. -/
def readBracket (pending : List Char) (c : Char) : Option (List Char) :=
  match closer? c with
  | some d => some (d :: pending)
  | none =>
    if isCloser c then
      if pending.head? = some c then some pending.tail else none
    else some pending

/-- The closing brackets still to come behind a text, if those in it were all due. -/
def unclosed? (pending text : List Char) : Option (List Char) :=
  text.foldlM readBracket pending

/-! ## Reading brackets -/

@[simp]
theorem unclosed?_nil (pending : List Char) : unclosed? pending [] = some pending :=
  rfl

@[simp]
theorem unclosed?_cons (pending : List Char) (c : Char) (text : List Char) :
    unclosed? pending (c :: text) = (readBracket pending c).bind fun p => unclosed? p text :=
  rfl

@[simp]
theorem unclosed?_append (pending front back : List Char) :
    unclosed? pending (front ++ back) =
      (unclosed? pending front).bind fun p => unclosed? p back := by
  simp [unclosed?]

theorem readBracket_opener {c d : Char} (h : closer? c = some d) (pending : List Char) :
    readBracket pending c = some (d :: pending) := by
  rw [readBracket, h]

/-- What closes a bracket is a closing bracket and no opening one. -/
theorem isCloser_of_closer? {c d : Char} (h : closer? c = some d) :
    isCloser d = true ∧ closer? d = none := by
  unfold closer? at h
  split at h <;> cases h <;> decide

theorem readBracket_closer {c d : Char} (h : closer? c = some d) (pending : List Char) :
    readBracket (d :: pending) d = some pending := by
  obtain ⟨hd, hnone⟩ := isCloser_of_closer? h
  simp [readBracket, hd, hnone]

theorem readBracket_other {c : Char} (h : isBracket c = false) (pending : List Char) :
    readBracket pending c = some pending := by
  rw [isBracket, Bool.or_eq_false_iff, Option.isSome_eq_false_iff, Option.isNone_iff_eq_none] at h
  rw [readBracket, h.1, h.2]
  rfl

/-- The brackets in a text. -/
def marks (text : List Char) : List Char :=
  text.filter isBracket

theorem marks_append (front back : List Char) : marks (front ++ back) = marks front ++ marks back :=
  List.filter_append ..

theorem marks_eq_nil {text : List Char} (h : ∀ c ∈ text, isBracket c = false) : marks text = [] :=
  List.filter_eq_nil_iff.2 (by simpa using h)

/-- The reader sees brackets only. -/
theorem unclosed?_marks (pending text : List Char) :
    unclosed? pending (marks text) = unclosed? pending text := by
  induction text generalizing pending with
  | nil => rfl
  | cons c text ih =>
    rw [marks] at ih ⊢
    cases hc : isBracket c with
    | true => simp only [List.filter_cons_of_pos hc, unclosed?_cons, ih]
    | false =>
      rw [List.filter_cons_of_neg (by simp [hc]), unclosed?_cons, readBracket_other hc,
        Option.bind_some, ih]

theorem unclosed?_of_forall {text : List Char} (h : ∀ c ∈ text, isBracket c = false)
    (pending : List Char) : unclosed? pending text = some pending := by
  rw [← unclosed?_marks, marks_eq_nil h, unclosed?_nil]

/-! ## The reader and the grammar -/

theorem Bracketed.unclosed?_eq {text : List Char} (h : Bracketed text) (pending : List Char) :
    unclosed? pending text = some pending := by
  induction h generalizing pending with
  | nil => rfl
  | other hc _ ih => rw [unclosed?_cons, readBracket_other hc, Option.bind_some, ih]
  | pair hc _ _ ihi ihr =>
    rw [unclosed?_cons, readBracket_opener hc, Option.bind_some, unclosed?_append, ihi,
      Option.bind_some, unclosed?_cons, readBracket_closer hc, Option.bind_some, ihr]

/-- A bracket that is due is closed behind a text in which all brackets match. -/
theorem exists_bracketed_of_unclosed? {d : Char} {pending text : List Char}
    (h : unclosed? (d :: pending) text = some []) :
    ∃ inner rest, text = inner ++ d :: rest ∧ Bracketed inner ∧
      unclosed? pending rest = some [] := by
  match text with
  | [] => simp [unclosed?_nil] at h
  | c :: text =>
    rw [unclosed?_cons] at h
    cases hc : closer? c with
    | some e =>
      -- the pair that `c` opens comes first, and `d` is closed behind it
      rw [readBracket_opener hc, Option.bind_some] at h
      obtain ⟨inner, rest, htext, hinner, h⟩ := exists_bracketed_of_unclosed? h
      have hlength : rest.length < text.length := by simp [htext]; omega
      obtain ⟨inner', rest', rfl, hinner', h⟩ := exists_bracketed_of_unclosed? h
      exact ⟨c :: (inner ++ e :: inner'), rest', by simp [htext], .pair hc hinner hinner', h⟩
    | none =>
      cases hcloser : isCloser c with
      | true =>
        rw [readBracket, hc, hcloser] at h
        by_cases hd : d = c
        · subst hd
          exact ⟨[], text, rfl, .nil, by simpa using h⟩
        · simp [hd] at h
      | false =>
        have hother : isBracket c = false := by simp [isBracket, hc, hcloser]
        rw [readBracket_other hother, Option.bind_some] at h
        obtain ⟨inner, rest, rfl, hinner, h⟩ := exists_bracketed_of_unclosed? h
        exact ⟨c :: inner, rest, rfl, .other hother hinner, h⟩
termination_by text.length

theorem bracketed_of_unclosed? {text : List Char} (h : unclosed? [] text = some []) :
    Bracketed text := by
  match text with
  | [] => exact .nil
  | c :: text =>
    rw [unclosed?_cons] at h
    cases hc : closer? c with
    | some e =>
      rw [readBracket_opener hc, Option.bind_some] at h
      obtain ⟨inner, rest, htext, hinner, h⟩ := exists_bracketed_of_unclosed? h
      have hlength : rest.length < text.length := by simp [htext]; omega
      rw [htext]
      exact .pair hc hinner (bracketed_of_unclosed? h)
    | none =>
      cases hcloser : isCloser c with
      | true => simp [readBracket, hc, hcloser] at h
      | false =>
        have hother : isBracket c = false := by simp [isBracket, hc, hcloser]
        rw [readBracket_other hother, Option.bind_some] at h
        exact .other hother (bracketed_of_unclosed? h)
termination_by text.length

theorem bracketed_iff {text : List Char} : Bracketed text ↔ unclosed? [] text = some [] :=
  ⟨fun h => h.unclosed?_eq [], bracketed_of_unclosed?⟩

instance (text : List Char) : Decidable (Bracketed text) :=
  decidable_of_iff _ bracketed_iff.symm

example : Bracketed "f(a[0]) \x7b g(); \x7d".toList ∧ ¬ Bracketed "f(a[0)]".toList := by
  decide

theorem Bracketed.append {a b : List Char} (ha : Bracketed a) (hb : Bracketed b) :
    Bracketed (a ++ b) := by
  rw [bracketed_iff, unclosed?_append, ha.unclosed?_eq, Option.bind_some, hb.unclosed?_eq]

/-- Nothing but the brackets of a text matters. -/
theorem bracketed_congr {a b : List Char} (h : marks a = marks b) : Bracketed a ↔ Bracketed b := by
  rw [bracketed_iff, bracketed_iff, ← unclosed?_marks [] a, h, unclosed?_marks]

/-! ## Names and numbers -/

theorem isBracket_of_isTypeToken {s : String} (h : isTypeToken s = true) :
    ∀ c ∈ s.toList, isBracket c = false := by
  rw [isTypeToken, Bool.and_eq_true, List.all_eq_true] at h
  exact fun c hc => isBracket_of_isTokenChar (h.2 c hc)

theorem isBracket_of_mem_toString {n : Nat} : ∀ c ∈ (toString n).toList, isBracket c = false :=
  fun _ hc => isBracket_of_isTokenChar (isTokenChar_of_mem_toString hc)

theorem unclosed?_of_isTypeToken {s : String} (h : isTypeToken s = true) (pending : List Char) :
    unclosed? pending s.toList = some pending :=
  unclosed?_of_forall (isBracket_of_isTypeToken h) pending

@[simp]
theorem unclosed?_toString (n : Nat) (pending : List Char) :
    unclosed? pending (toString n).toList = some pending :=
  unclosed?_of_forall isBracket_of_mem_toString pending

/-! ## Lines -/

theorem flatten_splitAt (sep : Char) (text : List Char) :
    (splitAt sep text).flatten = text.filter (· ≠ sep) := by
  induction text with
  | nil => rfl
  | cons c text ih =>
    rw [splitAt]
    split
    · next h => simp [h, ih]
    · next h =>
      cases hs : splitAt sep text with
      | nil => exact absurd hs (splitAt_ne_nil sep text)
      | cons piece pieces => simpa [hs, h] using ih

/-- The brackets in lines, one line after the other. -/
def lineMarks (lines : List String) : List Char :=
  lines.flatMap fun line => marks line.toList

theorem lineMarks_cons (line : String) (lines : List String) :
    lineMarks (line :: lines) = marks line.toList ++ lineMarks lines :=
  List.flatMap_cons

theorem lineMarks_append (a b : List String) : lineMarks (a ++ b) = lineMarks a ++ lineMarks b :=
  List.flatMap_append

theorem marks_marks (text : List Char) : marks (marks text) = marks text :=
  List.filter_eq_self.2 fun _ hc => (List.mem_filter.1 hc).2

theorem marks_lineMarks (lines : List String) : marks (lineMarks lines) = lineMarks lines := by
  induction lines with
  | nil => rfl
  | cons line lines ih => rw [lineMarks_cons, marks_append, marks_marks, ih]

/-- Cutting a text into lines loses no bracket. -/
theorem lineMarks_lines (text : String) : lineMarks (lines text) = marks text.toList := by
  have hflatten : marks (splitAt '\n' text.toList).flatten = lineMarks (lines text) := by
    rw [marks, List.filter_flatten, lineMarks, lines, List.flatMap_map, List.flatMap_def]
    simp only [String.toList_ofList]
    rfl
  rw [← hflatten, flatten_splitAt, marks, marks, List.filter_filter]
  refine List.filter_congr fun c _ => ?_
  cases hc : isBracket c with
  | false => rfl
  | true =>
    rw [Bool.true_and, decide_eq_true_iff]
    rintro rfl
    cases hc

theorem marks_ofLines (lines : List String) : marks (ofLines lines).toList = lineMarks lines := by
  induction lines with
  | nil => rfl
  | cons line lines ih =>
    have hcons : (ofLines (line :: lines)).toList =
        line.toList ++ ("\n".toList ++ (ofLines lines).toList) := by
      simp [ofLines, String.toList_join]
    have hnewline : marks "\n".toList = [] := by decide
    rw [hcons, marks_append, marks_append, hnewline, List.nil_append, ih, lineMarks_cons]

end Text

open Text

namespace IndentStyle

variable (style : IndentStyle)

theorem marks_margin (depth : Nat) : marks (style.margin depth).toList = [] :=
  marks_eq_nil fun _ hc => isBracket_of_isBlank (style.isBlank_of_mem_margin hc)

theorem marks_indentLine (depth : Nat) (line : String) :
    marks (style.indentLine depth line).toList = marks line.toList := by
  rw [indentLine]
  split
  · rfl
  · rw [String.toList_append, marks_append, marks_margin, List.nil_append]

theorem lineMarks_indentText (depth : Nat) (text : String) :
    lineMarks (style.indentText depth text) = marks text.toList := by
  rw [indentText, lineMarks, List.flatMap_map, ← lineMarks_lines, lineMarks]
  simp only [marks_indentLine]

end IndentStyle

/-! ## Layouts -/

/-- What the text in front leaves open, the text behind closes. -/
def Encloses (front back : List Char) : Prop :=
  ∀ inner, Bracketed inner → Bracketed (front ++ inner ++ back)

theorem encloses_nil {front : List Char} (h : Bracketed front) : Encloses front [] := by
  intro inner hi
  rw [List.append_nil]
  exact h.append hi

theorem encloses_pair {c d : Char} (hc : closer? c = some d) {head tail : List Char}
    (hh : Bracketed head) (ht : Bracketed tail) : Encloses (head ++ [c]) (d :: tail) := by
  intro inner hi
  rw [List.append_assoc, List.append_assoc]
  exact hh.append (.pair hc hi ht)

mutual

/-- Brackets match within each line of a step, or from one end of a block to the other. -/
def Step.Nests : Step → Prop
  | .line text => Bracketed text.toList
  | .blank => True
  | .indent => True
  | .dedent => True
  | .block opening body closing =>
    Encloses opening.toList (closing.getD "").toList ∧ Layout.Nests body

def Layout.Nests : List Step → Prop
  | [] => True
  | step :: rest => step.Nests ∧ Layout.Nests rest

end

theorem Step.nests_braced {head : String} {body : List Step} (hh : Bracketed head.toList)
    (hb : Layout.Nests body) : (Step.braced head body).Nests := by
  refine ⟨?_, hb⟩
  have hopening : (head ++ " \x7b").toList = (head.toList ++ [' ']) ++ ['\x7b'] := by simp
  rw [hopening]
  exact encloses_pair (d := '\x7d') rfl (hh.append (by decide)) .nil

mutual

theorem Step.Nests.lines {step : Step} (h : step.Nests) (style : IndentStyle) (depth : Nat) :
    Bracketed (lineMarks (step.lines style depth)) := by
  match step with
  | .line text =>
    rw [Step.lines, style.lineMarks_indentText, bracketed_congr (marks_marks _)]
    exact h
  | .blank => exact .nil
  | .indent => exact .nil
  | .dedent => exact .nil
  | .block opening body closing =>
    obtain ⟨hends, hbody⟩ := h
    have hlines : lineMarks ((Step.block opening body closing).lines style depth) =
        marks opening.toList ++ lineMarks (Layout.lines style (depth + 1) body) ++
          marks (closing.getD "").toList := by
      cases closing with
      | none => simp only [Step.lines, lineMarks_append, style.lineMarks_indentText]; rfl
      | some text => simp only [Step.lines, lineMarks_append, style.lineMarks_indentText,
          Option.getD_some]
    rw [hlines]
    refine (bracketed_congr ?_).1 (hends _ (Layout.Nests.lines hbody style (depth + 1)))
    simp only [marks_append, marks_marks]

theorem Layout.Nests.lines {layout : List Step} (h : Layout.Nests layout) (style : IndentStyle)
    (depth : Nat) : Bracketed (lineMarks (Layout.lines style depth layout)) := by
  match layout with
  | [] => exact .nil
  | step :: rest =>
    rw [Layout.lines, lineMarks_append]
    exact (Step.Nests.lines h.1 style depth).append (Layout.Nests.lines h.2 style _)

end

namespace Layout

/-- At any depth and in any style, the brackets of the whole text match. -/
theorem Nests.text {layout : Layout} (h : Nests layout) (style : IndentStyle) (depth : Nat) :
    Bracketed (layout.text style depth).toList := by
  refine (bracketed_congr ?_).1 (h.lines style depth)
  rw [marks_lineMarks, Layout.text, marks_ofLines]

theorem nests_append {a b : Layout} : Nests (a ++ b) ↔ Nests a ∧ Nests b := by
  induction a with
  | nil => simp [Nests]
  | cons step a ih => simp only [List.cons_append, Nests, ih, and_assoc]

theorem nests_flatMap {α : Type} {f : α → Layout} {xs : List α} (h : ∀ x ∈ xs, Nests (f x)) :
    Nests (xs.flatMap f) := by
  induction xs with
  | nil => simp [Nests]
  | cons x xs ih =>
    rw [List.forall_mem_cons] at h
    rw [List.flatMap_cons, nests_append]
    exact ⟨h.1, ih h.2⟩

end Layout

end DispatchGen
