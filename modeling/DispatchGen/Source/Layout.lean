import DispatchGen.Text.Lines

/-!
# Laying out lines

Generated source is whole lines only. A layout is a list of steps: lines, blank lines, changes of
depth, and blocks, which lay their body out one level deeper. `Layout.lines` gives the lines of a
layout that starts at some depth and `Layout.depthAfter` the depth it ends at; text is indented as a
matter of the style alone, and empty lines never are.

These are the lines as long as there is room for them. A writer has limits
(`DispatchGen.Source.Writer`), past which it writes nothing at all.
-/

namespace DispatchGen

/-- What one level of indentation is: `size` spaces, or one tab. -/
structure IndentStyle where
  size : UInt64 := 4
  tabs : Bool := false
deriving DecidableEq, Repr

namespace IndentStyle

variable (style : IndentStyle)

/-- The spaces in front of a line at the given depth. This is the product of machine words, which
starts over at 2^64. -/
def width (depth : Nat) : UInt64 :=
  .ofNat depth * style.size

/-- The blanks in front of a line at the given depth. -/
def margin (depth : Nat) : String :=
  if style.tabs then String.ofList (List.replicate depth '\t')
  else String.ofList (List.replicate (style.width depth).toNat ' ')

/-- The line at the given depth; an empty line stays empty. -/
def indentLine (depth : Nat) (line : String) : String :=
  if line.isEmpty then line else style.margin depth ++ line

/-- The lines of a text, each at the given depth. -/
def indentText (depth : Nat) (text : String) : List String :=
  (Text.lines text).map (style.indentLine depth)

end IndentStyle

/-- One step of a layout. A block closes at the depth it opened at, unless its body moved the depth
on balance; a block without `closing` ends where the next label begins. -/
inductive Step where
  | line (text : String)
  | blank
  | indent
  | dedent
  | block (opening : String) (body : List Step) (closing : Option String)
deriving Repr

/-- A block in braces behind `head`. -/
def Step.braced (head : String) (body : List Step) : Step :=
  .block (head ++ " \x7b") body (some "\x7d")

abbrev Layout := List Step

mutual

/-- The depth after a step; a dedent stops at zero. -/
def Step.depthAfter (depth : Nat) : Step → Nat
  | .line _ => depth
  | .blank => depth
  | .indent => depth + 1
  | .dedent => depth - 1
  | .block _ body _ => Layout.depthAfter (depth + 1) body - 1

/-- The depth after all steps of a layout. -/
def Layout.depthAfter (depth : Nat) : List Step → Nat
  | [] => depth
  | step :: rest => Layout.depthAfter (step.depthAfter depth) rest

end

mutual

/-- The lines of a step that starts at the given depth. -/
def Step.lines (style : IndentStyle) (depth : Nat) : Step → List String
  | .line text => style.indentText depth text
  | .blank => [""]
  | .indent => []
  | .dedent => []
  | .block opening body closing =>
    style.indentText depth opening ++ Layout.lines style (depth + 1) body ++
      match closing with
      | some text => style.indentText (Layout.depthAfter (depth + 1) body - 1) text
      | none => []

/-- The lines of a layout that starts at the given depth. -/
def Layout.lines (style : IndentStyle) (depth : Nat) : List Step → List String
  | [] => []
  | step :: rest => step.lines style depth ++ Layout.lines style (step.depthAfter depth) rest

end

theorem Step.lines_block (style : IndentStyle) (depth : Nat) (opening : String) (body : List Step)
    (closing : Option String) :
    (Step.block opening body closing).lines style depth =
      style.indentText depth opening ++ Layout.lines style (depth + 1) body ++
        closing.toList.flatMap (style.indentText (Layout.depthAfter (depth + 1) body - 1)) := by
  cases closing with
  | none => simp [Step.lines]
  | some text => simp [Step.lines]

/-- Ends each line with a newline. -/
def Text.ofLines (lines : List String) : String :=
  String.join (lines.map (· ++ "\n"))

theorem Text.ofLines_append (a b : List String) : ofLines (a ++ b) = ofLines a ++ ofLines b := by
  rw [ofLines, List.map_append, String.join_append, ofLines, ofLines]

theorem Text.ofLines_cons (line : String) (lines : List String) :
    ofLines (line :: lines) = line ++ "\n" ++ ofLines lines := by
  rw [ofLines, List.map_cons, String.join_cons, ofLines]

/-- The text of a layout. -/
def Layout.text (style : IndentStyle) (layout : Layout) (depth : Nat := 0) : String :=
  Text.ofLines (Layout.lines style depth layout)

namespace Layout

theorem depthAfter_append (depth : Nat) (a b : Layout) :
    depthAfter depth (a ++ b) = depthAfter (depthAfter depth a) b := by
  induction a generalizing depth with
  | nil => simp [depthAfter]
  | cons s a ih => simp [depthAfter, ih]

theorem lines_append (style : IndentStyle) (depth : Nat) (a b : Layout) :
    lines style depth (a ++ b) = lines style depth a ++ lines style (depthAfter depth a) b := by
  induction a generalizing depth with
  | nil => simp [lines, depthAfter]
  | cons s a ih => simp [lines, depthAfter, ih]

end Layout

end DispatchGen
