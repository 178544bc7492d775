import DispatchGen.Source.Layout

/-!
# Writing a layout out

A writer takes a layout's steps one by one. It holds the output so far and a depth that steps raise
and lower; lines are put behind what is there, and a block writes its body between an indent and a
dedent of its own.

Depths and the lengths of margins are machine words, and no string has more than `Text.maxBytes`
bytes. A writer that is asked for more crashes, and so does the program; the result is then `none`.
Memory below these limits is taken to be there.
-/

namespace DispatchGen

/-- The greatest machine word. -/
def maxWord : Nat :=
  18446744073709551615

/-- The product of two machine words, unless it is none. -/
def checkedMul (a b : Nat) : Option Nat :=
  if a * b ≤ maxWord then some (a * b) else none

namespace Text

/-- The most bytes of a string. -/
def maxBytes : Nat :=
  9223372036854775807

/-- Copies of a character of one byte. -/
def repeat? (c : Char) (count : Nat) : Option String :=
  if count ≤ maxBytes then some (String.ofList (List.replicate count c)) else none

end Text

/-- Builds the margin of a depth. -/
def IndentStyle.margin? (style : IndentStyle) (depth : Nat) : Option String :=
  if style.tabs then Text.repeat? '\t' depth
  else (checkedMul depth style.size.toNat).bind (Text.repeat? ' ')

/-- What has been written, and the depth of the next line. -/
@[ext]
structure Writer where
  output : String := ""
  depth : Nat := 0
  output_le : output.utf8ByteSize ≤ Text.maxBytes := by decide
  depth_le : depth ≤ maxWord := by decide
deriving DecidableEq, Repr

namespace Writer

variable (style : IndentStyle) (w : Writer)

def push? (text : String) : Option Writer :=
  if h : (w.output ++ text).utf8ByteSize ≤ Text.maxBytes then
    some { w with output := w.output ++ text, output_le := h }
  else none

/-- Writes one line; an empty one gets no margin. -/
def put? (margin line : String) : Option Writer := do
  let w ← if line.isEmpty then some w else (← w.push? margin).push? line
  w.push? "\n"

/-- Every piece between newlines is a line of its own. All have one margin, which is built first. -/
def line? (text : String) : Option Writer := do
  let margin ← style.margin? w.depth
  (Text.lines text).foldlM (put? · margin) w

/-- Ends a block; some end where the next label begins. -/
def close? (closing : Option String) : Option Writer :=
  match closing with
  | some text => w.line? style text
  | none => some w

def blank? : Option Writer :=
  w.push? "\n"

def indent? : Option Writer :=
  if h : w.depth + 1 ≤ maxWord then some { w with depth := w.depth + 1, depth_le := h } else none

/-- Has no effect at depth zero. -/
def dedent : Writer :=
  { w with depth := w.depth - 1, depth_le := Nat.le_trans (Nat.sub_le w.depth 1) w.depth_le }

end Writer

mutual

def Writer.step? (style : IndentStyle) (w : Writer) : Step → Option Writer
  | .line text => w.line? style text
  | .blank => w.blank?
  | .indent => w.indent?
  | .dedent => some w.dedent
  | .block opening body closing => do
    let inside ← (← w.line? style opening).indent?
    (← inside.run? style body).dedent.close? style closing

def Writer.run? (style : IndentStyle) (w : Writer) : List Step → Option Writer
  | [] => some w
  | step :: rest => do (← w.step? style step).run? style rest

end

/-- Writes a layout out from nothing. -/
def Layout.write? (style : IndentStyle) (layout : Layout) : Option String :=
  (Writer.run? style {} layout).map (·.output)

end DispatchGen
