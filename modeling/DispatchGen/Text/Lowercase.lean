import DispatchGen.Text.CaseTable

/-!
# Lowercasing

`lowercase` maps every character to its small form by the Unicode default rule. Three things make it
more than a map from characters to characters: ASCII letters are moved by a fixed distance, the
dotted capital I becomes two characters, and a capital sigma is written in its final form at the end
of a word (`endsWord`). On ASCII text only the first matters (`lowercaseFrom_ascii`).
-/

namespace DispatchGen.Text

/-- Where a run moves a code point, if the point lies in it. -/
def CaseRun.move? (run : CaseRun) (point : Nat) : Option Nat :=
  if run.first ≤ point ∧ point ≤ run.last ∧ (point - run.first) % run.step = 0 then
    some (point + run.shift).toNat
  else
    none

/-- The small form of an ASCII character. -/
def asciiLower (c : Char) : Char :=
  if 'A' ≤ c ∧ c ≤ 'Z' then Char.ofNat (c.toNat + 32) else c

/-- The small form of a character on its own. -/
def lowerChar (c : Char) : List Char :=
  if c.toNat < 128 then
    [asciiLower c]
  else if c = '\u0130' then
    ['i', '\u0307']
  else
    [((caseRuns.findSome? (·.move? c.toNat)).map Char.ofNat).getD c]

def inRanges (ranges : List (Nat × Nat)) (c : Char) : Bool :=
  ranges.any fun (first, last) => first ≤ c.toNat && c.toNat ≤ last

/-- Characters that have case, those transparent to it left out. -/
def isCased (c : Char) : Bool :=
  inRanges casedRanges c

/-- Characters that are passed over when looking for the letter beside a sigma. -/
def isTransparent (c : Char) : Bool :=
  inRanges transparentRanges c

/-- The nearest character that is not transparent has case. -/
def nearestIsCased (cs : List Char) : Bool :=
  ((cs.dropWhile isTransparent).head?.map isCased).getD false

/-- A sigma between `before` (nearest first) and `after` ends a word. -/
def endsWord (before after : List Char) : Bool :=
  nearestIsCased before && !nearestIsCased after

/-- Lowercases the text that follows `before`, whose nearest character comes first. -/
def lowercaseFrom (before : List Char) : List Char → List Char
  | [] => []
  | c :: after =>
    (if c = 'Σ' then [if endsWord before after then 'ς' else 'σ'] else lowerChar c) ++
      lowercaseFrom (c :: before) after

/-- The text with every character in its small form. -/
def lowercase (s : String) : String :=
  String.ofList (lowercaseFrom [] s.toList)

/-! ## ASCII text -/

theorem lowerChar_ascii {c : Char} (h : c.toNat < 128) : lowerChar c = [asciiLower c] :=
  if_pos h

theorem lowercaseFrom_ascii (before : List Char) {cs : List Char} (h : ∀ c ∈ cs, c.toNat < 128) :
    lowercaseFrom before cs = cs.map asciiLower := by
  induction cs generalizing before with
  | nil => rfl
  | cons c cs ih =>
    have hc : c.toNat < 128 := h c (by simp)
    have hs : c ≠ 'Σ' := fun e => absurd hc (by subst e; decide)
    rw [lowercaseFrom, if_neg hs, lowerChar_ascii hc, ih _ fun d hd => h d (by simp [hd])]
    rfl

theorem toList_lowercase_ascii {s : String} (h : ∀ c ∈ s.toList, c.toNat < 128) :
    (lowercase s).toList = s.toList.map asciiLower := by
  rw [lowercase, String.toList_ofList, lowercaseFrom_ascii [] h]

end DispatchGen.Text
