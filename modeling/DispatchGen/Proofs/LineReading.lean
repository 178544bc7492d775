import DispatchGen.Proofs.BareLines
import Mathlib.Data.List.Basic

/-!
# Reading generated source

A reader takes a line apart from left to right: what starts with a given text (`Text.after?`), what
stands in front of a character (`Text.before?`), a decimal number (`Text.number?`). Each reads back
what was put together that way and leaves the rest of the line.
-/

namespace DispatchGen

namespace Text

/-- What follows `lead` in a text that starts with it. -/
def after? (lead : String) (text : List Char) : Option (List Char) :=
  text.dropPrefix? lead.toList

/-- The text up to the first `stop`, and what follows it. -/
def before? (stop : Char) : List Char → Option (List Char × List Char)
  | [] => none
  | c :: cs =>
    if c = stop then some ([], cs)
    else (before? stop cs).map fun (front, rest) => (c :: front, rest)

/-- The decimal number in front of a text, and what follows its last digit. -/
def number? (text : List Char) : Option (Nat × List Char) :=
  let digits := text.takeWhile Char.isDigit
  if digits.isEmpty then none
  else some (Nat.ofDigitChars 10 digits 0, text.dropWhile Char.isDigit)

/-- The decimal number that is all of a text. -/
def wholeNumber? (text : List Char) : Option Nat :=
  match number? text with
  | some (n, []) => some n
  | _ => none

theorem after?_append (lead : String) (rest : List Char) :
    after? lead (lead.toList ++ rest) = some rest :=
  List.dropPrefix?_append_of_beq rest (beq_self_eq_true _)

theorem before?_append {stop : Char} {front : List Char} (h : stop ∉ front) (rest : List Char) :
    before? stop (front ++ stop :: rest) = some (front, rest) := by
  induction front with
  | nil => rw [List.nil_append, before?, if_pos rfl]
  | cons c front ih =>
    rw [List.mem_cons, not_or] at h
    rw [List.cons_append, before?, if_neg (Ne.symm h.1), ih h.2]
    rfl

theorem before?_eq_none {stop : Char} {text : List Char} (h : stop ∉ text) :
    before? stop text = none := by
  induction text with
  | nil => rfl
  | cons c text ih =>
    rw [List.mem_cons, not_or] at h
    rw [before?, if_neg (Ne.symm h.1), ih h.2]
    rfl

theorem number?_append (n : Nat) {rest : List Char} (h : ∀ c ∈ rest.head?, c.isDigit = false) :
    number? ((toString n).toList ++ rest) = some (n, rest) := by
  have hd : ∀ c ∈ Nat.toDigits 10 n, c.isDigit = true := fun c hc =>
    Nat.isDigit_of_mem_toDigits (by decide) (by decide) hc
  have ht : rest.takeWhile Char.isDigit = [] ∧ rest.dropWhile Char.isDigit = rest := by
    cases rest with
    | nil => exact ⟨rfl, rfl⟩
    | cons c rest => simp [h c rfl]
  have hne : (Nat.toDigits 10 n).isEmpty = false := by simp
  rw [number?, Nat.toString_eq_repr, Nat.toList_repr, List.takeWhile_append_of_pos hd, ht.1,
    List.append_nil, List.dropWhile_append_of_pos hd, ht.2, hne, Nat.ofDigitChars_ten_toDigits]
  rfl

theorem wholeNumber?_toString (n : Nat) : wholeNumber? (toString n).toList = some n := by
  have h : number? ((toString n).toList ++ []) = some (n, []) := number?_append n (by simp)
  rw [List.append_nil] at h
  rw [wholeNumber?, h]

/-! ## Reading down the lines -/

/-- The lines behind the first one that reads `line`. -/
def behind (line : String) (lines : List (List Char)) : List (List Char) :=
  (lines.dropWhile (· != line.toList)).tail

theorem behind_append {line : String} {front : List (List Char)} (h : line.toList ∉ front)
    (rest : List (List Char)) : behind line (front ++ line.toList :: rest) = rest := by
  have hfront : ∀ l ∈ front, (l != line.toList) = true := fun l hl =>
    bne_iff_ne.2 fun e => h (e ▸ hl)
  rw [behind, List.dropWhile_append_of_pos hfront, List.dropWhile_cons_of_neg (by simp),
    List.tail_cons]

end Text

end DispatchGen
