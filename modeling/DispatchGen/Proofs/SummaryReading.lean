import DispatchGen.CommandLine.Commands
import DispatchGen.Proofs.LineReading
import DispatchGen.Proofs.Spelling

/-!
# Reading a summary back

`Counts.read?` recovers the counts from the summary of a catalog. It goes through the lines from the
last one upwards, since the name on top may itself hold newlines and look like further lines.
`CommandLine.read?_summary`: for an accepted catalog it reads what was counted.
-/

namespace DispatchGen

namespace Text

/-- What stands behind `label` in the last line that starts with it. -/
def lastBehind? (label text : String) : Option (List Char) :=
  ((splitAt '\n' text.toList).filterMap (after? label)).getLast?

end Text

open Text

/-- The counts in a summary that belong to the arms. -/
structure Counts where
  dispatchable : Nat
  numeric : Nat
  arms : Nat
deriving DecidableEq, Repr

/-- The counts in the text of a summary. -/
def Counts.read? (text : String) : Option Counts := do
  let types ← lastBehind? "  types:    " text
  let (_, types) ← number? types
  let types ← after? " (" types
  let (dispatchable, _) ← number? types
  let opcodes ← lastBehind? "  opcodes:  " text
  let (numeric, _) ← number? opcodes
  let arms ← lastBehind? "  arms:     " text
  let arms ← wholeNumber? arms
  return { dispatchable, numeric, arms }

namespace CommandLine

variable {c : Catalog}

/-! ## The lines of a summary -/

theorem toList_typesLine (types : TypeCatalog) : (typesLine types).toList =
    "  types:    ".toList ++ ((toString types.types.length).toList ++ (" (".toList ++
      ((toString types.dispatchable.length).toList ++ (" dispatchable, ".toList ++
        ((toString types.excluded.length).toList ++ " excluded)".toList))))) := by
  unfold typesLine
  simp only [toString_string, String.toList_append, List.append_assoc]

theorem toList_opcodesLine (opcodes : OpcodeCatalog) : (opcodesLine opcodes).toList =
    "  opcodes:  ".toList ++ ((toString opcodes.numeric.length).toList ++ (" numeric, ".toList ++
      ((toString opcodes.controls.length).toList ++ " control".toList))) := by
  unfold opcodesLine
  simp only [toString_string, String.toList_append, List.append_assoc]

theorem toList_excludedLine (type : ElementType) : (excludedLine type).toList =
    "            excluded: ".toList ++ type.name.toList := by
  unfold excludedLine
  simp only [toString_string, String.toList_append]

theorem toList_groupLine (group : OpcodeGroup) : (groupLine group).toList =
    "            arity ".toList ++ ((toString group.arity.count).toList ++ (": ".toList ++
      ((toString group.opcodes.length).toList ++ " opcodes".toList))) := by
  unfold groupLine
  simp only [toString_string, String.toList_append, List.append_assoc]

theorem newline_not_mem_number (n : Nat) : '\n' ∉ (toString n).toList :=
  not_mem_toString (by decide)

theorem newline_not_mem_countLines (h : c.Valid) (t : Table) :
    ∀ line ∈ countLines c t, '\n' ∉ line.toList := by
  have hname (type : ElementType) (ht : type ∈ c.types.excluded) : '\n' ∉ type.name.toList := by
    have hid := h.types.names type (List.mem_filter.1 ht).1
    exact not_mem_of_isTypeToken (isTypeToken_of_isIdentifier hid) (by decide)
  have hlabel : ∀ label ∈ ["  types:    ", " (", " dispatchable, ", " excluded)",
      "            excluded: ", "  opcodes:  ", " numeric, ", " control",
      "            arity ", ": ", " opcodes", "  base:     ", "  arms:     "],
      '\n' ∉ label.toList := by
    decide
  simp only [List.forall_mem_cons] at hlabel
  simp only [countLines, List.forall_mem_append, List.forall_mem_cons, List.forall_mem_map]
  simp only [toList_typesLine, toList_excludedLine, toList_opcodesLine, toList_groupLine,
    toString_string, toString_uint32, String.toList_append, List.mem_append,
    newline_not_mem_number, hlabel, or_self, not_false_eq_true, true_and, implies_true, false_or]
  exact ⟨⟨hname, trivial⟩, List.forall_mem_nil _⟩

/-- Behind the name, which may itself hold newlines, stand the lines with counts. -/
theorem splitAt_summary (h : c.Valid) (t : Table) : splitAt '\n' (summary c t).toList =
    splitAt '\n' (s!"Catalog '{c.name}' is valid").toList ++
      ((countLines c t).map String.toList ++ [[]]) := by
  have hlines : (summary c t).toList = (s!"Catalog '{c.name}' is valid").toList ++
      '\n' :: (ofLines (countLines c t)).toList := by
    simp [summary, ofLines, String.toList_join]
  rw [hlines, splitAt_append_sep, splitAt_ofLines (newline_not_mem_countLines h t)]

/-! ## The counts -/

/-- Lines of excluded types and of groups have no label of their own, so a label is looked for in the
other four. -/
theorem lastBehind?_summary (h : c.Valid) {t : Table} {label : String} {rest : List Char}
    (hempty : after? label [] = none)
    (hexcluded : ∀ type, after? label (excludedLine type).toList = none)
    (hgroup : ∀ group, after? label (groupLine group).toList = none)
    (hlines : [(typesLine c.types).toList, (opcodesLine c.opcodes).toList,
      "  base:     ".toList ++ (toString c.scheme.base).toList,
      "  arms:     ".toList ++ (toString t.arms.length).toList].filterMap (after? label) = [rest]) :
    lastBehind? label (summary c t) = some rest := by
  have hexclusions :
      ((c.types.excluded.map excludedLine).map String.toList).filterMap (after? label) = [] := by
    rw [List.map_map, List.filterMap_eq_nil_iff]
    exact List.forall_mem_map.2 fun type _ => hexcluded type
  have hgroups :
      ((c.opcodes.groups.map groupLine).map String.toList).filterMap (after? label) = [] := by
    rw [List.map_map, List.filterMap_eq_nil_iff]
    exact List.forall_mem_map.2 fun group _ => hgroup group
  have hcounts : ((countLines c t).map String.toList).filterMap (after? label) = [rest] := by
    rw [← hlines]
    simp only [countLines, List.map_append, List.map_cons, List.map_nil, List.filterMap_append,
      List.filterMap_cons, hexclusions, hgroups, toString_string, String.toList_append]
    cases after? label (typesLine c.types).toList <;>
      cases after? label (opcodesLine c.opcodes).toList <;> rfl
  rw [lastBehind?, splitAt_summary h, List.filterMap_append, List.filterMap_append, hcounts,
    List.filterMap_cons_none hempty, List.filterMap_nil, List.append_nil, List.getLast?_append,
    List.getLast?_singleton, Option.some_or]

theorem lastBehind?_types (h : c.Valid) (t : Table) :
    lastBehind? "  types:    " (summary c t) =
      some ((toString c.types.types.length).toList ++ (" (".toList ++
        ((toString c.types.dispatchable.length).toList ++ (" dispatchable, ".toList ++
          ((toString c.types.excluded.length).toList ++ " excluded)".toList))))) := by
  refine lastBehind?_summary h rfl (fun type => ?_) (fun group => ?_) ?_
  · rw [toList_excludedLine]
    rfl
  · rw [toList_groupLine]
    rfl
  · rw [toList_typesLine, toList_opcodesLine, List.filterMap_cons_some (after?_append _ _)]
    rfl

theorem lastBehind?_opcodes (h : c.Valid) (t : Table) :
    lastBehind? "  opcodes:  " (summary c t) =
      some ((toString c.opcodes.numeric.length).toList ++ (" numeric, ".toList ++
        ((toString c.opcodes.controls.length).toList ++ " control".toList))) := by
  refine lastBehind?_summary h rfl (fun type => ?_) (fun group => ?_) ?_
  · rw [toList_excludedLine]
    rfl
  · rw [toList_groupLine]
    rfl
  · rw [toList_typesLine, toList_opcodesLine, List.filterMap_cons_none rfl,
      List.filterMap_cons_some (after?_append _ _)]
    rfl

theorem lastBehind?_arms (h : c.Valid) (t : Table) :
    lastBehind? "  arms:     " (summary c t) = some (toString t.arms.length).toList := by
  refine lastBehind?_summary h rfl (fun type => ?_) (fun group => ?_) ?_
  · rw [toList_excludedLine]
    rfl
  · rw [toList_groupLine]
    rfl
  · rw [toList_typesLine, toList_opcodesLine, List.filterMap_cons_none rfl,
      List.filterMap_cons_none rfl, List.filterMap_cons_none rfl,
      List.filterMap_cons_some (after?_append _ _)]
    rfl

/-- The counts of a catalog and its table are read back from their summary. -/
theorem read?_summary (h : c.Valid) (t : Table) : Counts.read? (summary c t) =
    some {
      dispatchable := c.types.dispatchable.length
      numeric := c.opcodes.numeric.length
      arms := t.arms.length } := by
  rw [Counts.read?, lastBehind?_types h, lastBehind?_opcodes h, lastBehind?_arms h]
  simp (disch := simp) only [Option.bind_eq_bind, Option.bind_some, number?_append, after?_append,
    wholeNumber?_toString]
  rfl

end CommandLine

end DispatchGen
