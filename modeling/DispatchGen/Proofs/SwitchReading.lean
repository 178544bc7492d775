import DispatchGen.Proofs.Emission
import DispatchGen.Proofs.SwitchLines
import DispatchGen.Proofs.SwitchReader
import DispatchGen.Source.Artifact

/-!
# A switch reads back

`Cpp.read?_routine`: the text of a table's C++ routine says what the table says in the style of its
labels, whatever the options are otherwise. Tables with the same text therefore agree on the base, on
the control opcodes and on the arms, as far as labels of that style tell
(`Options.routine_determines_table`).
-/

namespace DispatchGen

open Text

/-! ## What is said of a table -/

/-- The label of a control opcode. -/
def ControlEntry.inSwitch (style : KeyStyle) (control : ControlEntry) : CaseLabel :=
  match style with
  | .literal => .number control.ordinal.toNat
  | .symbolic => .name control.name

/-- What a switch says of an arm. -/
def Arm.inSwitch (style : KeyStyle) (base : UInt32) (arm : Arm) : SwitchArm where
  label :=
    match style with
    | .literal => .number arm.key.toNat
    | .symbolic => .sum arm.opcode base.toNat arm.element
  arity := arm.arity
  token := arm.token
  handler := arm.handler

/-- What the switches of a table's routine say. -/
def Table.inSwitch (style : KeyStyle) (t : Table) : Switch where
  controls := t.controls.map (·.inSwitch style)
  multiplier := t.base.toNat
  arms := t.arms.map (·.inSwitch style t.base)

/-! ## Labels -/

namespace CaseLabel

variable {o : Options}

theorem number?_append (n : Nat) (comment : String) :
    number? ((toString n).toList ++ Cpp.labelTail o comment) = some (.number n) := by
  have htail : Cpp.labelTail o comment = ":".toList ∨
      ": // ".toList <+: Cpp.labelTail o comment := by
    unfold Cpp.labelTail
    split
    · exact .inr (List.prefix_append _ _)
    · exact .inl rfl
  have hhead : ∀ c ∈ (Cpp.labelTail o comment).head?, c.isDigit = false := by
    unfold Cpp.labelTail
    split <;> simp
  rw [number?, Text.number?_append n hhead]
  simp only [Option.bind_eq_bind, Option.bind_some, htail, if_true]

theorem names?_name {name : String} (h : '*' ∉ name.toList) :
    names? (name.toList ++ [':']) = some (.name name) := by
  rw [names?, List.getLast?_concat, if_pos rfl, List.dropLast_concat, before?_eq_none h]
  simp only [String.ofList_toList]

theorem names?_sum {opcode : String} (h : '*' ∉ opcode.toList) (n : Nat) (element : String) :
    names? ((opcode.toList ++ '*' :: ((toString n).toList ++ ("+".toList ++ element.toList))) ++
      [':']) = some (.sum opcode n element) := by
  rw [names?, List.getLast?_concat, if_pos rfl, List.dropLast_concat, before?_append h]
  simp only [Option.bind_eq_bind]
  rw [Text.number?_append n (by simp)]
  simp only [Option.bind_some, after?_append, String.ofList_toList]

end CaseLabel

namespace Cpp

variable {o : Options} {t : Table} {arm : Arm}

theorem read?_controlLabel {control : ControlEntry} (hc : isTypeToken control.name = true) :
    CaseLabel.read? o.keyStyle (controlLabel o control).toList =
      some (control.inSwitch o.keyStyle) := by
  rw [controlLabel, toList_label, CaseLabel.read?, after?_append]
  cases o.keyStyle with
  | literal =>
    simp only [toString_uint32, CaseLabel.number?_append, Option.bind_eq_bind, Option.bind_some]
    rfl
  | symbolic => exact CaseLabel.names?_name (not_mem_of_isTypeToken hc (by decide))

theorem read?_armLabel (base : UInt32) (ha : arm.Spelled) :
    CaseLabel.read? o.keyStyle (armLabel o base arm).toList =
      some (arm.inSwitch o.keyStyle base).label := by
  rw [armLabel, toList_label, toList_sum, CaseLabel.read?, after?_append]
  cases o.keyStyle with
  | literal =>
    simp only [toString_uint64, CaseLabel.number?_append, Option.bind_eq_bind, Option.bind_some]
    rfl
  | symbolic =>
    exact CaseLabel.names?_sum (not_mem_of_isTypeToken ha.opcode (by decide)) base.toNat arm.element

/-! ## Arms -/

theorem read?_arm (base : UInt32) (ha : arm.Spelled) :
    SwitchArm.read? o.symbols.iteratePrefix o.keyStyle (armLabel o base arm).toList
      (callText o arm).toList = some (arm.inSwitch o.keyStyle base) := by
  have htoken : '(' ∉ arm.token.toList ++ ['>'] := by
    simpa using not_mem_of_isTypeToken ha.token (by decide)
  have hhandler : ')' ∉ arm.handler.toList := not_mem_of_isTypeToken ha.handler (by decide)
  rw [SwitchArm.read?, read?_armLabel base ha, toList_callText]
  simp only [Option.bind_eq_bind, Option.bind_some, after?_append]
  rw [number?_append _ (by simp)]
  simp only [Option.bind_some, after?_append, before?_append htoken, before?_append hhandler,
    List.getLast?_concat, List.dropLast_concat, String.ofList_toList, and_self, if_true]
  rfl

theorem arms?_armTexts (base : UInt32) {arms : List Arm} (ha : ∀ arm ∈ arms, arm.Spelled)
    (rest : List (List Char)) :
    Switch.arms? o.symbols.iteratePrefix o.keyStyle
      ((arms.flatMap (armTexts o base) ++ closing o).map String.toList ++ rest) =
        some (arms.map (·.inSwitch o.keyStyle base)) := by
  induction arms with
  | nil => rfl
  | cons arm arms ih =>
    have hlabel : (armLabel o base arm).toList ≠ [] := by
      rw [armLabel, toList_label]
      simp
    rw [List.forall_mem_cons] at ha
    change Switch.arms? _ _ ((armLabel o base arm).toList :: (callText o arm).toList ::
      "break;".toList :: ((arms.flatMap (armTexts o base) ++ closing o).map String.toList ++ rest)) =
        _
    rw [Switch.arms?, if_neg hlabel, if_pos rfl, read?_arm base ha.1, ih ha.2]
    rfl

/-! ## Looking for lines -/

theorem multiplier?_keyText (base : UInt32) :
    Switch.multiplier? (keyText base).toList = some base.toNat := by
  rw [toList_keyText, Switch.multiplier?, after?_append]
  simp only [Option.bind_eq_bind, Option.bind_some]
  rw [number?_append _ (by simp)]
  rfl

theorem isCase_controlLabel (control : ControlEntry) :
    Switch.isCase (controlLabel o control).toList = true := by
  rw [controlLabel, toList_label, Switch.isCase, List.isPrefixOf_iff_prefix]
  exact List.prefix_append _ _

/-- The lines behind the one that opens the outer switch. -/
theorem behind_opening (lines : List (List Char)) :
    behind "switch (instr->opcode) \x7b" ((opening o).map String.toList ++
      "switch (instr->opcode) \x7b".toList :: lines) = lines := by
  have hopening : ∀ text ∈ opening o, 'u' ∈ text.toList := by simp [opening]
  refine behind_append (fun h => ?_) lines
  obtain ⟨text, ht, e⟩ := List.mem_map.1 h
  have hu := hopening text ht
  rw [e] at hu
  exact absurd hu (by decide +kernel)

theorem takeWhile_labels (controls : List ControlEntry) {next : List Char}
    (hn : Switch.isCase next = false) (lines : List (List Char)) :
    ((controls.map fun control => (controlLabel o control).toList) ++ next :: lines).takeWhile
      Switch.isCase = controls.map fun control => (controlLabel o control).toList := by
  have hcases : ∀ line ∈ controls.map fun control => (controlLabel o control).toList,
      Switch.isCase line = true :=
    List.forall_mem_map.2 fun control _ => isCase_controlLabel control
  rw [List.takeWhile_append_of_pos hcases, List.takeWhile_cons_of_neg (by simp [hn]),
    List.append_nil]

/-- The labels of the control opcodes are the cases on top. -/
theorem takeWhile_cases (lines : List (List Char)) :
    ((controlTexts o t.controls).map String.toList ++ "default: \x7b".toList :: lines).takeWhile
      Switch.isCase = t.controls.map fun control => (controlLabel o control).toList := by
  unfold controlTexts
  split
  · next h =>
    rw [List.isEmpty_iff.1 h]
    rfl
  · rw [List.map_append, List.map_map, List.append_assoc]
    exact takeWhile_labels t.controls (by decide) _

theorem behind_controls (lines : List (List Char)) :
    behind "default: \x7b" ((controlTexts o t.controls).map String.toList ++
      "default: \x7b".toList :: lines) = lines := by
  refine behind_append (fun h => ?_) lines
  obtain ⟨text, ht, e⟩ := List.mem_map.1 h
  unfold controlTexts at ht
  split at ht
  · simp at ht
  · rcases List.mem_append.1 ht with ht | ht
    · obtain ⟨control, -, rfl⟩ := List.mem_map.1 ht
      have hcase := isCase_controlLabel (o := o) control
      rw [e] at hcase
      exact absurd hcase (by decide)
    · simp only [List.mem_cons, List.not_mem_nil, or_false] at ht
      rcases ht with rfl | rfl
      · exact absurd e (by decide)
      · exact absurd e (by decide)

theorem behind_keyText (base : UInt32) (lines : List (List Char)) :
    behind "switch (key) \x7b" ((keyText base).toList :: "switch (key) \x7b".toList :: lines) =
      lines := by
  have hkey : "switch (key) \x7b".toList ∉ [(keyText base).toList] := by
    rw [toList_keyText]
    simp
  exact behind_append hkey lines

/-! ## The text -/

theorem read?_routine (hs : o.symbols.Spelled) (ht : t.Spelled) (style : IndentStyle)
    (depth : Nat) :
    Switch.read? o.symbols.iteratePrefix o.keyStyle ((routine o t).text style depth) =
      some (t.inSwitch o.keyStyle) := by
  have hcontrols : (t.controls.map fun control => (controlLabel o control).toList).mapM
      (CaseLabel.read? o.keyStyle) = some (t.controls.map (·.inSwitch o.keyStyle)) :=
    mapM_eq_pure_of_forall fun control h => read?_controlLabel (ht.controls control h)
  have harms := arms?_armTexts (o := o) t.base ht.arms [[]]
  rw [Switch.read?, bareLines_routine hs ht style depth, behind_opening]
  simp only [cases, List.map_append, List.map_cons, List.append_assoc, List.cons_append] at harms ⊢
  rw [takeWhile_cases, hcontrols, behind_controls, behind_keyText, harms]
  simp only [Option.bind_eq_bind, Option.bind_some, List.head?_cons, multiplier?_keyText]
  rfl

end Cpp

/-! ## Tables with one text -/

/-- Lists that agree in one function agree in any other that it decides. -/
theorem map_eq_map_of_imp {α β γ : Type} {f f' : α → β} {g : α → γ}
    (h : ∀ x y, f x = f' y → g x = g y) {xs ys : List α} (he : xs.map f = ys.map f') :
    xs.map g = ys.map g := by
  rw [← List.forall₂_eq_eq_eq, List.forall₂_map_left_iff, List.forall₂_map_right_iff] at he ⊢
  exact he.imp h

/-- Two tables agree in everything that the switches of a routine say of them. -/
def Table.AgreesIn (style : KeyStyle) (t t' : Table) : Prop :=
  t.base = t'.base ∧
    match style with
    | .literal =>
      t.controls.map (·.ordinal) = t'.controls.map (·.ordinal) ∧
        t.arms.map (fun arm => (arm.key, arm.arity, arm.token, arm.handler)) =
          t'.arms.map fun arm => (arm.key, arm.arity, arm.token, arm.handler)
    | .symbolic =>
      t.controls.map (·.name) = t'.controls.map (·.name) ∧
        t.arms.map (fun arm => (arm.opcode, arm.element, arm.arity, arm.token, arm.handler)) =
          t'.arms.map fun arm => (arm.opcode, arm.element, arm.arity, arm.token, arm.handler)

theorem Table.agreesIn_of_inSwitch_eq {style : KeyStyle} {t t' : Table}
    (h : t.inSwitch style = t'.inSwitch style) : t.AgreesIn style t' := by
  simp only [inSwitch, Switch.mk.injEq, UInt32.toNat_inj] at h
  obtain ⟨hcontrols, hbase, harms⟩ := h
  refine ⟨hbase, ?_⟩
  cases style with
  | literal =>
    refine ⟨map_eq_map_of_imp (fun a b e => ?_) hcontrols,
      map_eq_map_of_imp (fun a b e => ?_) harms⟩
    · simpa [ControlEntry.inSwitch, UInt32.toNat_inj] using e
    · simpa [Arm.inSwitch, UInt64.toNat_inj] using e
  | symbolic =>
    refine ⟨map_eq_map_of_imp (fun a b e => ?_) hcontrols,
      map_eq_map_of_imp (fun a b e => ?_) harms⟩
    · simpa [ControlEntry.inSwitch] using e
    · simp only [Arm.inSwitch, SwitchArm.mk.injEq, CaseLabel.sum.injEq] at e
      simp [e]

/-- The text of a C++ routine tells which table it is of, as far as the style of its labels does. -/
theorem Options.routine_determines_table {decl decl' : CatalogDecl} {c c' : Catalog} {t t' : Table}
    {o : Options} {depth : Nat} (hb : decl.build = .ok c) (hb' : decl'.build = .ok c')
    (ht : c.emitTable = .ok t) (ht' : c'.emitTable = .ok t') (htarget : o.target = .cpp)
    (ho : o.validate = .ok ())
    (htext : (o.routine t).text o.indent depth = (o.routine t').text o.indent depth) :
    t.AgreesIn o.keyStyle t' := by
  have hs := Options.spelled_of_validate ho
  have hc := CatalogDecl.valid_of_build hb
  have hc' := CatalogDecl.valid_of_build hb'
  obtain rfl : c.table = t := Except.ok.inj (hc.emitTable_eq.symm.trans ht)
  obtain rfl : c'.table = t' := Except.ok.inj (hc'.emitTable_eq.symm.trans ht')
  simp only [routine, htarget] at htext
  have hread := Cpp.read?_routine hs hc.spelled_table o.indent depth
  rw [htext, Cpp.read?_routine hs hc'.spelled_table o.indent depth] at hread
  exact Table.agreesIn_of_inSwitch_eq (Option.some.inj hread).symm

/-- Tables of catalogs that differ in the name alone have one text. -/
theorem Options.routine_determines_table_renamed :
    let renamed : CatalogDecl := { CatalogDecl.addMul with name := "renamed" }
    let c : Catalog := { Catalog.addMul with name := "renamed" }
    let o : Options := { Options.ofTarget .cpp with keyStyle := .symbolic, indent := { size := 0 } }
    CatalogDecl.addMul.build = .ok Catalog.addMul ∧ renamed.build = .ok c ∧ o.validate = .ok () ∧
      ∃ t t', Catalog.addMul.emitTable = .ok t ∧ c.emitTable = .ok t' ∧ t ≠ t' ∧
        (o.routine t).text o.indent = (o.routine t').text o.indent ∧ t.AgreesIn .symbolic t' := by
  intro renamed c o
  have hb : renamed.build = .ok c := by decide +kernel
  have ht : Catalog.addMul.emitTable = .ok Catalog.addMul.table := by decide +kernel
  have ht' : c.emitTable = .ok c.table := by decide +kernel
  have ho : o.validate = .ok () := by decide +kernel
  have htext : (o.routine Catalog.addMul.table).text o.indent = (o.routine c.table).text o.indent :=
    rfl
  exact ⟨build_addMul, hb, ho, _, _, ht, ht', by decide, htext,
    routine_determines_table build_addMul hb ht ht' rfl ho htext⟩

end DispatchGen
