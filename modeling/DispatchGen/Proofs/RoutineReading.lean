import DispatchGen.Proofs.RoutineLines

/-!
# A routine reads back

`Rust.read?_routine`: the text of a table's routine says what the table says, whatever the options
are. A line the reader looks for occurs at most once, and it is cut where it was put together, since
names and symbols hold none of the characters the reader stops at.
-/

namespace DispatchGen

open Text
open Routine

/-- What the routine's text says of an arm. -/
def Arm.inRoutine (arm : Arm) : RoutineArm where
  key := arm.key.toNat
  arity := arm.arity
  token := arm.token
  handler := arm.handler

/-- What the text of a table's routine says. -/
def Table.inRoutine (t : Table) : Routine where
  controls := t.controls.map fun control => control.ordinal.toNat
  multiplier := t.base.toNat
  arms := t.arms.map Arm.inRoutine

namespace Rust

variable {o : Options} {t : Table} {arm : Arm}

/-! ## Lines -/

theorem read?_armText (ha : arm.Spelled) :
    RoutineArm.read? o.symbols.iteratePrefix (armText o arm).toList = some arm.inRoutine := by
  have htail : armTail o arm = ",".toList ∨ ", // ".toList <+: armTail o arm := by
    unfold armTail
    split
    · exact .inr (List.prefix_append _ _)
    · exact .inl rfl
  have htoken : '(' ∉ arm.token.toList ++ ['>'] := by
    simpa using not_mem_of_isTypeToken ha.token (by decide)
  have hhandler : ')' ∉ arm.handler.toList := not_mem_of_isTypeToken ha.handler (by decide)
  rw [toList_armText, RoutineArm.read?, number?_append _ (by simp)]
  simp only [Option.bind_eq_bind, Option.bind_some, after?_append]
  rw [number?_append _ (by simp)]
  simp only [Option.bind_some, after?_append, before?_append htoken, before?_append hhandler,
    List.getLast?_concat, List.dropLast_concat, String.ofList_toList, htail, and_self, if_true,
    Arm.inRoutine]

theorem multiplier?_keyText (base : UInt32) :
    multiplier? (keyText base).toList = some base.toNat := by
  rw [toList_keyText, multiplier?, after?_append]
  simp only [Option.bind_eq_bind, Option.bind_some]
  rw [number?_append _ (by simp)]
  rfl

/-- Without its blanks, a list of alternatives is its numbers between bars. -/
theorem filter_intercalate_bar (numbers : List Nat) :
    (" | ".intercalate (numbers.map toString)).toList.filter (· ≠ ' ') =
      joinWith '|' (numbers.map fun n => (toString n).toList) := by
  have hdigits : ∀ n : Nat, (toString n).toList.filter (· ≠ ' ') = (toString n).toList := fun n =>
    List.filter_eq_self.2 fun c hc => by
      simpa using fun e : c = ' ' => not_mem_toString (n := n) (c := ' ') (by decide) (e ▸ hc)
  have hbar : " | ".toList.filter (· ≠ ' ') = ['|'] := by decide
  rw [String.toList_intercalate, List.map_map]
  induction numbers with
  | nil => rfl
  | cons n numbers ih =>
    cases numbers with
    | nil => simpa [joinWith] using hdigits n
    | cons m numbers =>
      simp only [List.map_cons, List.intercalate_cons_cons, List.filter_append] at ih ⊢
      rw [ih, Function.comp, hdigits, hbar, List.append_assoc]
      simp only [joinWith, List.singleton_append]

theorem controls?_append {numbers : List Nat} (hne : numbers ≠ []) :
    controls? ("if matches!(opcode, ".toList ++
      ((" | ".intercalate (numbers.map toString)).toList ++ ')' :: " \x7b".toList)) =
        some numbers := by
  have hstop : ')' ∉ (" | ".intercalate (numbers.map toString)).toList :=
    not_mem_bars (by decide) (by decide)
  have hbar : ∀ piece ∈ numbers.map fun n => (toString n).toList, '|' ∉ piece :=
    List.forall_mem_map.2 fun n _ => not_mem_toString (by decide)
  have hread : (numbers.map fun n => (toString n).toList).mapM wholeNumber? =
      some (numbers.map id) :=
    mapM_eq_pure_of_forall fun n _ => wholeNumber?_toString n
  rw [controls?, after?_append]
  simp only [Option.bind_eq_bind, Option.bind_some, before?_append hstop, if_true]
  rw [filter_intercalate_bar, splitAt_joinWith (by simpa using hne) hbar, hread, List.map_id]

/-! ## Looking for lines -/

theorem filter_eq_nil_of_aside {texts : List String} (h : ∀ text ∈ texts, Aside text.toList) :
    (texts.map String.toList).filter testsControls = [] ∧
      (texts.map String.toList).filter makesKey = [] := by
  rw [List.filter_eq_nil_iff, List.filter_eq_nil_iff, List.forall_mem_map, List.forall_mem_map]
  exact ⟨fun text ht => Bool.eq_false_iff.1 (h text ht).not_controls,
    fun text ht => Bool.eq_false_iff.1 (h text ht).not_key⟩

theorem filter_controls (ht : t.Spelled) :
    ((Layout.texts (Rust.controls o t.controls)).map String.toList).filter testsControls =
        (if t.controls.isEmpty then [] else [(controlsText t.controls).toList]) ∧
      ((Layout.texts (Rust.controls o t.controls)).map String.toList).filter makesKey = [] := by
  have hlead : ∀ text ∈ if o.comments then [namesText t.controls] else [], Aside text.toList := by
    split
    · simpa using aside_namesText ht.controls
    · simp
  have htest : testsControls (controlsText t.controls).toList = true ∧
      makesKey (controlsText t.controls).toList = false := by
    rw [toList_controlsText]
    simp [testsControls, makesKey, List.isPrefixOf_cons_cons]
  have hrest : ∀ text ∈ ["continue;", "\x7d"], Aside text.toList := by
    simp [aside_cons]
  obtain ⟨hlead₁, hlead₂⟩ := filter_eq_nil_of_aside hlead
  obtain ⟨hrest₁, hrest₂⟩ := filter_eq_nil_of_aside hrest
  rw [texts_controls]
  split
  · exact ⟨rfl, rfl⟩
  · rw [List.map_append, List.filter_append, List.filter_append, hlead₁, hlead₂, List.map_cons,
      List.filter_cons_of_pos htest.1, List.filter_cons_of_neg (by simp [htest.2]), hrest₁, hrest₂]
    exact ⟨rfl, rfl⟩

theorem filter_front (hs : o.symbols.Spelled) (ht : t.Spelled) :
    ((front o t).map String.toList).filter testsControls =
        (if t.controls.isEmpty then [] else [(controlsText t.controls).toList]) ∧
      ((front o t).map String.toList).filter makesKey = [(keyText t.base).toList] := by
  obtain ⟨hopening₁, hopening₂⟩ := filter_eq_nil_of_aside (aside_opening hs)
  obtain ⟨hcontrols₁, hcontrols₂⟩ := filter_controls (o := o) ht
  obtain ⟨helement₁, helement₂⟩ := filter_eq_nil_of_aside (aside_elementTexts hs)
  have hkey : testsControls (keyText t.base).toList = false ∧
      makesKey (keyText t.base).toList = true := by
    rw [toList_keyText]
    simp [testsControls, makesKey, List.isPrefixOf_cons_cons]
  simp only [front, List.map_append, List.filter_append, hopening₁, hopening₂, hcontrols₁,
    hcontrols₂, helement₁, helement₂, List.map_singleton, List.filter_singleton, hkey]
  simp

/-- The arms stand between the lines that open and end the match. -/
theorem armLines_append {before arms after : List (List Char)} {first last : List Char}
    (hbefore : ∀ line ∈ before, opensMatch line = false) (hfirst : opensMatch first = true)
    (harms : ∀ line ∈ arms, endsMatch line = false) (hlast : endsMatch last = true) :
    armLines (before ++ first :: (arms ++ last :: after)) = arms := by
  rw [armLines, List.dropWhile_append_of_pos fun line h => by rw [hbefore line h]; rfl,
    List.dropWhile_cons_of_neg (by simp [hfirst]), List.tail_cons,
    List.takeWhile_append_of_pos fun line h => by rw [harms line h]; rfl,
    List.takeWhile_cons_of_neg (by simp [hlast]), List.append_nil]

theorem opensMatch_of_mem_front : ∀ text ∈ front o t, opensMatch text.toList = false := by
  have hcontrols : ∀ text ∈ Layout.texts (Rust.controls o t.controls),
      opensMatch text.toList = false := by
    refine forall_mem_controls ?_ ?_ (by decide) (by decide)
    · unfold namesText
      simp [opensMatch]
    · rw [toList_controlsText]
      simp [opensMatch]
  simp only [front, List.forall_mem_append]
  refine ⟨⟨⟨?_, hcontrols⟩, ?_⟩, ?_⟩
  · simp [opening, opensMatch]
  · simp [elementTexts, opensMatch]
  · simp [toList_keyText, opensMatch]

theorem armLines_routine :
    armLines ((front o t).map String.toList ++
      "match key \x7b".toList :: (back o t).map String.toList ++ [[]]) =
        t.arms.map fun arm => (armText o arm).toList := by
  have hbefore : ∀ line ∈ (front o t).map String.toList, opensMatch line = false :=
    List.forall_mem_map.2 opensMatch_of_mem_front
  have harms : ∀ line ∈ t.arms.map fun arm => (armText o arm).toList, endsMatch line = false := by
    refine List.forall_mem_map.2 fun arm _ => ?_
    rw [toList_armText]
    exact isPrefixOf_toString_append (by decide) _ _ _
  have hlast : endsMatch (s!"_ => {refuse o},").toList = true := by
    simp [endsMatch]
  have hback : (back o t).map String.toList ++ [[]] =
      (t.arms.map fun arm => (armText o arm).toList) ++ (s!"_ => {refuse o},").toList ::
        (["\x7d", "\x7d", o.symbols.successStatus, "\x7d"].map String.toList ++ [[]]) := by
    rw [back, closing, List.map_append, List.map_map, List.append_assoc]
    rfl
  rw [List.append_assoc, List.cons_append, hback]
  exact armLines_append hbefore (by decide) harms hlast

/-! ## The text -/

theorem read?_routine (hs : o.symbols.Spelled) (ht : t.Spelled) (style : IndentStyle)
    (depth : Nat) :
    read? o.symbols.iteratePrefix ((routine o t).text style depth) = some t.inRoutine := by
  obtain ⟨hfront₁, hfront₂⟩ := filter_front hs ht
  obtain ⟨hback₁, hback₂⟩ := filter_eq_nil_of_aside (aside_back hs ht)
  have hlines := bareLines_routine hs ht style depth
  have hcontrols : (bareLines ((routine o t).text style depth)).filter testsControls =
      if t.controls.isEmpty then [] else [(controlsText t.controls).toList] := by
    rw [hlines, List.filter_append, List.filter_append, hfront₁,
      List.filter_cons_of_neg (by decide), hback₁, List.append_nil]
    exact List.append_nil _
  have hkey : (bareLines ((routine o t).text style depth)).filter makesKey =
      [(keyText t.base).toList] := by
    rw [hlines, List.filter_append, List.filter_append, hfront₂,
      List.filter_cons_of_neg (by decide), hback₂]
    rfl
  have harms : armLines (bareLines ((routine o t).text style depth)) =
      t.arms.map fun arm => (armText o arm).toList := by
    rw [hlines]
    exact armLines_routine
  have hread : (t.arms.map fun arm => (armText o arm).toList).mapM
      (RoutineArm.read? o.symbols.iteratePrefix) = some (t.arms.map Arm.inRoutine) :=
    mapM_eq_pure_of_forall fun arm h => read?_armText (ht.arms arm h)
  simp only [read?, hcontrols, hkey, harms, hread, multiplier?_keyText, Table.inRoutine]
  cases t.controls with
  | nil => rfl
  | cons control controls =>
    have hne : (control :: controls).map (fun control => control.ordinal.toNat) ≠ [] := by simp
    rw [List.isEmpty_cons, if_neg Bool.false_ne_true]
    simp only [toList_controlsText, controls?_append hne]
    rfl

end Rust

end DispatchGen
