import DispatchGen.Proofs.RoutineLines
import DispatchGen.Proofs.StubLines
import DispatchGen.Proofs.SwitchLines

/-!
# Ends of lines

Margins stand in front of a line, so no line of a layout ends in a blank unless one of its texts
does (`Layout.endsClean_text`). The texts of stubs and routines do not: behind each blank that they
are made with, there is a mark or a name, and names are not empty. Only a comment that lists the
control opcodes could end in one, and it is left out where there are none
(`Rust.endsClean_controls`).
-/

namespace DispatchGen

open Text

/-- A line does not end in a blank. -/
def Text.EndsClean (line : List Char) : Prop :=
  ∀ c ∈ line.getLast?, isBlank c = false

namespace Text

@[simp]
theorem endsClean_nil : EndsClean [] := by
  simp [EndsClean]

@[simp]
theorem endsClean_singleton {c : Char} : EndsClean [c] ↔ isBlank c = false := by
  simp [EndsClean]

@[simp]
theorem endsClean_append {front back : List Char} (hne : back ≠ []) :
    EndsClean (front ++ back) ↔ EndsClean back := by
  rw [EndsClean, EndsClean, List.getLast?_append_of_ne_nil _ hne]

@[simp]
theorem endsClean_cons {c : Char} {rest : List Char} (hne : rest ≠ []) :
    EndsClean (c :: rest) ↔ EndsClean rest := by
  rw [← List.singleton_append, endsClean_append hne]

theorem endsClean_append_of_isTypeToken {s : String} (h : isTypeToken s = true)
    (front : List Char) : EndsClean (front ++ s.toList) := by
  have hne : s.toList ≠ [] := fun hnil => by simp [isTypeToken, hnil] at h
  rw [endsClean_append hne]
  refine fun c hc => Bool.eq_false_iff.2 fun hb => ?_
  have hmem : c ∈ s.toList := List.mem_of_mem_getLast? hc
  rcases isBlank_eq_true_iff.1 hb with rfl | rfl
  · exact not_mem_of_isTypeToken h (by decide) hmem
  · exact not_mem_of_isTypeToken h (by decide) hmem

end Text

theorem IndentStyle.endsClean_indentLine (style : IndentStyle) (depth : Nat) {line : String}
    (h : EndsClean line.toList) : EndsClean (style.indentLine depth line).toList := by
  rw [indentLine]
  split
  · exact h
  · next hne =>
    rw [String.isEmpty_iff, ← String.toList_eq_nil_iff] at hne
    rwa [String.toList_append, endsClean_append hne]

/-- A joined list ends as one of its texts does. -/
theorem Text.exists_intercalate_eq_append (sep : String) {texts : List String} (hne : texts ≠ []) :
    ∃ front, ∃ last ∈ texts, (sep.intercalate texts).toList = front ++ last.toList := by
  rw [String.toList_intercalate]
  induction texts with
  | nil => exact absurd rfl hne
  | cons text texts ih =>
    cases texts with
    | nil => exact ⟨[], text, List.mem_cons_self, by simp⟩
    | cons next texts =>
      obtain ⟨front, last, hlast, h⟩ := ih (List.cons_ne_nil next texts)
      refine ⟨text.toList ++ sep.toList ++ front, last, List.mem_cons_of_mem text hlast, ?_⟩
      rw [List.map_cons, List.map_cons, List.intercalate_cons_cons, ← List.map_cons, h]
      simp only [List.append_assoc]

/-! ## Layouts -/

namespace Layout

variable {layout : Layout} (style : IndentStyle) (depth : Nat)

theorem endsClean_text (hf : ∀ text ∈ texts layout, Flush text.toList)
    (hc : ∀ text ∈ texts layout, EndsClean text.toList) :
    ∀ line ∈ splitAt '\n' (layout.text style depth).toList, EndsClean line := by
  have hlines : ∀ line ∈ lines style depth layout, EndsClean line.toList := by
    refine forall_mem_lines (fun text htext depth line hline => ?_) depth
    rw [style.indentText_eq_singleton depth (hf text htext).newline_not_mem,
      List.mem_singleton] at hline
    rw [hline]
    exact style.endsClean_indentLine depth (hc text htext)
  rw [splitAt_text, List.forall_mem_append, List.forall_mem_map]
  exact ⟨hlines, by simp [EndsClean]⟩

theorem lines_ne_nil (h : texts layout ≠ []) : lines style depth layout ≠ [] := by
  intro hnil
  obtain ⟨text, rest, htexts⟩ := List.exists_cons_of_ne_nil h
  have hbare : bareLines text ++ rest.flatMap bareLines = [] := by
    rw [← List.flatMap_cons, ← htexts, ← map_unindent_lines style depth layout, hnil, List.map_nil]
  rw [bareLines, List.append_eq_nil_iff, List.map_eq_nil_iff] at hbare
  exact splitAt_ne_nil _ _ hbare.1

theorem getLast?_text (h : texts layout ≠ []) :
    (layout.text style depth).toList.getLast? = some '\n' := by
  obtain ⟨front, line, hlines⟩ : ∃ front line, lines style depth layout = front ++ [line] :=
    ⟨_, _, (List.dropLast_concat_getLast (lines_ne_nil style depth h)).symm⟩
  have htext : (layout.text style depth).toList =
      ((ofLines front).toList ++ line.toList) ++ ['\n'] := by
    rw [text, hlines]
    simp [ofLines, String.toList_join]
  rw [htext, List.getLast?_concat]

end Layout

/-! ## Rust -/

namespace Rust

variable {o : Options} {t : Table} {arm : Arm} {stub : Stub}

theorem endsClean_controls {controls : List ControlEntry}
    (hc : ∀ control ∈ controls, isTypeToken control.name = true) :
    ∀ text ∈ Layout.texts (Rust.controls o controls), EndsClean text.toList := by
  cases hcontrols : controls with
  | nil =>
    rw [texts_controls]
    simp
  | cons control rest =>
    rw [← hcontrols]
    have hnames : EndsClean (namesText controls).toList := by
      have hne : controls.map (·.name) ≠ [] := by simp [hcontrols]
      obtain ⟨front, last, hlast, h⟩ := exists_intercalate_eq_append ", " hne
      obtain ⟨control, hmem, rfl⟩ := List.mem_map.1 hlast
      have htext : (namesText controls).toList =
          ("// ".toList ++ front) ++ control.name.toList := by
        unfold namesText
        simp [h, -String.toList_intercalate]
      rw [htext]
      exact endsClean_append_of_isTypeToken (hc control hmem) _
    have htest : EndsClean (controlsText controls).toList := by
      simp [toList_controlsText, isBlank, -String.toList_intercalate]
    exact forall_mem_controls hnames htest (by simp [isBlank]) (by simp [isBlank])

theorem endsClean_armText (ha : arm.Spelled) : EndsClean (armText o arm).toList := by
  have hpairing : arm.pairing.text.toList =
      (arm.opcode.toList ++ " x ".toList) ++ arm.element.toList := by
    simp [Arm.pairing, Pairing.text]
  unfold armText
  split
  · simp only [String.toList_append, toString_string, hpairing, ← List.append_assoc]
    exact endsClean_append_of_isTypeToken ha.element _
  · simp [isBlank]

theorem endsClean_texts (hs : o.symbols.Spelled) (ht : t.Spelled) :
    ∀ text ∈ Layout.texts (routine o t), EndsClean text.toList := by
  have hsuccess : EndsClean o.symbols.successStatus.toList :=
    endsClean_append_of_isTypeToken (hs _ (by simp [Symbols.toList])) []
  have hopening : ∀ text ∈ opening o, EndsClean text.toList := by
    simp [opening, isBlank]
  have helement : ∀ text ∈ elementTexts o, EndsClean text.toList := by
    simp [elementTexts, isBlank]
  have hkey : EndsClean (keyText t.base).toList := by
    simp [toList_keyText, isBlank, -Nat.toString_eq_repr]
  have hclosing : ∀ text ∈ closing o, EndsClean text.toList := by
    simp [closing, isBlank, hsuccess]
  simp only [texts_routine, front, back, List.forall_mem_append, List.forall_mem_cons,
    List.forall_mem_map]
  exact ⟨⟨⟨⟨hopening, endsClean_controls ht.controls⟩, helement⟩, hkey, by simp⟩,
    by simp [isBlank], fun arm h => endsClean_armText (ht.arms arm h), hclosing⟩

theorem endsClean_stub (hs : o.symbols.Spelled) :
    ∀ text ∈ stubTexts o stub, EndsClean text.toList := by
  have hsuccess : EndsClean o.symbols.successStatus.toList :=
    endsClean_append_of_isTypeToken (hs _ (by simp [Symbols.toList])) []
  simp [stubTexts, isBlank, hsuccess]

end Rust

/-! ## C++ -/

namespace Cpp

variable {o : Options} {t : Table} {arm : Arm} {stub : Stub}

theorem endsClean_label {literal symbolic comment : String}
    (hc : ∀ front, EndsClean (front ++ comment.toList)) :
    EndsClean (label o literal symbolic comment).toList := by
  rw [toList_label]
  unfold labelTail
  cases o.keyStyle with
  | literal =>
    cases o.comments with
    | true =>
      simp only [if_true, ← List.append_assoc]
      exact hc _
    | false => simp [isBlank]
  | symbolic => simp [isBlank]

theorem endsClean_cases (ht : t.Spelled) : ∀ text ∈ cases o t, EndsClean text.toList := by
  have hcontrols : ∀ text ∈ controlTexts o t.controls, EndsClean text.toList := by
    unfold controlTexts
    split
    · simp
    · rw [List.forall_mem_append, List.forall_mem_map]
      exact ⟨fun control h => endsClean_label (endsClean_append_of_isTypeToken
        (ht.controls control h)), by simp [isBlank]⟩
  have harms : ∀ text ∈ t.arms.flatMap (armTexts o t.base), EndsClean text.toList := by
    intro text h
    obtain ⟨arm, harm, htext⟩ := List.mem_flatMap.1 h
    have hpairing : ∀ front, EndsClean (front ++ arm.pairing.text.toList) := by
      intro front
      simp only [Arm.pairing, Pairing.text, String.toList_append, toString_string,
        ← List.append_assoc]
      exact endsClean_append_of_isTypeToken (ht.arms arm harm).element _
    have htexts : ∀ text ∈ armTexts o t.base arm, EndsClean text.toList := by
      simp only [armTexts, List.forall_mem_cons]
      exact ⟨endsClean_label hpairing, by simp [toList_callText, isBlank, -Nat.toString_eq_repr],
        by simp [isBlank]⟩
    exact htexts text htext
  have hkey : EndsClean (keyText t.base).toList := by
    simp [toList_keyText, isBlank, -Nat.toString_eq_repr]
  have hclosing : ∀ text ∈ closing o, EndsClean text.toList := by
    simp [closing, isBlank]
  simp only [cases, List.forall_mem_append, List.forall_mem_cons]
  exact ⟨hcontrols, by simp [isBlank], hkey, by simp [isBlank], harms, hclosing⟩

theorem endsClean_texts (ht : t.Spelled) :
    ∀ text ∈ Layout.texts (routine o t), EndsClean text.toList := by
  have hopening : ∀ text ∈ opening o, EndsClean text.toList := by
    simp [opening, isBlank]
  rw [texts_routine, List.forall_mem_append, List.forall_mem_cons]
  exact ⟨hopening, by simp [isBlank], endsClean_cases ht⟩

theorem endsClean_stub : ∀ text ∈ stubTexts o stub, EndsClean text.toList := by
  simp [stubTexts, isBlank]

end Cpp

end DispatchGen
