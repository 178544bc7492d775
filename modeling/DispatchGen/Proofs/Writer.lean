import DispatchGen.Source.Writer

/-!
# What a writer writes

`Layout.Fits` collects what a run asks of the machine: every margin has to fit into a string, and
every depth into a machine word. `Writer.run?_eq_some_iff` says what a run comes to: from any state
it puts the text of the layout at the writer's depth behind the output and is left at the layout's
depth. It does so whenever the layout fits and the output has room for the text, and crashes otherwise
(`Writer.isSome_run?_iff`).
-/

namespace DispatchGen

/-! ## Margins -/

namespace IndentStyle

variable (style : IndentStyle) {depth : Nat}

/-- The blanks of a margin, counted without a limit. -/
def blanks (depth : Nat) : Nat :=
  if style.tabs then depth else depth * style.size.toNat

/-- The margin of this depth is a string. -/
def Fits (depth : Nat) : Prop :=
  style.blanks depth ≤ Text.maxBytes

instance (depth : Nat) : Decidable (style.Fits depth) :=
  inferInstanceAs (Decidable (_ ≤ _))

variable {style}

theorem blanks_mono {k : Nat} (h : k ≤ depth) : style.blanks k ≤ style.blanks depth := by
  rw [blanks, blanks]
  split
  · exact h
  · exact Nat.mul_le_mul_right _ h

theorem Fits.mono {k : Nat} (h : style.Fits depth) (hk : k ≤ depth) : style.Fits k :=
  Nat.le_trans (blanks_mono hk) h

/-- A product that is a machine word is not cut off. -/
theorem toNat_width (h : depth * style.size.toNat ≤ maxWord) :
    (style.width depth).toNat = depth * style.size.toNat := by
  have hlt : depth * style.size.toNat < 2 ^ 64 := by
    rw [maxWord] at h
    omega
  rw [width, UInt64.toNat_mul, UInt64.toNat_ofNat', Nat.mod_mul_mod, Nat.mod_eq_of_lt hlt]

theorem margin_eq_replicate (h : style.Fits depth) :
    style.margin depth =
      String.ofList (List.replicate (style.blanks depth) (if style.tabs then '\t' else ' ')) := by
  rw [Fits, blanks] at h
  rw [margin, blanks]
  split
  · rfl
  · next htabs =>
    rw [if_neg htabs, Text.maxBytes] at h
    rw [toNat_width (by rw [maxWord]; omega)]

theorem margin?_eq_some_iff {margin : String} :
    style.margin? depth = some margin ↔ style.Fits depth ∧ style.margin depth = margin := by
  have hrepeat (c : Char) (count : Nat) : Text.repeat? c count = some margin ↔
      count ≤ Text.maxBytes ∧ String.ofList (List.replicate count c) = margin := by
    rw [Text.repeat?, Option.ite_none_right_eq_some, Option.some_inj]
  rw [margin?, Fits, IndentStyle.margin, blanks]
  split
  · exact hrepeat '\t' depth
  · rw [checkedMul]
    split
    · next h => rw [Option.bind_some, hrepeat, toNat_width h]
    · next h =>
      rw [maxWord] at h
      rw [Text.maxBytes, Option.bind_none]
      exact ⟨nofun, fun hfits => absurd hfits.1 (by omega)⟩

end IndentStyle

/-! ## Layouts -/

mutual

/-- All margins and depths of a step that starts at the given depth are within the limits. -/
def Step.Fits (style : IndentStyle) (depth : Nat) : Step → Prop
  | .line _ => style.Fits depth
  | .blank => True
  | .indent => depth + 1 ≤ maxWord
  | .dedent => True
  | .block _ body closing =>
    style.Fits depth ∧ depth + 1 ≤ maxWord ∧ Layout.Fits style (depth + 1) body ∧
      (closing.isSome → style.Fits (Layout.depthAfter (depth + 1) body - 1))

/-- All margins and depths of a layout that starts at the given depth are within the limits. -/
def Layout.Fits (style : IndentStyle) (depth : Nat) : List Step → Prop
  | [] => True
  | step :: rest => step.Fits style depth ∧ Layout.Fits style (step.depthAfter depth) rest

end

mutual

instance Step.decidableFits (style : IndentStyle) (depth : Nat) :
    (step : Step) → Decidable (step.Fits style depth)
  | .line _ => inferInstanceAs (Decidable (style.Fits depth))
  | .blank => inferInstanceAs (Decidable True)
  | .indent => inferInstanceAs (Decidable (depth + 1 ≤ maxWord))
  | .dedent => inferInstanceAs (Decidable True)
  | .block _ body _ =>
    have := Layout.decidableFits style (depth + 1) body
    inferInstanceAs (Decidable (_ ∧ _ ∧ _ ∧ (_ → _)))

instance Layout.decidableFits (style : IndentStyle) (depth : Nat) :
    (layout : List Step) → Decidable (Layout.Fits style depth layout)
  | [] => inferInstanceAs (Decidable True)
  | step :: rest =>
    have := Step.decidableFits style depth step
    have := Layout.decidableFits style (step.depthAfter depth) rest
    inferInstanceAs (Decidable (_ ∧ _))

end

mutual

theorem Step.Fits.depthAfter_le {style : IndentStyle} {depth : Nat} {step : Step}
    (h : step.Fits style depth) (hdepth : depth ≤ maxWord) : step.depthAfter depth ≤ maxWord := by
  match step with
  | .line _ => exact hdepth
  | .blank => exact hdepth
  | .indent => exact h
  | .dedent => exact Nat.le_trans (Nat.sub_le depth 1) hdepth
  | .block _ body _ =>
    obtain ⟨-, hindent, hbody, -⟩ := h
    exact Nat.le_trans (Nat.sub_le _ 1) (Layout.Fits.depthAfter_le hbody hindent)

theorem Layout.Fits.depthAfter_le {style : IndentStyle} {depth : Nat} {layout : List Step}
    (h : Layout.Fits style depth layout) (hdepth : depth ≤ maxWord) :
    Layout.depthAfter depth layout ≤ maxWord := by
  match layout with
  | [] => exact hdepth
  | step :: rest =>
    rw [Layout.depthAfter]
    exact Layout.Fits.depthAfter_le h.2 (Step.Fits.depthAfter_le h.1 hdepth)

end

mutual

theorem Step.depthAfter_mono {k depth : Nat} (h : k ≤ depth) (step : Step) :
    step.depthAfter k ≤ step.depthAfter depth := by
  match step with
  | .line _ => exact h
  | .blank => exact h
  | .indent => exact Nat.succ_le_succ h
  | .dedent => exact Nat.sub_le_sub_right h 1
  | .block _ body _ =>
    exact Nat.sub_le_sub_right (Layout.depthAfter_mono (Nat.succ_le_succ h) body) 1

theorem Layout.depthAfter_mono {k depth : Nat} (h : k ≤ depth) (layout : List Step) :
    Layout.depthAfter k layout ≤ Layout.depthAfter depth layout := by
  match layout with
  | [] => exact h
  | step :: rest => exact Layout.depthAfter_mono (Step.depthAfter_mono h step) rest

end

mutual

theorem Step.Fits.mono {style : IndentStyle} {k depth : Nat} {step : Step}
    (h : step.Fits style depth) (hk : k ≤ depth) : step.Fits style k := by
  match step with
  | .line _ => exact IndentStyle.Fits.mono h hk
  | .blank => trivial
  | .indent => exact Nat.le_trans (Nat.succ_le_succ hk) h
  | .dedent => trivial
  | .block _ body _ =>
    obtain ⟨hopening, hindent, hbody, hclosing⟩ := h
    have hsucc : k + 1 ≤ depth + 1 := Nat.succ_le_succ hk
    exact ⟨hopening.mono hk, Nat.le_trans hsucc hindent, Layout.Fits.mono hbody hsucc,
      fun hc => (hclosing hc).mono (Nat.sub_le_sub_right (Layout.depthAfter_mono hsucc body) 1)⟩

/-- What fits further in fits further out. -/
theorem Layout.Fits.mono {style : IndentStyle} {k depth : Nat} {layout : List Step}
    (h : Layout.Fits style depth layout) (hk : k ≤ depth) : Layout.Fits style k layout := by
  match layout with
  | [] => trivial
  | step :: rest =>
    exact ⟨Step.Fits.mono h.1 hk, Layout.Fits.mono h.2 (Step.depthAfter_mono hk step)⟩

end

theorem Layout.fits_append {style : IndentStyle} {depth : Nat} {a b : Layout} :
    Fits style depth (a ++ b) ↔ Fits style depth a ∧ Fits style (depthAfter depth a) b := by
  induction a generalizing depth with
  | nil => simp [Fits, depthAfter]
  | cons step a ih => simp [Fits, depthAfter, ih, and_assoc]

/-! ## Runs -/

namespace Writer

/-- What comes of putting a text behind the output and going to a depth, which can be done where `P`
holds and the output has room. -/
def Puts (w : Writer) (P : Prop) (text : String) (depth : Nat) (result : Option Writer) : Prop :=
  ∀ w', result = some w' ↔ P ∧ w'.output = w.output ++ text ∧ w'.depth = depth

variable {style : IndentStyle} {w : Writer} {P Q : Prop} {text front back : String} {k depth : Nat}
  {result : Option Writer}

/-- Two texts in a row are put as one. -/
theorem Puts.bind {next : Writer → Option Writer} (h : w.Puts P front k result)
    (hk : P → k ≤ maxWord) (hnext : ∀ m : Writer, m.depth = k → m.Puts Q back depth (next m)) :
    w.Puts (P ∧ Q) (front ++ back) depth (result.bind next) := by
  intro w'
  rw [Option.bind_eq_some_iff]
  constructor
  · rintro ⟨m, hm, hw'⟩
    obtain ⟨hp, hfront, hdepth⟩ := (h m).1 hm
    obtain ⟨hq, hback, hend⟩ := (hnext m hdepth w').1 hw'
    exact ⟨⟨hp, hq⟩, by rw [hback, hfront, String.append_assoc], hend⟩
  · rintro ⟨⟨hp, hq⟩, houtput, hend⟩
    rw [← String.append_assoc] at houtput
    -- in between there is room, since there is room for both
    have hroom : (w.output ++ front).utf8ByteSize ≤ Text.maxBytes := by
      have hle := w'.output_le
      rw [houtput, String.utf8ByteSize_append] at hle
      exact Nat.le_of_add_right_le hle
    let m : Writer := ⟨w.output ++ front, k, hroom, hk hp⟩
    exact ⟨m, (h m).2 ⟨hp, rfl, rfl⟩, (hnext m rfl w').2 ⟨hq, houtput, hend⟩⟩

theorem puts_some {v : Writer} (h : v.output = w.output) : w.Puts True "" v.depth (some v) := by
  intro w'
  rw [Option.some_inj, Writer.ext_iff, String.append_empty, h, true_and]
  exact and_congr eq_comm eq_comm

theorem puts_push? : w.Puts True text w.depth (w.push? text) := by
  intro w'
  rw [push?, Option.dite_none_right_eq_some, true_and]
  constructor
  · rintro ⟨hroom, h⟩
    cases h
    exact ⟨rfl, rfl⟩
  · rintro ⟨houtput, hdepth⟩
    refine ⟨houtput ▸ w'.output_le, ?_⟩
    rw [Option.some_inj, Writer.ext_iff]
    exact ⟨houtput.symm, hdepth.symm⟩

theorem puts_indent? : w.Puts (w.depth + 1 ≤ maxWord) "" (w.depth + 1) w.indent? := by
  intro w'
  rw [indent?, Option.dite_none_right_eq_some, String.append_empty, ← exists_prop]
  refine exists_congr fun h => ?_
  rw [Option.some_inj, Writer.ext_iff]
  exact and_congr eq_comm eq_comm

/-- As `puts_push?`, from a writer that is known to be at some depth. -/
theorem puts_push?_at (h : w.depth = depth) : w.Puts True text depth (w.push? text) :=
  h ▸ puts_push?

theorem puts_put? (style : IndentStyle) (line : String) (h : w.depth = depth) :
    w.Puts True (style.indentLine depth line ++ "\n") depth (w.put? (style.margin depth) line) := by
  subst h
  have hnewline (m : Writer) (hm : m.depth = w.depth) : m.Puts True "\n" w.depth (m.push? "\n") :=
    puts_push?_at hm
  rw [put?, IndentStyle.indentLine]
  split
  · next hempty =>
    rw [String.isEmpty_iff.1 hempty]
    simpa using (puts_some rfl).bind (fun _ => w.depth_le) hnewline
  · have hline (m : Writer) (hm : m.depth = w.depth) :
        m.Puts (True ∧ True) (line ++ "\n") w.depth ((m.push? line).bind (·.push? "\n")) :=
      (puts_push?_at hm).bind (fun _ => w.depth_le) hnewline
    simpa [String.append_assoc] using puts_push?.bind (fun _ => w.depth_le) hline

theorem puts_lines (style : IndentStyle) (lines : List String) (h : w.depth = depth) :
    w.Puts True (Text.ofLines (lines.map (style.indentLine depth))) depth
      (lines.foldlM (put? · (style.margin depth)) w) := by
  induction lines generalizing w with
  | nil => exact h ▸ puts_some rfl
  | cons line lines ih =>
    rw [List.map_cons, Text.ofLines_cons, List.foldlM_cons]
    simpa using (puts_put? style line h).bind (fun _ => h ▸ w.depth_le) fun _ => ih

theorem puts_line? (style : IndentStyle) (text : String) (h : w.depth = depth) :
    w.Puts (style.Fits depth) (Text.ofLines (style.indentText depth text)) depth
      (w.line? style text) := by
  subst h
  intro w'
  have hlines := puts_lines style (Text.lines text) (w := w) rfl w'
  rw [true_and] at hlines
  rw [line?, Option.bind_eq_bind, Option.bind_eq_some_iff, IndentStyle.indentText, ← hlines]
  constructor
  · rintro ⟨margin, hmargin, hw'⟩
    obtain ⟨hfits, rfl⟩ := IndentStyle.margin?_eq_some_iff.1 hmargin
    exact ⟨hfits, hw'⟩
  · rintro ⟨hfits, hw'⟩
    exact ⟨_, IndentStyle.margin?_eq_some_iff.2 ⟨hfits, rfl⟩, hw'⟩

theorem puts_close? (style : IndentStyle) (closing : Option String) (h : w.depth = depth) :
    w.Puts (closing.isSome → style.Fits depth)
      (Text.ofLines (closing.toList.flatMap (style.indentText depth))) depth
      (w.close? style closing) := by
  cases closing with
  | none => simpa [close?, Text.ofLines, h] using puts_some (w := w) rfl
  | some text => simpa [close?] using puts_line? style text h

end Writer

mutual

theorem Writer.puts_step? (style : IndentStyle) {w : Writer} {depth : Nat} (h : w.depth = depth)
    (step : Step) :
    w.Puts (step.Fits style depth) (Text.ofLines (step.lines style depth)) (step.depthAfter depth)
      (w.step? style step) := by
  match step with
  | .line text => exact w.puts_line? style text h
  | .blank =>
    rw [Writer.step?, Writer.blank?]
    exact Writer.puts_push?_at h
  | .indent => exact h ▸ Writer.puts_indent?
  | .dedent => exact h ▸ Writer.puts_some (v := w.dedent) rfl
  | .block opening body closing =>
    have hbody (m : Writer) (hm : m.depth = depth + 1) :=
      (Writer.puts_run? style hm body).bind
        (fun hf => hf.depthAfter_le (hm ▸ m.depth_le)) fun b hb =>
          b.dedent.puts_close? style closing (congrArg (· - 1) hb)
    have hinside (m : Writer) (hm : m.depth = depth) :=
      (hm ▸ m.puts_indent?).bind id hbody
    have hblock := (w.puts_line? style opening h).bind (fun _ => h ▸ w.depth_le) hinside
    rw [Step.lines_block, Text.ofLines_append, Text.ofLines_append, String.append_assoc]
    simpa [Writer.step?, Step.Fits, Step.depthAfter] using hblock

/-- A run puts the layout's text behind the output, whatever the output is. -/
theorem Writer.puts_run? (style : IndentStyle) {w : Writer} {depth : Nat} (h : w.depth = depth)
    (layout : List Step) :
    w.Puts (Layout.Fits style depth layout) (Text.ofLines (Layout.lines style depth layout))
      (Layout.depthAfter depth layout) (w.run? style layout) := by
  match layout with
  | [] =>
    rw [Writer.run?]
    exact h ▸ Writer.puts_some rfl
  | step :: rest =>
    rw [Writer.run?, Layout.lines, Text.ofLines_append]
    have hstep := Writer.puts_step? style h step
    exact hstep.bind (fun hf => hf.depthAfter_le (h ▸ w.depth_le)) fun m hm =>
      Writer.puts_run? style hm rest

end

theorem Writer.run?_eq_some_iff {style : IndentStyle} {w w' : Writer} {layout : Layout} :
    w.run? style layout = some w' ↔ Layout.Fits style w.depth layout ∧
      w'.output = w.output ++ layout.text style w.depth ∧
      w'.depth = Layout.depthAfter w.depth layout :=
  Writer.puts_run? style rfl layout w'

theorem Writer.isSome_run?_iff {style : IndentStyle} {w : Writer} {layout : Layout} :
    (w.run? style layout).isSome ↔ Layout.Fits style w.depth layout ∧
      (w.output ++ layout.text style w.depth).utf8ByteSize ≤ Text.maxBytes := by
  rw [Option.isSome_iff_exists]
  constructor
  · rintro ⟨w', h⟩
    obtain ⟨hfits, houtput, -⟩ := run?_eq_some_iff.1 h
    exact ⟨hfits, houtput ▸ w'.output_le⟩
  · rintro ⟨hfits, hroom⟩
    exact ⟨⟨_, _, hroom, hfits.depthAfter_le w.depth_le⟩,
      run?_eq_some_iff.2 ⟨hfits, rfl, rfl⟩⟩

namespace Layout

/-- The layout is within all limits, and its text is a string. -/
def Writable (style : IndentStyle) (layout : Layout) : Prop :=
  Fits style 0 layout ∧ (layout.text style).utf8ByteSize ≤ Text.maxBytes

instance (style : IndentStyle) (layout : Layout) : Decidable (layout.Writable style) :=
  inferInstanceAs (Decidable (_ ∧ _))

theorem write?_eq_some_iff {style : IndentStyle} {layout : Layout} {text : String} :
    layout.write? style = some text ↔ layout.Writable style ∧ layout.text style = text := by
  rw [write?, Option.map_eq_some_iff]
  constructor
  · rintro ⟨w, hw, rfl⟩
    obtain ⟨hfits, houtput, -⟩ := Writer.run?_eq_some_iff.1 hw
    rw [String.empty_append] at houtput
    exact ⟨⟨hfits, houtput ▸ w.output_le⟩, houtput.symm⟩
  · rintro ⟨⟨hfits, hroom⟩, rfl⟩
    have hsome : (Writer.run? style {} layout).isSome :=
      Writer.isSome_run?_iff.2 ⟨hfits, by rwa [String.empty_append]⟩
    obtain ⟨w, hw⟩ := Option.isSome_iff_exists.1 hsome
    obtain ⟨-, houtput, -⟩ := Writer.run?_eq_some_iff.1 hw
    exact ⟨w, hw, by rw [houtput, String.empty_append]⟩

end Layout

end DispatchGen
