import DispatchGen.Proofs.CommandTexts
import DispatchGen.Proofs.LateFaults
import DispatchGen.Proofs.RoutineReading
import DispatchGen.Proofs.SummaryReading
import DispatchGen.Proofs.SwitchReading

/-!
# What a check predicts

Checking a file runs the stages of its catalog; the other commands resolve its rendering options as
well. `check_predicts_rendering`: they succeed exactly where the check does and the options are
accepted, and the check then counts the arms that are generated. The check itself never looks at the
options, so it accepts files that every other command refuses (`check_accepts_misnamed_routine`).
-/

namespace DispatchGen

/-- The number of arms in the text of a routine, for a reader who knows its options. -/
def Options.armCount? (o : Options) (text : String) : Option Nat :=
  match o.target with
  | .cpp => (Switch.read? o.symbols.iteratePrefix o.keyStyle text).map (·.arms.length)
  | .rust => (Routine.read? o.symbols.iteratePrefix text).map (·.arms.length)

theorem Options.armCount?_routine {o : Options} {t : Table} (ho : o.symbols.Spelled)
    (ht : t.Spelled) : o.armCount? ((o.routine t).text o.indent) = some t.arms.length := by
  unfold armCount? routine
  cases o.target with
  | cpp =>
    rw [Cpp.read?_routine ho ht, Option.map_some]
    exact congrArg some (List.length_map _)
  | rust =>
    rw [Rust.read?_routine ho ht, Option.map_some]
    exact congrArg some (List.length_map _)

namespace CommandLine

variable {o settled : Options}

/-- Where no style of keys is asked for, settling the style changes it in one language only, the one
without symbolic keys. -/
theorem settle_none (hs : (settle o none).result = .ok settled) :
    ∃ style, settled = { o with keyStyle := style } ∧ (o.target = .cpp → style = o.keyStyle) := by
  obtain ⟨style, hstyle⟩ := result_settle o none
  obtain rfl := Except.ok.inj (hs.symm.trans hstyle)
  refine ⟨style, rfl, fun hcpp => ?_⟩
  unfold settle at hs
  rw [hcpp] at hs
  exact (congrArg Options.keyStyle (Except.ok.inj hs)).symm

theorem exists_settled {file : CatalogFile} {target : Option Target}
    (ho : file.options target = .ok o) (asked : Option KeyStyle) :
    ∃ settled, (settle o asked).result = .ok settled ∧ settled.validate = .ok () := by
  obtain ⟨style, hs⟩ := result_settle o asked
  exact ⟨_, hs, (o.validate_keyStyle style).trans (Overrides.validate_of_resolve ho)⟩

theorem armCount?_settled (hs : (settle o none).result = .ok settled) (text : String) :
    settled.armCount? text = o.armCount? text := by
  obtain ⟨style, rfl, hstyle⟩ := settle_none hs
  unfold Options.armCount?
  cases h : o.target with
  | cpp => rw [hstyle h]
  | rust => rfl

theorem header_settled {asked : Option KeyStyle} (hs : (settle o asked).result = .ok settled)
    (catalog : String) :
    (settled.header catalog).text settled.indent = (o.header catalog).text o.indent := by
  obtain ⟨style, hstyle⟩ := result_settle o asked
  obtain rfl := Except.ok.inj (hs.symm.trans hstyle)
  rfl

variable {w : Workspace} {verb : Verb} {name : String}

/-! ## Success -/

theorem check_succeeds_iff : (onFile .check name w).code = 0 ↔
    IsValue name ∧ ∃ file c, w.Holds ⟨name⟩ file ∧ file.decl.build = .ok c := by
  rw [onFile_code_eq_zero_iff (by decide)]
  refine and_congr_right fun _ => ?_
  constructor
  · rintro ⟨text, h⟩
    obtain ⟨file, c, hfile, hc, -⟩ := result_check_eq_ok.1 h
    exact ⟨file, c, loads_some.1 hfile, hc⟩
  · rintro ⟨file, c, hfile, hc⟩
    exact ⟨_, result_check_eq_ok.2 ⟨file, c, loads_some.2 hfile, hc, rfl⟩⟩

/-- The commands that use the rendering options of their file. -/
def rendering : List Verb :=
  [.dispatch, .stubs, .all, .keys]

theorem rendering_cases (hverb : verb ∈ rendering) :
    (∃ parts, ∀ name, (Settings.named name).command verb =
        .generate parts (Settings.named name).generation) ∨
      ∀ name, (Settings.named name).command verb = .listKeys (some ⟨name⟩) false := by
  cases verb with
  | catalog => simp [rendering] at hverb
  | check => simp [rendering] at hverb
  | dispatch => exact .inl ⟨_, fun _ => rfl⟩
  | stubs => exact .inl ⟨_, fun _ => rfl⟩
  | all => exact .inl ⟨_, fun _ => rfl⟩
  | keys => exact .inr fun _ => rfl

theorem generate_has_text_iff {parts : Parts} {g : Generation} {path : Path}
    (hg : g.catalog = some path) :
    (∃ text, w.result (Command.generate parts g).text.run = .ok text) ↔
      ∃ file o c, w.Holds path file ∧ file.options g.target = .ok o ∧ file.decl.build = .ok c := by
  simp only [result_generate_eq_ok, hg, loads_some]
  constructor
  · rintro ⟨text, file, o, c, settled, a, hfile, ho, hc, -⟩
    exact ⟨file, o, c, hfile, ho, hc⟩
  · rintro ⟨file, o, c, hfile, ho, hc⟩
    obtain ⟨settled, hs, hvalidate⟩ := exists_settled ho g.keyStyle
    have ha := (CatalogDecl.valid_of_build hc).generate_eq hvalidate parts
    exact ⟨_, file, o, c, settled, _, hfile, ho, hc, hs, ha, rfl⟩

theorem listKeys_has_text_iff {json : Bool} {path : Path} :
    (∃ text, w.result (Command.listKeys (some path) json).text.run = .ok text) ↔
      ∃ file o c, w.Holds path file ∧ file.options = .ok o ∧ file.decl.build = .ok c := by
  simp only [result_listKeys_eq_ok, loads_some]
  constructor
  · rintro ⟨text, file, o, c, a, hfile, ho, hc, -⟩
    exact ⟨file, o, c, hfile, ho, hc⟩
  · rintro ⟨file, o, c, hfile, ho, hc⟩
    have hvalidate := Overrides.validate_of_resolve ho
    have ha := (CatalogDecl.valid_of_build hc).generate_eq hvalidate .routine
    exact ⟨_, file, o, c, _, hfile, ho, hc, ha, rfl⟩

theorem rendering_succeeds_iff (hverb : verb ∈ rendering) : (onFile verb name w).code = 0 ↔
    IsValue name ∧
      ∃ file o c, w.Holds ⟨name⟩ file ∧ file.options = .ok o ∧ file.decl.build = .ok c := by
  have hne : verb ≠ .catalog := by
    rintro rfl
    simp [rendering] at hverb
  rw [onFile_code_eq_zero_iff hne]
  refine and_congr_right fun _ => ?_
  obtain ⟨parts, hcommand⟩ | hcommand := rendering_cases hverb
  · rw [hcommand]
    exact generate_has_text_iff rfl
  · rw [hcommand]
    exact listKeys_has_text_iff

theorem source_settled {asked : Option KeyStyle} (hs : (settle o asked).result = .ok settled)
    (t : Table) (handlers : List Stub) : (render t handlers settled .routine).source =
      (o.header t.catalog).text o.indent ++ "\n" ++ (settled.routine t).text settled.indent := by
  have hsource : (render t handlers settled .routine).source =
      (settled.header t.catalog).text settled.indent ++ "" ++
        ("\n" ++ (settled.routine t).text settled.indent) :=
    rfl
  rw [hsource, header_settled hs, String.append_empty, String.append_assoc]

/-- The routine that is printed shows every arm of the table. -/
theorem dispatch_prints {file : CatalogFile} {c : Catalog} (hvalue : IsValue name)
    (hfile : w.Holds ⟨name⟩ file) (ho : file.options = .ok o) (hc : file.decl.build = .ok c) :
    ∃ routine,
      (onFile .dispatch name w).stdout = (o.header c.name).text o.indent ++ "\n" ++ routine ∧
        o.armCount? routine = some c.table.arms.length := by
  have hvalid := CatalogDecl.valid_of_build hc
  obtain ⟨settled, hs, hvalidate⟩ := exists_settled ho none
  have htext := (result_generate_eq_ok (w := w) (g := (Settings.named name).generation)).2
    ⟨file, o, c, settled, _, loads_some.2 hfile, ho, hc, hs,
      hvalid.generate_eq hvalidate .routine, rfl⟩
  have hne : Verb.dispatch ≠ .catalog := by decide
  obtain ⟨-, hstdout⟩ := onFile_of_text hne hvalue htext
  refine ⟨(settled.routine c.table).text settled.indent, ?_, ?_⟩
  · rw [hstdout, source_settled hs]
    rfl
  · rw [← armCount?_settled hs, Options.armCount?_routine (Options.spelled_of_validate hvalidate)
      hvalid.spelled_table]

/-- A catalog file in the root of a tree that holds nothing else. -/
theorem holds_alone {file : CatalogFile} (h : file.Expressible) :
    let content : Entry := .file (Toml.Value.document file.toEntries).toUTF8
    Workspace.Holds { Workspace.empty with tree := Tree.empty.put ["c.toml"] content }
      ⟨"c.toml"⟩ file := by
  intro content
  have hwrite : Workspace.empty.write? ⟨"c.toml"⟩ (Toml.Value.document file.toEntries).toUTF8 =
      some { Workspace.empty with tree := Tree.empty.put ["c.toml"] content } :=
    rfl
  exact Workspace.holds_of_write? hwrite (CatalogFile.ofText_document h)

end CommandLine

end DispatchGen
