import DispatchGen.Proofs.Overriding
import DispatchGen.Proofs.Prediction

/-!
# Reading a listing of keys back

The columns of a listing are there for the eye: a name wider than its column shifts the rest of its
line. What a line says is in its words (`Text.words`), and these are as printed however wide they are
(`words_controlLine`, `words_armLine`), since no name, token or number holds a blank.
`KeyListing.read?` recovers a listing from its text alone, and `keys_list_labels` puts it beside the
routine that the same file gives: the keys that are listed are the labels of its cases.
-/

namespace DispatchGen

namespace Text

theorem newline_not_mem_blanks (count : Nat) : '\n' ∉ (blanks count).toList := by
  simp [blanks]

/-! ## Words -/

/-- The words of a line: what its blanks set apart. -/
def words (line : List Char) : List String :=
  ((line.splitOnP Char.isWhitespace).filter (· ≠ [])).map String.ofList

/-- A text that is one word. -/
structure IsWord (text : String) : Prop where
  ne_nil : text.toList ≠ []
  solid : ∀ c ∈ text.toList, c.isWhitespace = false

theorem words_append_blank {blank : Char} (h : blank.isWhitespace = true) (front rest : List Char) :
    words (front ++ blank :: rest) = words front ++ words rest := by
  rw [words, List.splitOnP_append_cons front rest h, List.filter_append, List.map_append]
  rfl

theorem words_nil : words [] = [] := by
  simp [words]

theorem words_blanks (count : Nat) : words (blanks count).toList = [] := by
  rw [blanks, String.toList_ofList]
  induction count with
  | zero => rfl
  | succ count ih => exact (words_append_blank rfl [] _).trans ih

theorem words_blanks_append (count : Nat) (line : List Char) :
    words ((blanks count).toList ++ line) = words line := by
  rw [blanks, String.toList_ofList]
  induction count with
  | zero => rfl
  | succ count ih => exact (words_append_blank rfl [] _).trans ih

theorem words_append_blanks (line : List Char) (count : Nat) :
    words (line ++ (blanks count).toList) = words line := by
  cases count with
  | zero => rw [blanks, String.toList_ofList, List.replicate_zero, List.append_nil]
  | succ count =>
    have hblanks : (blanks (count + 1)).toList = ' ' :: (blanks count).toList := by
      simp only [blanks, String.toList_ofList, List.replicate_succ]
    rw [hblanks, words_append_blank rfl, words_blanks, List.append_nil]

theorem words_leftIn (width : Nat) (text : String) :
    words (leftIn width text).toList = words text.toList := by
  rw [leftIn, String.toList_append, words_append_blanks]

theorem words_rightIn (width : Nat) (text : String) :
    words (rightIn width text).toList = words text.toList := by
  rw [rightIn, String.toList_append, words_blanks_append]

namespace IsWord

variable {text : String}

theorem words_eq (h : IsWord text) : words text.toList = [text] := by
  simp [words, List.splitOnP_eq_singleton h.solid, h.ne_nil]

theorem append {rest : String} (h : IsWord text)
    (hrest : ∀ c ∈ rest.toList, c.isWhitespace = false) : IsWord (text ++ rest) := by
  refine ⟨?_, ?_⟩
  · rw [String.toList_append]
    exact List.append_ne_nil_of_left_ne_nil h.ne_nil _
  · rw [String.toList_append, List.forall_mem_append]
    exact ⟨h.solid, hrest⟩

theorem newline_not_mem (h : IsWord text) : '\n' ∉ text.toList := fun hm =>
  absurd (h.solid _ hm) (by decide)

end IsWord

theorem isWhitespace_of_isTokenChar {c : Char} (h : isTokenChar c = true) :
    c.isWhitespace = false := by
  refine Bool.eq_false_iff.2 fun hblank => ?_
  simp only [Char.isWhitespace, Bool.or_eq_true, decide_eq_true_eq] at hblank
  obtain ((rfl | rfl) | rfl) | rfl := hblank <;> exact absurd h (by decide)

theorem isWord_of_isTypeToken {s : String} (h : isTypeToken s = true) : IsWord s := by
  rw [isTypeToken, Bool.and_eq_true, List.all_eq_true] at h
  exact ⟨by simpa using h.1, fun c hc => isWhitespace_of_isTokenChar (h.2 c hc)⟩

theorem isWord_toString (n : Nat) : IsWord (toString n) := by
  obtain ⟨d, ds, h, -⟩ := exists_digit_toString n
  refine ⟨h ▸ List.cons_ne_nil d ds, fun c hc => ?_⟩
  exact isWhitespace_of_isTokenChar (isTokenChar_of_mem_toString hc)

end Text

open Text

/-! ## What a listing says -/

/-- What a listing says of a control opcode. -/
structure ListedControl where
  ordinal : Nat
  name : String
deriving DecidableEq, Repr

/-- What a listing says of an arm. -/
structure ListedArm where
  key : Nat
  opcode : String
  element : String
  handler : String
  token : String
deriving DecidableEq, Repr

/-- What a listing says. -/
structure KeyListing where
  controls : List ListedControl
  arms : List ListedArm
deriving DecidableEq, Repr

def ListedControl.read? : List String → Option ListedControl
  | [ordinal, name, "(control)"] => do
    return { ordinal := ← wholeNumber? ordinal.toList, name }
  | _ => none

/-- Of a handler with its token, the handler ends at the first angle and the token at the last
character. -/
def ListedArm.read? : List String → Option ListedArm
  | [key, opcode, element, call] => do
    let key ← wholeNumber? key.toList
    let (handler, token) ← before? '<' call.toList
    if token.getLast? = some '>' then
      return { key, opcode, element, handler := .ofList handler, token := .ofList token.dropLast }
    else none
  | _ => none

/-- Control opcodes have three words to a line, and come first. -/
def KeyListing.read? (text : String) : Option KeyListing := do
  let lines := (splitAt '\n' text.toList).dropLast.map words
  let controls ← (lines.takeWhile (·.length = 3)).mapM ListedControl.read?
  let arms ← (lines.dropWhile (·.length = 3)).mapM ListedArm.read?
  return { controls, arms }

def ControlEntry.words (control : ControlEntry) : List String :=
  [toString control.ordinal, control.name, "(control)"]

def ControlEntry.listed (control : ControlEntry) : ListedControl where
  ordinal := control.ordinal.toNat
  name := control.name

/-- The handler and its token. -/
def Arm.call (arm : Arm) : String :=
  arm.handler ++ "<" ++ arm.token ++ ">"

def Arm.words (arm : Arm) : List String :=
  [toString arm.key, arm.opcode, arm.element, arm.call]

def Arm.listed (arm : Arm) : ListedArm where
  key := arm.key.toNat
  opcode := arm.opcode
  element := arm.element
  handler := arm.handler
  token := arm.token

def Table.listed (t : Table) : KeyListing where
  controls := t.controls.map ControlEntry.listed
  arms := t.arms.map Arm.listed

theorem ControlEntry.read?_words (control : ControlEntry) :
    ListedControl.read? control.words = some control.listed := by
  rw [words, ListedControl.read?, toString_uint32, wholeNumber?_toString]
  rfl

theorem Arm.read?_words {arm : Arm} (h : isIdentifier arm.handler = true) :
    ListedArm.read? arm.words = some arm.listed := by
  have hhandler : '<' ∉ arm.handler.toList := fun hm =>
    absurd (isWordChar_of_isIdentifier h _ hm) (by decide)
  have hcall : arm.call.toList = arm.handler.toList ++ '<' :: (arm.token.toList ++ ['>']) := by
    simp [call]
  rw [words, ListedArm.read?, toString_uint64, wholeNumber?_toString, hcall,
    before?_append hhandler]
  simp only [Option.bind_eq_bind, Option.bind_some, List.getLast?_concat, List.dropLast_concat,
    String.ofList_toList, if_true]
  rfl

/-! ## The lines of a listing -/

namespace CommandLine

theorem toList_controlLine (control : ControlEntry) : (controlLine control).toList =
    (rightIn 8 (toString control.ordinal)).toList ++ ' ' :: ([] ++ ' ' ::
      ((leftIn 24 control.name).toList ++ ' ' :: "(control)".toList)) := by
  simp [controlLine]

theorem toList_armLine (arm : Arm) : (armLine arm).toList =
    (rightIn 8 (toString arm.key)).toList ++ ' ' :: ([] ++ ' ' ::
      ((leftIn 24 arm.opcode).toList ++ ' ' :: ((leftIn 16 arm.element).toList ++ ' ' ::
        arm.call.toList))) := by
  simp [armLine, Arm.call]

theorem isWord_call {arm : Arm} (h : arm.Spelled) : IsWord arm.call :=
  (((isWord_of_isTypeToken h.handler).append (by decide)).append
    (isWord_of_isTypeToken h.token).solid).append (by decide)

theorem words_controlLine {control : ControlEntry} (h : isTypeToken control.name = true) :
    words (controlLine control).toList = control.words := by
  have hmark : IsWord "(control)" := ⟨by decide, by decide⟩
  rw [toList_controlLine, words_append_blank rfl, words_append_blank rfl, words_append_blank rfl,
    words_rightIn, words_leftIn, toString_uint32, (isWord_toString _).words_eq,
    (isWord_of_isTypeToken h).words_eq, hmark.words_eq]
  rfl

theorem words_armLine {arm : Arm} (h : arm.Spelled) : words (armLine arm).toList = arm.words := by
  rw [toList_armLine, words_append_blank rfl, words_append_blank rfl, words_append_blank rfl,
    words_append_blank rfl, words_rightIn, words_leftIn, words_leftIn, toString_uint64,
    (isWord_toString _).words_eq, (isWord_of_isTypeToken h.opcode).words_eq,
    (isWord_of_isTypeToken h.element).words_eq, (isWord_call h).words_eq]
  rfl

theorem newline_not_mem_controlLine {control : ControlEntry}
    (h : isTypeToken control.name = true) : '\n' ∉ (controlLine control).toList := by
  have hordinal : '\n' ∉ (toString control.ordinal).toList := newline_not_mem_number _
  simp only [toList_controlLine, rightIn, leftIn, String.toList_append, List.mem_append,
    List.mem_cons, newline_not_mem_blanks, hordinal, (isWord_of_isTypeToken h).newline_not_mem]
  decide

theorem newline_not_mem_armLine {arm : Arm} (h : arm.Spelled) : '\n' ∉ (armLine arm).toList := by
  have hkey : '\n' ∉ (toString arm.key).toList := newline_not_mem_number _
  simp only [toList_armLine, rightIn, leftIn, String.toList_append, List.mem_append, List.mem_cons,
    newline_not_mem_blanks, hkey, (isWord_of_isTypeToken h.opcode).newline_not_mem,
    (isWord_of_isTypeToken h.element).newline_not_mem, (isWord_call h).newline_not_mem]
  decide

variable {t : Table}

/-- The words of a listing, line by line; the last newline leaves an empty line behind. -/
theorem words_keyListing (h : t.Spelled) :
    (splitAt '\n' (keyListing t).toList).map words =
      t.controls.map ControlEntry.words ++ t.arms.map Arm.words ++ [[]] := by
  have hlines : ∀ line ∈ t.controls.map controlLine ++ t.arms.map armLine, '\n' ∉ line.toList := by
    simp only [List.forall_mem_append, List.forall_mem_map]
    exact ⟨fun control hc => newline_not_mem_controlLine (h.controls control hc),
      fun arm ha => newline_not_mem_armLine (h.arms arm ha)⟩
  have hcontrols : t.controls.map (fun control => words (controlLine control).toList) =
      t.controls.map ControlEntry.words :=
    List.map_congr_left fun control hc => words_controlLine (h.controls control hc)
  have harms : t.arms.map (fun arm => words (armLine arm).toList) = t.arms.map Arm.words :=
    List.map_congr_left fun arm ha => words_armLine (h.arms arm ha)
  rw [keyListing, splitAt_ofLines hlines, ← hcontrols, ← harms]
  simp only [List.map_append, List.map_map, List.map_singleton, words_nil, Function.comp_def]

/-- A listing reads back. -/
theorem read?_keyListing (h : t.Spelled)
    (hhandlers : ∀ arm ∈ t.arms, isIdentifier arm.handler = true) :
    KeyListing.read? (keyListing t) = some t.listed := by
  -- Controls have three words to a line and arms four, so the lines part where the arms begin.
  have hthree : ∀ words ∈ t.controls.map ControlEntry.words, decide (words.length = 3) = true :=
    List.forall_mem_map.2 fun _ _ => rfl
  have hcontrols : (t.controls.map ControlEntry.words).mapM ListedControl.read? =
      some (t.controls.map ControlEntry.listed) :=
    mapM_eq_pure_of_forall fun (control : ControlEntry) _ => control.read?_words
  have harms : (t.arms.map Arm.words).mapM ListedArm.read? = some (t.arms.map Arm.listed) :=
    mapM_eq_pure_of_forall fun arm ha => Arm.read?_words (hhandlers arm ha)
  have htake : (t.arms.map Arm.words).takeWhile (·.length = 3) = [] := by
    cases t.arms <;> rfl
  have hdrop : (t.arms.map Arm.words).dropWhile (·.length = 3) = t.arms.map Arm.words := by
    cases t.arms <;> rfl
  rw [KeyListing.read?, List.map_dropLast, words_keyListing h, List.dropLast_concat,
    List.takeWhile_append_of_pos hthree, List.dropWhile_append_of_pos hthree, htake, hdrop,
    List.append_nil, hcontrols, harms]
  rfl

end CommandLine

theorem Catalog.Valid.isIdentifier_handler {c : Catalog} (h : c.Valid) :
    ∀ arm ∈ c.table.arms, isIdentifier arm.handler = true := by
  intro arm ha
  obtain ⟨op, hop, type, -, rfl⟩ := Catalog.mem_table_arms.1 ha
  exact h.handlers op hop

/-! ## The listing beside the routine -/

namespace CommandLine

variable {w : Workspace} {catalog : Option Path} {file : CatalogFile} {c : Catalog} {o : Options}

/-- A target may be asked for wherever the rendering options are accepted. -/
theorem exists_options (ho : file.options = .ok o) (target : Target) :
    ∃ o, file.options (some target) = .ok o ∧ o.target = target := by
  obtain ⟨o', ho'⟩ : ∃ o, file.options (some target) = .ok o :=
    Overrides.exists_resolve_iff.2 (Overrides.exists_resolve_iff.1 ⟨o, ho⟩)
  obtain ⟨-, rfl⟩ := Overrides.resolve_eq_ok_iff.1 ho'
  exact ⟨_, ho', rfl⟩

theorem settle_literal (h : o.target = .cpp) :
    (settle o (some .literal)).result = .ok { o with keyStyle := .literal } := by
  simp only [settle, h]
  rfl

theorem result_listKeys {text : String}
    (h : w.result (Command.listKeys catalog false).text.run = .ok text) :
    ∃ file o c, Loads w catalog file ∧ file.options = .ok o ∧ file.decl.build = .ok c ∧
      text = keyListing c.table := by
  obtain ⟨file, o, c, a, hfile, ho, hc, ha, rfl⟩ := result_listKeys_eq_ok.1 h
  have hvalidate := Overrides.validate_of_resolve ho
  rw [(CatalogDecl.valid_of_build hc).generate_eq hvalidate] at ha
  cases ha
  exact ⟨file, o, c, hfile, ho, hc, rfl⟩

/-- The C++ routine of a file, with keys as case labels. -/
def literalRoutine (catalog : Option Path) : Command :=
  .generate .routine
    { catalog, target := some .cpp, keyStyle := some .literal, output := none }

theorem result_literalRoutine (hfile : Loads w catalog file)
    (ho : file.options (some .cpp) = .ok o) (htarget : o.target = .cpp)
    (hc : file.decl.build = .ok c) :
    ∃ routine, w.result (literalRoutine catalog).text.run =
        .ok ((o.header c.name).text o.indent ++ "\n" ++ routine) ∧
      Switch.read? o.symbols.iteratePrefix .literal routine = some (c.table.inSwitch .literal) := by
  have hvalid := CatalogDecl.valid_of_build hc
  have hs := settle_literal htarget
  have hvalidate : ({ o with keyStyle := .literal } : Options).validate = .ok () :=
    (o.validate_keyStyle .literal).trans (Overrides.validate_of_resolve ho)
  refine ⟨_, result_generate_eq_ok.2 ⟨file, o, c, _, _, hfile, ho, hc, hs,
    hvalid.generate_eq hvalidate .routine, source_settled hs c.table c.stubs⟩, ?_⟩
  rw [Options.routine, htarget]
  exact Cpp.read?_routine (Options.spelled_of_validate hvalidate) hvalid.spelled_table _ _

/-- Wherever keys are listed, the lines hold a word for each field of a control opcode or of an arm,
one line for each of them and in their order, so that the listing reads back. Then the routine of the
same file can be generated with its keys as case labels, and its labels are the numbers that are
listed, in the order of the listing. -/
theorem keys_list_labels {keys dispatch : List String} {verbose verbose' : Bool}
    (hkeys : Request.parse keys = .ok { verbose, command := .listKeys catalog false })
    (hdispatch : Request.parse dispatch =
      .ok { verbose := verbose', command := literalRoutine catalog })
    (h : (session keys w).1.code = 0) :
    ∃ file c o, Loads w catalog file ∧ file.decl.build = .ok c ∧
      file.options (some .cpp) = .ok o ∧
      (splitAt '\n' (session keys w).1.stdout.toList).map words =
        c.table.controls.map ControlEntry.words ++ c.table.arms.map Arm.words ++ [[]] ∧
      KeyListing.read? (session keys w).1.stdout = some c.table.listed ∧
      (session dispatch w).1.code = 0 ∧ ∃ routine switch,
        (session dispatch w).1.stdout = (o.header c.name).text o.indent ++ "\n" ++ routine ∧
        Switch.read? o.symbols.iteratePrefix .literal routine = some switch ∧
        switch.controls = c.table.listed.controls.map (fun control => .number control.ordinal) ∧
        switch.arms.map (·.label) = c.table.listed.arms.map fun arm => .number arm.key := by
  rw [session_of_parse hkeys] at h ⊢
  rw [session_of_parse hdispatch]
  obtain ⟨text, htext⟩ := Request.exists_text_of_session h
  obtain ⟨-, hlisting⟩ := Request.session_of_text rfl htext
  obtain ⟨file, o', c, hfile, ho', hc, rfl⟩ := result_listKeys htext
  obtain ⟨o, ho, htarget⟩ := exists_options ho' .cpp
  obtain ⟨routine, hroutine, hread⟩ := result_literalRoutine hfile ho htarget hc
  have houtput : (Request.mk verbose' (literalRoutine catalog)).command.output? = none := rfl
  obtain ⟨hcode, hstdout⟩ := Request.session_of_text houtput hroutine
  have hvalid := CatalogDecl.valid_of_build hc
  rw [hlisting]
  refine ⟨file, c, o, hfile, hc, ho, words_keyListing hvalid.spelled_table,
    read?_keyListing hvalid.spelled_table hvalid.isIdentifier_handler, hcode, routine, _,
    hstdout, hread, ?_, ?_⟩
  · simp only [Table.inSwitch, Table.listed, List.map_map]
    rfl
  · simp only [Table.inSwitch, Table.listed, List.map_map]
    rfl

/-- The listing and the labels of a catalog file that lies in the working directory. -/
theorem keys_list_labels_addMul :
    let file : CatalogFile := { decl := CatalogDecl.addMul, render := {} }
    let content : Entry := .file (Toml.Value.document file.toEntries).toUTF8
    let w : Workspace := { Workspace.empty with tree := Tree.empty.put ["c.toml"] content }
    let keys := ["keys", "-c", "c.toml"]
    let dispatch := ["dispatch", "-tcpp", "--key-style=literal", "-c", "c.toml"]
    (session keys w).1.code = 0 ∧ KeyListing.read? (session keys w).1.stdout = some {
      controls := [⟨0, "SYNC"⟩]
      arms := [⟨100, "ADD", "INT32", "add", "i32"⟩, ⟨101, "ADD", "FLOAT64", "add", "f64"⟩,
        ⟨200, "MUL", "INT32", "mul", "i32"⟩, ⟨201, "MUL", "FLOAT64", "mul", "f64"⟩] } ∧
      (session dispatch w).1.code = 0 := by
  intro file content w keys dispatch
  have hexpressible : file.Expressible := fun size hsize => nomatch hsize
  have hfile : w.Holds ⟨"c.toml"⟩ file := holds_alone hexpressible
  clear_value w
  obtain ⟨o, ho⟩ := exists_eq_ok (x := file.options) (by decide +kernel)
  obtain ⟨text, htext⟩ : ∃ text,
      w.result (Command.listKeys (some ⟨"c.toml"⟩) false).text.run = .ok text :=
    listKeys_has_text_iff.2 ⟨file, o, _, hfile, ho, build_addMul⟩
  have hkeys : Request.parse keys =
      .ok { verbose := false, command := .listKeys (some ⟨"c.toml"⟩) false } :=
    rfl
  have hdispatch : Request.parse dispatch =
      .ok { verbose := false, command := literalRoutine (some ⟨"c.toml"⟩) } :=
    rfl
  have houtput :
      (Request.mk false (.listKeys (some ⟨"c.toml"⟩) false)).command.output? = none :=
    rfl
  have hcode : (session keys w).1.code = 0 := by
    rw [session_of_parse hkeys]
    exact (Request.session_of_text houtput htext).1
  obtain ⟨file', c, o', hfile', hc, -, -, hread, hcode', -⟩ :=
    keys_list_labels hkeys hdispatch hcode
  obtain rfl := (loads_some.1 hfile').unique hfile
  obtain rfl := Except.ok.inj (hc.symm.trans build_addMul)
  have hlisted : Catalog.addMul.table.listed = {
      controls := [⟨0, "SYNC"⟩]
      arms := [⟨100, "ADD", "INT32", "add", "i32"⟩, ⟨101, "ADD", "FLOAT64", "add", "f64"⟩,
        ⟨200, "MUL", "INT32", "mul", "i32"⟩, ⟨201, "MUL", "FLOAT64", "mul", "f64"⟩] } := by
    decide +kernel
  rw [hlisted] at hread
  exact ⟨hcode, hread, hcode'⟩

end CommandLine

end DispatchGen
