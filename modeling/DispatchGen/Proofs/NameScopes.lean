import DispatchGen.Proofs.RoutineReading
import DispatchGen.Proofs.Routing
import DispatchGen.Proofs.SwitchReading
import DispatchGen.Source.Artifact

/-!
# Name scopes

An arm calls a handler by name, and the name is looked up where the arm stands: among the variables of
the routine first, then among all functions, which are the stubs, the routine itself and the engine's
function for opcodes. `Target.scope?` reads the names around the arms from the routine's text. Building a
catalog keeps handlers apart from each other, not from these names: by `Catalog.arms_mean_stubs_iff`
the arms call stubs exactly if no handler has one of them, and `key_captured` shows handlers that have.
-/

namespace DispatchGen

open Text

/-! ## Words -/

namespace Text

/-- The word in front of a text. -/
def firstWord (text : List Char) : String :=
  .ofList (text.takeWhile isWordChar)

/-- The last word in a text. -/
def lastWord (text : List Char) : String :=
  .ofList ((text.reverse.dropWhile (!isWordChar ·)).takeWhile isWordChar).reverse

theorem lastWord_append {word : String} (h : isIdentifier word = true) {sep : Char}
    (hsep : isWordChar sep = false) (front : List Char) {rest : List Char}
    (hrest : rest.all (!isWordChar ·) = true) :
    lastWord (front ++ sep :: (word.toList ++ rest)) = word := by
  have hword : ∀ c ∈ word.toList.reverse, isWordChar c = true := fun c hc =>
    isWordChar_of_isIdentifier h c (List.mem_reverse.1 hc)
  have hdrop : ∀ c ∈ rest.reverse, (!isWordChar c) = true := fun c hc =>
    List.all_eq_true.1 hrest c (List.mem_reverse.1 hc)
  have hreverse : (front ++ sep :: (word.toList ++ rest)).reverse =
      rest.reverse ++ (word.toList.reverse ++ sep :: front.reverse) := by
    simp
  have hstart : (word.toList.reverse ++ sep :: front.reverse).dropWhile (!isWordChar ·) =
      word.toList.reverse ++ sep :: front.reverse := by
    cases hw : word.toList.reverse with
    | nil => simp [isIdentifier, List.reverse_eq_nil_iff.1 hw] at h
    | cons c cs =>
      rw [List.cons_append, List.dropWhile_cons_of_neg]
      simp [hword c (hw ▸ List.mem_cons_self)]
  rw [lastWord, hreverse, List.dropWhile_append_of_pos hdrop, hstart,
    List.takeWhile_append_of_pos hword, List.takeWhile_cons_of_neg (by simp [hsep]),
    List.append_nil, List.reverse_reverse, String.ofList_toList]

end Text

/-! ## Reading scopes -/

namespace Text

/-- The lines in front of the first one that reads `line`. -/
def ahead (line : String) (lines : List (List Char)) : List (List Char) :=
  lines.takeWhile (· != line.toList)

theorem ahead_append {line : String} {front : List (List Char)} (h : line.toList ∉ front)
    (rest : List (List Char)) : ahead line (front ++ line.toList :: rest) = front := by
  have hfront : ∀ l ∈ front, (l != line.toList) = true := fun l hl =>
    bne_iff_ne.2 fun e => h (e ▸ hl)
  rw [ahead, List.takeWhile_append_of_pos hfront, List.takeWhile_cons_of_neg (by simp),
    List.append_nil]

end Text

/-- The names around the arms of a routine. -/
structure Scope where
  routine : String
  /-- The parameters, and what is bound in front of the arms. -/
  bound : List String
deriving DecidableEq, Repr

namespace Target

/-- The line that opens the arms. -/
def armsOpening : Target → String
  | cpp => "switch (key) \x7b"
  | rust => "match key \x7b"

/-- The name of a parameter: behind its type, or in front of it. -/
def parameter (target : Target) (piece : List Char) : String :=
  match target with
  | cpp => lastWord piece
  | rust => firstWord piece

/-- The variable that a line binds: what it sets with a `=`, or what a `let` or `for` names. -/
def binding? (target : Target) (line : List Char) : Option String :=
  match target with
  | cpp => (before? '=' line).map fun (front, _) => lastWord front
  | rust => ((after? "let " line).or (after? "for " line)).map firstWord

/-- What the text of a routine binds around its arms. -/
def scope? (target : Target) (text : String) : Option Scope :=
  match bareLines text with
  | [] => none
  | signature :: body => do
    let (front, rest) ← before? '(' signature
    let (parameters, _) ← before? ')' rest
    return {
      routine := lastWord front
      bound := (splitAt ',' parameters).map target.parameter ++
        (ahead target.armsOpening body).filterMap target.binding? }

theorem scope?_eq {target : Target} {text : String} {head parameters tail : List Char}
    {front rest : List (List Char)}
    (hlines : bareLines text = (head ++ '(' :: (parameters ++ ')' :: tail)) ::
      (front ++ target.armsOpening.toList :: rest))
    (hhead : '(' ∉ head) (hparameters : ')' ∉ parameters)
    (hfront : target.armsOpening.toList ∉ front) :
    target.scope? text = some {
      routine := lastWord head
      bound := (splitAt ',' parameters).map target.parameter ++
        front.filterMap target.binding? } := by
  rw [scope?, hlines]
  simp only [before?_append hhead, Option.bind_eq_bind, Option.bind_some,
    before?_append hparameters, ahead_append hfront]
  rfl

/-- The variables around the arms of every routine. -/
def localNames : Target → List String
  | cpp => ["instruction_count", "instruction_list", "i", "instr", "key"]
  | rust => ["instructions", "instr", "opcode", "element", "key"]

end Target

/-! ## C++ -/

namespace Cpp

variable {o : Options} {t : Table}

theorem binding?_append {front rest : List Char} {sep : Char} {word : String}
    (hfront : '=' ∉ front) (hsep : isWordChar sep = false) (hne : sep ≠ '=')
    (hword : isIdentifier word = true) :
    Target.cpp.binding? (front ++ sep :: (word.toList ++ ' ' :: '=' :: rest)) = some word := by
  have hfree : '=' ∉ front ++ sep :: (word.toList ++ [' ']) := by
    have hmem : '=' ∉ word.toList :=
      not_mem_of_isTypeToken (isTypeToken_of_isIdentifier hword) (by decide)
    simp [hfront, hmem, Ne.symm hne]
  have hcut : front ++ sep :: (word.toList ++ ' ' :: '=' :: rest) =
      (front ++ sep :: (word.toList ++ [' '])) ++ '=' :: rest := by
    simp
  rw [hcut, Target.binding?, before?_append hfree]
  exact congrArg some (lastWord_append hword hsep front (by decide))

theorem binding?_eq_none {line : List Char} (h : '=' ∉ line) : Target.cpp.binding? line = none := by
  rw [Target.binding?, before?_eq_none h]
  rfl

/-- A label sets nothing, and does not open the arms. -/
theorem controlLabel_passed_over {control : ControlEntry} (hc : isTypeToken control.name = true) :
    '=' ∉ (controlLabel o control).toList ∧
      (controlLabel o control).toList ≠ "switch (key) \x7b".toList := by
  have hname : '=' ∉ control.name.toList := not_mem_of_isTypeToken hc (by decide)
  have hordinal : '=' ∉ (toString control.ordinal).toList :=
    not_mem_toString (n := control.ordinal.toNat) (by decide)
  have htail : '=' ∉ labelTail o control.name := by
    unfold labelTail
    split
    · simp [hname]
    · decide
  rw [controlLabel, toList_label]
  cases o.keyStyle with
  | literal => simp [hordinal, htail]
  | symbolic => simp [hname]

theorem controlTexts_passed_over {controls : List ControlEntry}
    (hc : ∀ control ∈ controls, isTypeToken control.name = true) :
    ∀ text ∈ controlTexts o controls, '=' ∉ text.toList ∧
      text.toList ≠ "switch (key) \x7b".toList := by
  unfold controlTexts
  split
  · simp
  · rw [List.forall_mem_append, List.forall_mem_map]
    exact ⟨fun control h => controlLabel_passed_over (hc control h), by simp⟩

/-- The pieces between the brackets of the signature, and the lines that bind variables. -/
def parameters (o : Options) : List (List Char) :=
  [o.symbols.indexType.toList ++ ' ' :: ("instruction_count".toList ++ []),
    (' ' :: o.symbols.instructionType.toList) ++ ' ' :: ("instruction_list".toList ++ "[]".toList)]

def loopLine (o : Options) : List Char :=
  ("for (".toList ++ o.symbols.indexType.toList) ++ ' ' :: ("i".toList ++ ' ' :: '=' ::
    " 0; i < instruction_count; ++i) \x7b".toList)

def instructionLine (o : Options) : List Char :=
  (o.symbols.instructionType.toList ++ [' ']) ++ '*' :: ("instr".toList ++ ' ' :: '=' ::
    " &instruction_list[i];".toList)

theorem toList_opening (o : Options) : (opening o).map String.toList =
    [(o.symbols.statusType.toList ++ ' ' :: (o.symbols.routineName.toList ++ [])) ++ '(' ::
        (joinWith ',' (parameters o) ++ ')' :: " \x7b".toList), loopLine o, instructionLine o] := by
  unfold parameters loopLine instructionLine
  simp [opening, joinWith]

theorem splitAt_parameters (hs : o.symbols.Spelled) :
    splitAt ',' (joinWith ',' (parameters o)) = parameters o := by
  have h := hs.not_mem (c := ',') (by decide)
  simp only [Symbols.toList, List.forall_mem_cons] at h
  refine splitAt_joinWith (by simp [parameters]) ?_
  simp [parameters, h]

theorem map_parameters (o : Options) :
    (parameters o).map Target.cpp.parameter = ["instruction_count", "instruction_list"] := by
  have hcount : lastWord (o.symbols.indexType.toList ++ ' ' :: ("instruction_count".toList ++ [])) =
      "instruction_count" := lastWord_append (by decide) (by decide) _ (by decide)
  have hlist : lastWord ((' ' :: o.symbols.instructionType.toList) ++
      ' ' :: ("instruction_list".toList ++ "[]".toList)) = "instruction_list" :=
    lastWord_append (by decide) (by decide) _ (by decide)
  simp only [parameters, List.map_cons, List.map_nil, Target.parameter, hcount, hlist]

/-- The lines between the signature and the arms. -/
def front (o : Options) (t : Table) : List (List Char) :=
  [loopLine o, instructionLine o, "switch (instr->opcode) \x7b".toList] ++
    ((controlTexts o t.controls).map String.toList ++ ["default: \x7b".toList,
      (keyText t.base).toList])

theorem filterMap_front (hs : o.symbols.Spelled) (ht : t.Spelled) :
    (front o t).filterMap Target.cpp.binding? = ["i", "instr", "key"] := by
  have h := hs.not_mem (c := '=') (by decide)
  simp only [Symbols.toList, List.forall_mem_cons] at h
  have hloop : Target.cpp.binding? (loopLine o) = some "i" :=
    binding?_append (by simp [h]) (by decide) (by decide) (by decide)
  have hinstruction : Target.cpp.binding? (instructionLine o) = some "instr" :=
    binding?_append (by simp [h]) (by decide) (by decide) (by decide)
  have hopcode : Target.cpp.binding? "switch (instr->opcode) \x7b".toList = none :=
    binding?_eq_none (by simp)
  have hcontrols : ((controlTexts o t.controls).map String.toList).filterMap Target.cpp.binding? =
      [] := by
    rw [List.filterMap_eq_nil_iff, List.forall_mem_map]
    exact fun text hmem => binding?_eq_none (controlTexts_passed_over ht.controls text hmem).1
  have hdefault : Target.cpp.binding? "default: \x7b".toList = none := binding?_eq_none (by simp)
  have hkey : Target.cpp.binding? (keyText t.base).toList = some "key" := by
    have hcut : (keyText t.base).toList = "const long long".toList ++ ' ' :: ("key".toList ++
        ' ' :: '=' :: (" (long long)instr->opcode * ".toList ++ ((toString t.base.toNat).toList ++
          " + instr->operand[0]->type;".toList))) := by
      simp [toList_keyText]
    rw [hcut]
    exact binding?_append (by decide) (by decide) (by decide) (by decide)
  simp only [front, List.filterMap_append, hcontrols, List.filterMap_cons, hloop, hinstruction,
    hopcode, hdefault, hkey, List.filterMap_nil, List.nil_append, List.cons_append]

theorem armsOpening_not_mem_front (ht : t.Spelled) : Target.cpp.armsOpening.toList ∉ front o t := by
  have hcontrols : "switch (key) \x7b".toList ∉ (controlTexts o t.controls).map String.toList :=
    fun hmem => by
      obtain ⟨text, htext, he⟩ := List.mem_map.1 hmem
      exact (controlTexts_passed_over ht.controls text htext).2 he
  have hinstruction : "switch (key) \x7b".toList ≠ instructionLine o := by
    intro he
    have hmem : '*' ∈ instructionLine o := by simp [instructionLine]
    rw [← he] at hmem
    simp at hmem
  have hloop : "switch (key) \x7b".toList ≠ loopLine o := by
    unfold loopLine
    simp
  have hkey : "switch (key) \x7b".toList ≠ (keyText t.base).toList := by simp [toList_keyText]
  simp only [front, Target.armsOpening, List.mem_append, List.mem_cons, List.not_mem_nil, or_false,
    not_or]
  exact ⟨⟨hloop, hinstruction, by simp⟩, hcontrols, by simp, hkey⟩

theorem scope?_routine (ho : o.validate = .ok ()) (ht : t.Spelled) (style : IndentStyle)
    (depth : Nat) :
    Target.cpp.scope? ((routine o t).text style depth) =
      some { routine := o.symbols.routineName, bound := Target.cpp.localNames } := by
  have hs := Options.spelled_of_validate ho
  have hlines : bareLines ((routine o t).text style depth) =
      ((o.symbols.statusType.toList ++ ' ' :: (o.symbols.routineName.toList ++ [])) ++ '(' ::
        (joinWith ',' (parameters o) ++ ')' :: " \x7b".toList)) ::
          (front o t ++ Target.cpp.armsOpening.toList ::
            ((t.arms.flatMap (armTexts o t.base) ++ closing o).map String.toList ++ [[]])) := by
    rw [bareLines_routine hs ht style depth, toList_opening]
    simp [cases, front, Target.armsOpening]
  have hroutine : lastWord (o.symbols.statusType.toList ++ ' ' ::
      (o.symbols.routineName.toList ++ [])) = o.symbols.routineName :=
    lastWord_append (Options.isIdentifier_of_validate ho _ (by simp [Symbols.identifiers]))
      (by decide) _ (by simp)
  have hhead : '(' ∉ o.symbols.statusType.toList ++
      ' ' :: (o.symbols.routineName.toList ++ []) := by
    have h := hs.not_mem (c := '(') (by decide)
    simp only [Symbols.toList, List.forall_mem_cons] at h
    simp [h]
  have hparameters : ')' ∉ joinWith ',' (parameters o) := by
    have h := hs.not_mem (c := ')') (by decide)
    simp only [Symbols.toList, List.forall_mem_cons] at h
    simp [parameters, joinWith, h]
  rw [Target.scope?_eq hlines hhead hparameters (armsOpening_not_mem_front ht), hroutine,
    splitAt_parameters hs, map_parameters, filterMap_front hs ht]
  rfl

end Cpp

/-! ## Rust -/

namespace Rust

variable {o : Options} {t : Table}

theorem binding?_cons {c : Char} (hl : c ≠ 'l') (hf : c ≠ 'f') (line : List Char) :
    Target.rust.binding? (c :: line) = none := by
  simp [Target.binding?, after?, List.dropPrefix?, hl, hf]

theorem binding?_controls : ∀ text ∈ Layout.texts (Rust.controls o t.controls),
    Target.rust.binding? text.toList = none := by
  refine forall_mem_controls ?_ ?_ (by decide) (by decide)
  · unfold namesText
    rw [String.toList_append]
    exact binding?_cons (by decide) (by decide) _
  · rw [toList_controlsText]
    exact binding?_cons (by decide) (by decide) _

/-- The lines between the signature and the arms. -/
def behindSignature (o : Options) (t : Table) : List (List Char) :=
  ["for instr in instructions \x7b".toList, "let opcode = instr.opcode();".toList] ++
    ((Layout.texts (Rust.controls o t.controls) ++ elementTexts o).map String.toList ++
      [(keyText t.base).toList])

theorem toList_front (o : Options) (t : Table) : (front o t).map String.toList =
    (("pub fn".toList ++ ' ' :: (o.symbols.routineName.toList ++ [])) ++ '(' ::
        (("instructions: &[".toList ++ (o.symbols.instructionType.toList ++ [']'])) ++ ')' ::
          (" -> ".toList ++ (o.symbols.statusType.toList ++ " \x7b".toList)))) ::
      behindSignature o t := by
  have hopening : (opening o).map String.toList =
      [("pub fn".toList ++ ' ' :: (o.symbols.routineName.toList ++ [])) ++ '(' ::
          (("instructions: &[".toList ++ (o.symbols.instructionType.toList ++ [']'])) ++ ')' ::
            (" -> ".toList ++ (o.symbols.statusType.toList ++ " \x7b".toList))),
        "for instr in instructions \x7b".toList, "let opcode = instr.opcode();".toList] := by
    simp [opening]
  rw [front, List.map_append, List.map_append, List.map_append, hopening]
  simp only [behindSignature, List.cons_append, List.nil_append, List.append_assoc,
    List.map_append, List.map_cons, List.map_nil]

theorem filterMap_behindSignature : (behindSignature o t).filterMap Target.rust.binding? =
    ["instr", "opcode", "element", "key"] := by
  have hopening : ["for instr in instructions \x7b".toList,
      "let opcode = instr.opcode();".toList].filterMap Target.rust.binding? =
        ["instr", "opcode"] := by
    decide
  have hcontrols : ((Layout.texts (Rust.controls o t.controls)).map String.toList).filterMap
      Target.rust.binding? = [] := by
    rw [List.filterMap_eq_nil_iff, List.forall_mem_map]
    exact binding?_controls
  have hnone : Target.rust.binding? (s!"None => {refuse o},").toList = none := by
    rw [String.toList_append, String.toList_append]
    exact binding?_cons (by decide) (by decide) _
  have helement : ((elementTexts o).map String.toList).filterMap Target.rust.binding? =
      ["element"] := by
    simp only [elementTexts, List.map_cons, List.filterMap_cons, hnone]
    decide
  have hkey : [(keyText t.base).toList].filterMap Target.rust.binding? = ["key"] := by
    rw [toList_keyText]
    rfl
  rw [behindSignature, List.filterMap_append, List.filterMap_append, List.map_append,
    List.filterMap_append, hopening, hcontrols, helement, hkey]
  rfl

theorem armsOpening_not_mem_behindSignature :
    Target.rust.armsOpening.toList ∉ behindSignature o t := by
  intro hmem
  have hfront : Target.rust.armsOpening.toList ∈ (front o t).map String.toList :=
    toList_front o t ▸ List.mem_cons_of_mem _ hmem
  obtain ⟨text, htext, he⟩ := List.mem_map.1 hfront
  have hopens := opensMatch_of_mem_front text htext
  rw [he] at hopens
  exact absurd hopens (by decide)

theorem scope?_routine (ho : o.validate = .ok ()) (ht : t.Spelled) (style : IndentStyle)
    (depth : Nat) :
    Target.rust.scope? ((routine o t).text style depth) =
      some { routine := o.symbols.routineName, bound := Target.rust.localNames } := by
  have hs := Options.spelled_of_validate ho
  have hlines := bareLines_routine hs ht style depth
  rw [toList_front, List.append_assoc, List.cons_append] at hlines
  have hname : isIdentifier o.symbols.routineName = true :=
    Options.isIdentifier_of_validate ho _ (by simp [Symbols.identifiers])
  have hroutine : lastWord ("pub fn".toList ++ ' ' :: (o.symbols.routineName.toList ++ [])) =
      o.symbols.routineName := lastWord_append hname (by decide) _ (by simp)
  have hhead : '(' ∉ "pub fn".toList ++ ' ' :: (o.symbols.routineName.toList ++ []) := by
    have h := not_mem_of_isTypeToken (isTypeToken_of_isIdentifier hname) (c := '(') (by decide)
    simp [h]
  have h := hs.not_mem (c := ')') (by decide)
  have h' := hs.not_mem (c := ',') (by decide)
  simp only [Symbols.toList, List.forall_mem_cons] at h h'
  have hparameters : ')' ∉ "instructions: &[".toList ++
      (o.symbols.instructionType.toList ++ [']']) := by
    simp [h]
  have hone : splitAt ',' ("instructions: &[".toList ++
      (o.symbols.instructionType.toList ++ [']'])) = ["instructions: &[".toList ++
        (o.symbols.instructionType.toList ++ [']'])] :=
    splitAt_of_not_mem (by simp [h'])
  rw [Target.scope?_eq hlines hhead hparameters armsOpening_not_mem_behindSignature, hroutine, hone,
    filterMap_behindSignature]
  rfl

end Rust

/-! ## What names stand for -/

/-- What a name in generated source may stand for. -/
inductive Referent where
  | bound
  | routine
  | opcodeText
  | stub (stub : Stub)
deriving DecidableEq, Repr

namespace Scope

/-- The functions that generated source calls by names of its own, and the stubs. -/
def functions (scope : Scope) (opcodeText : String) (stubs : List Stub) :
    List (String × Referent) :=
  (scope.routine, .routine) :: (opcodeText, .opcodeText) ::
    stubs.map fun stub => (stub.name, .stub stub)

/-- What a name in an arm may stand for: a variable hides all functions, and functions of one name
stand side by side. -/
def referents (scope : Scope) (opcodeText : String) (stubs : List Stub) (name : String) :
    List Referent :=
  if name ∈ scope.bound then [.bound]
  else ((scope.functions opcodeText stubs).filter (·.1 == name)).map Prod.snd

/-- The name of one stub stands for it alone, unless it is taken. -/
theorem referents_eq_stub_iff {scope : Scope} {opcodeText name : String} {stubs : List Stub}
    {stub : Stub} (h : stubs.filter (·.name == name) = [stub]) :
    scope.referents opcodeText stubs name = [.stub stub] ↔
      name ∉ scope.routine :: opcodeText :: scope.bound := by
  have hstubs : ((stubs.map fun stub => (stub.name, Referent.stub stub)).filter (·.1 == name)).map
      Prod.snd = [.stub stub] := by
    rw [List.filter_map, List.map_map]
    exact congrArg (List.map Referent.stub) h
  rw [referents]
  by_cases hbound : name ∈ scope.bound
  · simp [hbound]
  · rw [if_neg hbound, functions]
    by_cases hroutine : scope.routine = name
    · simp [hroutine]
    · by_cases htext : opcodeText = name
      · simp [htext, hroutine]
      · rw [List.filter_cons_of_neg (by simpa using hroutine),
          List.filter_cons_of_neg (by simpa using htext), hstubs]
        simp [Ne.symm hroutine, Ne.symm htext, hbound]

end Scope

/-! ## Accepted catalogs -/

namespace Options

variable (o : Options)

/-- The handlers that the arms of a routine's text name, in order. -/
def callees? (text : String) : Option (List String) :=
  match o.target with
  | .cpp =>
    (Switch.read? o.symbols.iteratePrefix o.keyStyle text).map fun s => s.arms.map (·.handler)
  | .rust => (Routine.read? o.symbols.iteratePrefix text).map fun r => r.arms.map (·.handler)

/-- The names that are taken around the arms. -/
def taken : List String :=
  o.symbols.routineName :: o.symbols.opcodeText :: o.target.localNames

variable {o} {t : Table}

theorem scope?_routine (ho : o.validate = .ok ()) (ht : t.Spelled) :
    o.target.scope? ((o.routine t).text o.indent) =
      some { routine := o.symbols.routineName, bound := o.target.localNames } := by
  cases htarget : o.target with
  | cpp =>
    simp only [routine, htarget]
    exact Cpp.scope?_routine ho ht o.indent 0
  | rust =>
    simp only [routine, htarget]
    exact Rust.scope?_routine ho ht o.indent 0

theorem callees?_routine (ho : o.validate = .ok ()) (ht : t.Spelled) :
    o.callees? ((o.routine t).text o.indent) = some (t.arms.map (·.handler)) := by
  have hs := spelled_of_validate ho
  cases htarget : o.target with
  | cpp =>
    simp only [callees?, routine, htarget]
    rw [Cpp.read?_routine hs ht, Option.map_some, Table.inSwitch, List.map_map]
    rfl
  | rust =>
    simp only [callees?, routine, htarget]
    rw [Rust.read?_routine hs ht, Option.map_some, Table.inRoutine, List.map_map]
    rfl

end Options

namespace Catalog

variable {c : Catalog} {o : Options} {parts : Parts}

/-- The text of a routine, the names taken in it and the handlers it calls. -/
theorem Valid.generate_scope (h : c.Valid) (ho : o.validate = .ok ())
    (hp : parts.hasRoutine = true) :
    ∃ a text, c.generate o parts = .ok a ∧ a.handlers = c.stubs ∧ a.routine = some text ∧
      o.target.scope? text =
        some { routine := o.symbols.routineName, bound := o.target.localNames } ∧
      o.callees? text = some (c.pairs.map fun pair => c.handlerName pair.1) := by
  have hcallees := Options.callees?_routine ho h.spelled_table
  rw [table, List.map_map] at hcallees
  exact ⟨_, _, h.generate_eq ho parts, rfl, routine_render hp,
    Options.scope?_routine ho h.spelled_table, hcallees⟩

/-- Whatever the options, the text of a routine binds its own name and the same variables around its
arms. The handler in an arm means its opcode's stub exactly if its name is not taken there; so all arms
mean stubs exactly if no numeric opcode has a handler with such a name. -/
theorem arms_mean_stubs_iff {decl : CatalogDecl} (hb : decl.build = .ok c)
    (ho : o.validate = .ok ()) (hp : parts.hasRoutine = true) :
    ∃ a text scope names, c.generate o parts = .ok a ∧ a.routine = some text ∧
      o.target.scope? text = some scope ∧ o.callees? text = some names ∧
      scope.routine = o.symbols.routineName ∧ scope.bound = o.target.localNames ∧
      List.Forall₂ (fun pair name => name = c.handlerName pair.1 ∧
        (scope.referents o.symbols.opcodeText a.handlers name = [.stub (c.stub pair.1)] ↔
          name ∉ o.taken)) c.pairs names ∧
      ((∀ name ∈ names, name ∉ o.taken) ↔
        ∀ op ∈ c.opcodes.numeric, c.handlerName op ∉ o.taken) := by
  have h := CatalogDecl.valid_of_build hb
  obtain ⟨a, text, ha, hhandlers, htext, hscope, hcallees⟩ := h.generate_scope ho hp
  refine ⟨a, text, _, _, ha, htext, hscope, hcallees, rfl, rfl, ?_, ?_⟩
  · rw [List.forall₂_map_right_iff, List.forall₂_same]
    intro pair hpair
    rw [hhandlers]
    exact ⟨rfl, Scope.referents_eq_stub_iff (h.filter_stubs (mem_pairs.1 hpair).1)⟩
  · rw [List.forall_mem_map]
    constructor
    · intro hfree op hop
      obtain ⟨type, htype⟩ := List.exists_mem_of_ne_nil _ h.dispatchable_ne_nil
      exact hfree (op, type) (mem_pairs.2 ⟨hop, htype⟩)
    · exact fun hfree pair hpair => hfree pair.1 (mem_pairs.1 hpair).1

/-- `ADD` and `MUL` call their stubs. -/
theorem arms_mean_stubs_iff_addMul :
    CatalogDecl.addMul.build = .ok addMul ∧ (Options.ofTarget .rust).validate = .ok () ∧
      ∃ a text scope names, addMul.generate (.ofTarget .rust) .all = .ok a ∧
        a.routine = some text ∧ Target.rust.scope? text = some scope ∧
        (Options.ofTarget .rust).callees? text = some names ∧
        ∀ name ∈ names, name ∉ (Options.ofTarget .rust).taken := by
  have ho := Options.validate_ofTarget .rust
  obtain ⟨a, text, scope, names, ha, htext, hscope, hnames, -, -, -, hfree⟩ :=
    arms_mean_stubs_iff build_addMul ho (rfl : Parts.all.hasRoutine = true)
  exact ⟨build_addMul, ho, a, text, scope, names, ha, htext, hscope, hnames,
    hfree.2 (by decide +kernel)⟩

end Catalog

/-- Two opcodes that are called as something in every Rust routine is by default. -/
def CatalogDecl.keyExecute : CatalogDecl where
  types := [{ name := "INT32" }]
  groups := [⟨3, [{ name := "KEY" }, { name := "EXECUTE" }]⟩]

/-- `keyExecute`, resolved. -/
def Catalog.keyExecute : Catalog :=
  CatalogDecl.keyExecute.resolved
    [(⟨3, by decide, by decide⟩, [{ name := "KEY" }, { name := "EXECUTE" }])]

/-- An accepted catalog with an arm that names a variable of the routine, and one that names the
routine as much as a stub. -/
theorem key_captured :
    CatalogDecl.keyExecute.build = .ok Catalog.keyExecute ∧
      (Options.ofTarget .rust).validate = .ok () ∧
      ∃ a text scope, Catalog.keyExecute.generate (.ofTarget .rust) .all = .ok a ∧
        a.routine = some text ∧ Target.rust.scope? text = some scope ∧
        (Options.ofTarget .rust).callees? text = some ["key", "execute"] ∧
        "key" ∈ scope.bound ∧ scope.routine = "execute" ∧
        scope.referents "opcode_text" a.handlers "key" = [.bound] ∧
        (scope.referents "opcode_text" a.handlers "execute").length = 2 := by
  have hb : CatalogDecl.keyExecute.build = .ok Catalog.keyExecute := by decide +kernel
  have ho := Options.validate_ofTarget .rust
  obtain ⟨a, text, ha, hhandlers, htext, hscope, hcallees⟩ :=
    (CatalogDecl.valid_of_build hb).generate_scope ho (rfl : Parts.all.hasRoutine = true)
  have hnames : (Catalog.keyExecute.pairs.map fun pair => Catalog.keyExecute.handlerName pair.1) =
      ["key", "execute"] := by
    decide +kernel
  rw [hnames] at hcallees
  refine ⟨hb, ho, a, text, _, ha, htext, hscope, hcallees, by decide, rfl, ?_, ?_⟩
  · rw [hhandlers]
    decide +kernel
  · rw [hhandlers]
    decide +kernel

end DispatchGen
