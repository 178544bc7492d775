import DispatchGen.Proofs.Emission
import DispatchGen.Proofs.RoutineLines
import DispatchGen.Proofs.SwitchLines

/-!
# Angle brackets around tokens

An arm's call has its token in angle brackets, `iter_3<ve_int32>(instr, &ve_add);`, and a token may
hold angle brackets of its own. `Text.typeArgument?` looks for the bracket that closes the first one
of a line; it reads the token back exactly if the brackets in the token match (`Text.AnglesMatch`).
What may stand in a token is decided one character at a time, so a token whose brackets do not match
is accepted too (`stray_bracket_closes_early`). Main statement: `Catalog.tokens_closed_iff`.
-/

namespace DispatchGen

open Text

namespace Text

/-! ## Matching -/

/-- No angle bracket is closed in front of its partner, and none is left open. -/
structure AnglesMatch (text : List Char) : Prop where
  opened : ∀ front, front <+: text → front.count '>' ≤ front.count '<'
  closed : text.count '<' = text.count '>'

/-- A text closes the angle brackets that are pending in front of it and its own. -/
def ClosesAngles (pending : Nat) (text : List Char) : Prop :=
  (∀ front, front <+: text → front.count '>' ≤ pending + front.count '<') ∧
    pending + text.count '<' = text.count '>'

theorem anglesMatch_iff {text : List Char} : AnglesMatch text ↔ ClosesAngles 0 text := by
  simp only [ClosesAngles, Nat.zero_add]
  exact ⟨fun h => ⟨h.opened, h.closed⟩, fun h => ⟨h.1, h.2⟩⟩

/-- The angle brackets that are pending behind a character. -/
def anglesAfter (pending : Nat) (c : Char) : Nat :=
  if c = '<' then pending + 1 else if c = '>' then pending - 1 else pending

/-- What stands in front of the `>` that closes an angle bracket, and what follows it; `pending`
more angle brackets are open inside. -/
def closeAngle? (pending : Nat) : List Char → Option (List Char × List Char)
  | [] => none
  | c :: text =>
    if c = '>' ∧ pending = 0 then some ([], text)
    else (closeAngle? (anglesAfter pending c) text).map fun (inside, rest) => (c :: inside, rest)

/-- The first angle bracket of a line: what stands in it, and what follows it. -/
def typeArgument? (line : List Char) : Option (List Char × List Char) :=
  (before? '<' line).bind fun (_, rest) => closeAngle? 0 rest

theorem closesAngles_nil {pending : Nat} : ClosesAngles pending [] ↔ pending = 0 := by
  simp [ClosesAngles]

/-- A character in front changes what is pending, and must not close what is not open. -/
theorem closesAngles_cons {pending : Nat} {c : Char} {text : List Char} :
    ClosesAngles pending (c :: text) ↔
      ¬ (c = '>' ∧ pending = 0) ∧ ClosesAngles (anglesAfter pending c) text := by
  have hfronts : (∀ front, front <+: c :: text → front.count '>' ≤ pending + front.count '<') ↔
      ∀ front, front <+: text → (c :: front).count '>' ≤ pending + (c :: front).count '<' := by
    constructor
    · intro h front hf
      exact h (c :: front) (List.cons_prefix_cons.2 ⟨rfl, hf⟩)
    · intro h front hf
      rcases List.prefix_cons_iff.1 hf with rfl | ⟨front', rfl, hf'⟩
      · simp
      · exact h front' hf'
  rw [ClosesAngles, ClosesAngles, hfronts, anglesAfter]
  by_cases hopens : c = '<'
  · subst hopens
    simp [Nat.add_comm, Nat.add_left_comm]
  · by_cases hcloses : c = '>'
    · subst hcloses
      rcases pending with _ | pending
      · have hnil : ¬ ∀ front, front <+: text →
            ('>' :: front).count '>' ≤ 0 + ('>' :: front).count '<' := fun h => by
          simpa using h [] List.nil_prefix
        simp only [hnil, false_and, and_self, not_true]
      · simp [Nat.add_right_comm]
    · simp [hopens, hcloses]

theorem closeAngle?_eq_some_iff {pending : Nat} {text inside rest : List Char} :
    closeAngle? pending text = some (inside, rest) ↔
      text = inside ++ '>' :: rest ∧ ClosesAngles pending inside := by
  induction text generalizing pending inside rest with
  | nil => simp [closeAngle?]
  | cons c text ih =>
    rw [closeAngle?]
    split
    · next hclose =>
      obtain ⟨rfl, rfl⟩ := hclose
      cases inside with
      | nil => simp [closesAngles_nil]
      | cons d inside =>
        simp only [List.cons_append, List.cons.injEq, closesAngles_cons, Option.some.injEq,
          Prod.mk.injEq, List.nil_eq, reduceCtorEq, false_and, false_iff]
        rintro ⟨⟨rfl, -⟩, hopen, -⟩
        exact hopen (by simp)
    · next hopen =>
      simp only [Option.map_eq_some_iff, Prod.exists, Prod.mk.injEq, ih]
      cases inside with
      | nil =>
        simp only [reduceCtorEq, false_and, and_false, exists_false, List.nil_append,
          List.cons.injEq, closesAngles_nil, false_iff]
        rintro ⟨⟨rfl, -⟩, hp⟩
        exact hopen ⟨rfl, hp⟩
      | cons d inside =>
        simp only [List.cons.injEq, List.cons_append, closesAngles_cons]
        constructor
        · rintro ⟨_, _, ⟨rfl, h⟩, ⟨rfl, rfl⟩, rfl⟩
          exact ⟨⟨rfl, rfl⟩, hopen, h⟩
        · rintro ⟨⟨rfl, rfl⟩, -, h⟩
          exact ⟨_, _, ⟨rfl, h⟩, ⟨rfl, rfl⟩, rfl⟩

/-- A token is read back from its angle brackets exactly if those in it match. -/
theorem typeArgument?_append {front token behind rest : List Char} (h : '<' ∉ front) :
    typeArgument? (front ++ '<' :: (token ++ '>' :: behind)) = some (token, rest) ↔
      behind = rest ∧ AnglesMatch token := by
  rw [typeArgument?, before?_append h, Option.bind_some, closeAngle?_eq_some_iff, anglesMatch_iff,
    List.append_cancel_left_eq, List.cons_inj_right]

instance (text : List Char) : Decidable (AnglesMatch text) :=
  decidable_of_iff (typeArgument? ('<' :: (text ++ ['>'])) = some (text, []))
    ((typeArgument?_append List.not_mem_nil).trans (and_iff_right rfl))

example : AnglesMatch "std::complex<float>".toList ∧ ¬ AnglesMatch "a>b<c".toList := by
  decide

end Text

/-! ## Calls -/

namespace Options

/-- The line that calls an arm's handler. -/
def callLine (o : Options) (arm : Arm) : List Char :=
  match o.target with
  | .cpp => (Cpp.callText o arm).toList
  | .rust => (Rust.armText o arm).toList

/-- The first angle bracket of an arm's call holds the arm's token, and the arguments follow. -/
def ClosesToken (o : Options) (arm : Arm) : Prop :=
  ∃ rest, typeArgument? (o.callLine arm) = some (arm.token.toList, '(' :: rest)

variable {o : Options} {t : Table} {arm : Arm}

theorem exists_callLine_eq (ho : o.validate = .ok ()) (arm : Arm) :
    ∃ front rest, '<' ∉ front ∧
      o.callLine arm = front ++ '<' :: (arm.token.toList ++ '>' :: '(' :: rest) := by
  have hiterate : '<' ∉ o.symbols.iteratePrefix.toList := fun h =>
    absurd (isWordChar_of_isIdentifier
      (isIdentifier_of_validate ho _ (by simp [Symbols.identifiers])) _ h) (by decide)
  unfold callLine
  cases o.target with
  | cpp =>
    refine ⟨o.symbols.iteratePrefix.toList ++ (toString arm.arity).toList,
      "instr, &".toList ++ (arm.handler.toList ++ ')' :: ";".toList), ?_, ?_⟩
    · simp [hiterate, not_mem_toString, -Nat.toString_eq_repr]
    · simp [Cpp.toList_callText, -Nat.toString_eq_repr]
  | rust =>
    refine ⟨(toString arm.key.toNat).toList ++ (" => ".toList ++ (o.symbols.iteratePrefix.toList ++
      ((toString arm.arity).toList ++ "::".toList))),
      "instr, ".toList ++ (arm.handler.toList ++ ')' :: Rust.armTail o arm), ?_, ?_⟩
    · simp [hiterate, not_mem_toString, -Nat.toString_eq_repr]
    · simp [Rust.toList_armText, -Nat.toString_eq_repr]

theorem closesToken_iff (ho : o.validate = .ok ()) (arm : Arm) :
    o.ClosesToken arm ↔ AnglesMatch arm.token.toList := by
  obtain ⟨front, rest, hfront, hline⟩ := exists_callLine_eq ho arm
  simp only [ClosesToken, hline, typeArgument?_append hfront]
  constructor
  · rintro ⟨_, -, h⟩
    exact h
  · exact fun h => ⟨rest, rfl, h⟩

theorem callLine_mem_bareLines (hs : o.symbols.Spelled) (ht : t.Spelled) (h : arm ∈ t.arms) :
    o.callLine arm ∈ bareLines ((o.routine t).text o.indent) := by
  unfold callLine Options.routine
  cases o.target with
  | cpp =>
    have harm : (Cpp.callText o arm).toList ∈ (Cpp.cases o t).map String.toList := by
      refine List.mem_map_of_mem (List.mem_append_right _ ?_)
      simp only [List.mem_cons, List.mem_append, List.mem_flatMap]
      exact .inr (.inr (.inr (.inl ⟨arm, h, by simp [Cpp.armTexts]⟩)))
    simp only [Cpp.bareLines_routine hs ht, List.mem_append, List.mem_cons]
    exact .inr (.inr (.inl harm))
  | rust =>
    have harm : (Rust.armText o arm).toList ∈ (Rust.back o t).map String.toList :=
      List.mem_map_of_mem (List.mem_append_left _ (List.mem_map_of_mem h))
    simp only [Rust.bareLines_routine hs ht, List.mem_append, List.mem_cons]
    exact .inl (.inr (.inr harm))

end Options

namespace Catalog

variable {c : Catalog} {o : Options} {parts : Parts}

/-- Whatever the target, the angle bracket that an arm opens in front of its token is closed behind
the token exactly if the token's own angle brackets match; so all arms are read as they were meant
exactly if the tokens of all types that are dispatched match. -/
theorem tokens_closed_iff {decl : CatalogDecl} (hb : decl.build = .ok c) (ho : o.validate = .ok ())
    (hp : parts.hasRoutine = true) :
    ∃ a text, c.generate o parts = .ok a ∧ a.routine = some text ∧
      (∀ arm ∈ a.table.arms, o.callLine arm ∈ bareLines text ∧
        (o.ClosesToken arm ↔ AnglesMatch arm.token.toList)) ∧
      ((∀ arm ∈ a.table.arms, o.ClosesToken arm) ↔
        ∀ type ∈ c.types.dispatchable, AnglesMatch type.token.toList) := by
  have hc := CatalogDecl.valid_of_build hb
  have hlines := fun arm (h : arm ∈ c.table.arms) =>
    Options.callLine_mem_bareLines (Options.spelled_of_validate ho) hc.spelled_table h
  refine ⟨_, _, hc.generate_eq ho parts, routine_render hp,
    fun arm h => ⟨hlines arm h, o.closesToken_iff ho arm⟩, ?_⟩
  simp only [Options.closesToken_iff ho]
  constructor
  · intro harms type ht
    obtain ⟨op, hop⟩ := List.exists_mem_of_ne_nil _ hc.numeric_ne_nil
    exact harms (c.arm op type) (mem_table_arms.2 ⟨op, hop, type, ht, rfl⟩)
  · intro htypes arm h
    obtain ⟨op, -, type, ht, rfl⟩ := mem_table_arms.1 h
    exact htypes type ht

end Catalog

/-- A template instance among the tokens, and an excluded type whose token opens a bracket. -/
def CatalogDecl.complexAdd : CatalogDecl where
  types := [{ name := "FLOAT32", token := some "f32" },
    { name := "COMPLEX", token := some "num::Complex<f32>" },
    { name := "RAW", token := some "Vec<" }]
  exclude := ["RAW"]
  groups := [⟨2, [{ name := "ADD" }]⟩]

/-- Every arm of `complexAdd` is read as it was meant: the token that does not match is in none. -/
theorem Catalog.tokens_closed_iff_complexAdd :
    ∃ c a text, CatalogDecl.complexAdd.build = .ok c ∧ (Options.ofTarget .rust).validate = .ok () ∧
      c.generate (.ofTarget .rust) .all = .ok a ∧ a.routine = some text ∧
      ¬ (∀ type ∈ c.types.types, AnglesMatch type.token.toList) ∧
      ∀ arm ∈ a.table.arms, (Options.ofTarget .rust).ClosesToken arm := by
  have ho := Options.validate_ofTarget .rust
  let c := CatalogDecl.complexAdd.resolved [(⟨2, by decide, by decide⟩, [{ name := "ADD" }])]
  have hb : CatalogDecl.complexAdd.build = .ok c := by decide +kernel
  obtain ⟨a, text, ha, htext, -, hall⟩ :=
    tokens_closed_iff hb ho (rfl : Parts.all.hasRoutine = true)
  exact ⟨c, a, text, hb, ho, ha, htext, by decide +kernel, hall.2 (by decide +kernel)⟩

/-- A token with one closing bracket too many. -/
def CatalogDecl.strayBracket : CatalogDecl where
  types := [{ name := "INT32", token := some "i32>" }]
  groups := [⟨2, [{ name := "ADD" }]⟩]

/-- An accepted catalog with an arm in which the token itself closes the bracket in front of it, and
accepted options with a type name that leaves a bracket open. -/
theorem stray_bracket_closes_early :
    let o := Options.ofTarget .rust
    let vec := { o with symbols := { o.symbols with instructionType := "Vec<" } }
    ¬ AnglesMatch "i32>".toList ∧ ¬ AnglesMatch "Vec<".toList ∧ vec.validate = .ok () ∧
      o.validate = .ok () ∧ ∃ c a text line, CatalogDecl.strayBracket.build = .ok c ∧
        c.generate o .all = .ok a ∧ a.routine = some text ∧ line ∈ bareLines text ∧
        line = "0 => iter_2::<i32>>(instr, add), // ADD x INT32".toList ∧
        typeArgument? line = some ("i32".toList, ">(instr, add), // ADD x INT32".toList) := by
  intro o vec
  have ho : o.validate = .ok () := Options.validate_ofTarget .rust
  let c := CatalogDecl.strayBracket.resolved [(⟨2, by decide, by decide⟩, [{ name := "ADD" }])]
  have hb : CatalogDecl.strayBracket.build = .ok c := by decide +kernel
  have hc := CatalogDecl.valid_of_build hb
  have hlines := fun arm (h : arm ∈ c.table.arms) =>
    Options.callLine_mem_bareLines (Options.spelled_of_validate ho) hc.spelled_table h
  have hline : c.table.arms.map o.callLine =
      ["0 => iter_2::<i32>>(instr, add), // ADD x INT32".toList] := by
    decide +kernel
  obtain ⟨arm, harm, hcall⟩ := List.mem_map.1 (hline ▸ List.mem_singleton_self _)
  refine ⟨by decide, by decide, by decide +kernel, ho, c, _, _, _, hb, hc.generate_eq ho .all, rfl,
    hlines arm harm, hcall, ?_⟩
  rw [hcall]
  decide +kernel

end DispatchGen
