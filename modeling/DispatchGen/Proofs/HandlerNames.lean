import DispatchGen.Proofs.Acceptance
import DispatchGen.Proofs.Spelling

/-!
# Names of handlers

An opcode's handler is the handler prefix and then the lowercased name, without the opcode prefix
where the name starts with it and goes on. `Naming.remainder` says this of names and prefixes in
ASCII without lowercasing them first, so that letter case is seen not to matter. The prefix is looked
up by its bytes and taken off by their number (`Naming.byteStem?`); lowercasing may change how many
bytes a character has, but both texts are lowercased before, so the slice starts where a character
does (`Naming.byteStem?_eq`). Main statement: `Naming.handlerName_rule`.
-/

namespace DispatchGen

open Text

/-! ## Letter case in ASCII text -/

namespace Text

theorem toLower_ascii {c : Char} (h : c.toNat < 128) :
    asciiLower c = c.toLower ∧ c.toLower.toNat < 128 := by
  have hall : ∀ n < 128, asciiLower (Char.ofNat n) = (Char.ofNat n).toLower ∧
      (Char.ofNat n).toLower.toNat < 128 := by
    decide
  simpa using hall c.toNat h

/-- No other character has an ASCII character for its small form. -/
theorem toNat_lt_of_toLower {c : Char} (h : c.toLower.toNat < 128) : c.toNat < 128 := by
  unfold Char.toLower at h
  split at h
  · next hc =>
    have hle : c.toNat ≤ 'Z'.toNat := hc.2
    exact Nat.lt_of_le_of_lt hle (by decide)
  · exact h

theorem toNat_lt_of_isIdentifier {s : String} (h : isIdentifier s = true) :
    ∀ c ∈ s.toList, c.toNat < 128 := by
  intro c hc
  have hword : (c.isUpper || c.isLower || c.isDigit || c == '_') = true :=
    isWordChar_of_isIdentifier h c hc
  simp only [Bool.or_eq_true, beq_iff_eq, or_assoc] at hword
  rcases hword with h | h | h | rfl
  · have hle : c.toNat ≤ 'Z'.toNat := (of_decide_eq_true h).2
    exact Nat.lt_of_le_of_lt hle (by decide)
  · have hle : c.toNat ≤ 'z'.toNat := of_decide_eq_true (Bool.and_eq_true_iff.1 h).2
    exact Nat.lt_of_le_of_lt hle (by decide)
  · have hle : c.toNat ≤ '9'.toNat := of_decide_eq_true (Bool.and_eq_true_iff.1 h).2
    exact Nat.lt_of_le_of_lt hle (by decide)
  · decide

theorem toList_lowercase_of_ascii {s : String} (h : ∀ c ∈ s.toList, c.toNat < 128) :
    (lowercase s).toList = s.toList.map Char.toLower := by
  rw [toList_lowercase_ascii h]
  exact List.map_congr_left fun c hc => (toLower_ascii (h c hc)).1

end Text

/-! ## Slices of bytes -/

namespace Text

/-- The bytes of `lead` come first in `whole`. -/
def StartsWithBytes (whole lead : String) : Prop :=
  lead.utf8ByteSize ≤ whole.utf8ByteSize ∧
    whole.toByteArray.extract 0 lead.utf8ByteSize = lead.toByteArray

instance (whole lead : String) : Decidable (StartsWithBytes whole lead) :=
  inferInstanceAs (Decidable (_ ∧ _))

/-- The text that starts at a byte of `s`, unless the byte lies inside a character. -/
def fromByte? (s : String) (start : Nat) : Option String :=
  String.fromUTF8? (s.toByteArray.extract start s.utf8ByteSize)

theorem fromByte?_append (lead rest : String) :
    fromByte? (lead ++ rest) lead.utf8ByteSize = some rest := by
  have hbytes : (lead ++ rest).toByteArray.extract lead.utf8ByteSize (lead ++ rest).utf8ByteSize =
      rest.toByteArray := by
    rw [String.toByteArray_append, String.utf8ByteSize_append]
    exact ByteArray.extract_append_eq_right rfl rfl
  rw [fromByte?, hbytes, String.fromUTF8?, dif_pos rest.isValidUTF8]
  rfl

example : fromByte? "aé" 1 = some "é" ∧ fromByte? "aé" 2 = none := by
  decide +kernel

/-- What starts with the bytes of a text starts with the text. -/
theorem startsWithBytes_iff {whole lead : String} :
    StartsWithBytes whole lead ↔ ∃ rest, whole = lead ++ rest := by
  constructor
  · rintro ⟨hle, hbytes⟩
    have hvalid : String.Pos.Raw.IsValid whole ⟨lead.utf8ByteSize⟩ := by
      rw [String.Pos.Raw.isValid_iff_isValidUTF8_extract_zero, hbytes]
      exact ⟨hle, lead.isValidUTF8⟩
    obtain ⟨front, rest, rfl, hfront⟩ := String.Pos.Raw.isValid_iff_exists_append.1 hvalid
    have hsize : lead.utf8ByteSize = front.utf8ByteSize := congrArg String.Pos.Raw.byteIdx hfront
    have hfront : (front.toByteArray ++ rest.toByteArray).extract 0 front.utf8ByteSize =
        front.toByteArray := ByteArray.extract_append_eq_left rfl
    rw [String.toByteArray_append, hsize, hfront] at hbytes
    exact ⟨rest, by rw [String.toByteArray_inj.1 hbytes]⟩
  · rintro ⟨rest, rfl⟩
    rw [StartsWithBytes, String.toByteArray_append, String.utf8ByteSize_append]
    exact ⟨Nat.le_add_right _ _, ByteArray.extract_append_eq_left rfl⟩

end Text

namespace Naming

/-- The stem by its bytes: where the lowercased prefix is not empty, comes first in the lowercased
name and is shorter, the name is sliced behind it. There is none if a slice would break a
character. -/
def byteStem? (naming : Naming) (name : String) : Option String :=
  let lead := lowercase naming.opcodePrefix
  let whole := lowercase name
  if lead ≠ "" ∧ StartsWithBytes whole lead ∧ lead.utf8ByteSize < whole.utf8ByteSize then
    fromByte? whole lead.utf8ByteSize
  else some whole

/-- Whatever the name and the prefix, no slice breaks a character. -/
theorem byteStem?_eq (naming : Naming) (name : String) :
    naming.byteStem? name = some (String.ofList (naming.stem name)) := by
  rw [byteStem?, stem]
  generalize lowercase naming.opcodePrefix = lead
  generalize lowercase name = whole
  by_cases hlead : ∃ rest, whole = lead ++ rest
  · obtain ⟨rest, rfl⟩ := hlead
    have hstarts : StartsWithBytes (lead ++ rest) lead := startsWithBytes_iff.2 ⟨rest, rfl⟩
    have hfits : lead.toList.isPrefixOf (lead.toList ++ rest.toList) = true :=
      List.isPrefixOf_iff_prefix.2 (List.prefix_append ..)
    by_cases hrest : rest = ""
    · -- the prefix is all of the name, and stays
      simp [hrest]
    · by_cases hempty : lead = ""
      · simp [hempty]
      · have hsizes : lead.utf8ByteSize < (lead ++ rest).utf8ByteSize := by
          rw [String.utf8ByteSize_append]
          have hpos : 0 < rest.utf8ByteSize := Nat.pos_of_ne_zero fun h =>
            hrest (String.utf8ByteSize_eq_zero_iff.1 h)
          omega
        have hlength : 0 < rest.toList.length :=
          List.length_pos_iff.2 fun h => hrest (String.toList_eq_nil_iff.1 h)
        rw [if_pos ⟨hempty, hstarts, hsizes⟩, fromByte?_append]
        simp [hfits, hlength]
  · have hstarts : ¬ StartsWithBytes whole lead := fun h => hlead (startsWithBytes_iff.1 h)
    have hlist : lead.toList.isPrefixOf whole.toList = false := by
      refine Bool.eq_false_iff.2 fun h => hlead ?_
      obtain ⟨rest, hrest⟩ := List.isPrefixOf_iff_prefix.1 h
      refine ⟨String.ofList rest, String.toList_inj.1 ?_⟩
      rw [String.toList_append, String.toList_ofList, hrest]
    simp [hstarts, hlist]

/-! ## Stems of ASCII names -/

/-- The name behind the prefix, where the name goes on behind it; letter case does not matter. -/
def remainder (lead name : List Char) : List Char :=
  if lead ≠ [] ∧ lead.length < name.length ∧
      (name.take lead.length).map Char.toLower = lead.map Char.toLower then
    name.drop lead.length
  else name

section
variable {naming : Naming} {name : String} (hp : ∀ c ∈ naming.opcodePrefix.toList, c.toNat < 128)
  (hn : ∀ c ∈ name.toList, c.toNat < 128)
include hp hn

theorem stem_eq_remainder :
    naming.stem name = (remainder naming.opcodePrefix.toList name.toList).map Char.toLower := by
  rw [stem, toList_lowercase_of_ascii hp, toList_lowercase_of_ascii hn, remainder]
  generalize naming.opcodePrefix.toList = lead
  generalize name.toList = whole
  have hcomes : (lead.map Char.toLower).isPrefixOf (whole.map Char.toLower) = true ↔
      (whole.take lead.length).map Char.toLower = lead.map Char.toLower := by
    rw [List.isPrefixOf_iff_prefix, List.prefix_iff_eq_take, List.length_map, List.map_take,
      eq_comm]
  cases lead with
  | nil => simp
  | cons c lead =>
    simp only [Bool.and_eq_true, hcomes, List.length_map, decide_eq_true_eq, ne_eq,
      List.cons_ne_nil, not_false_iff, true_and, and_comm]
    split
    · rw [List.map_drop]
    · rfl

end

theorem remainder_ne_nil {lead name : List Char} (h : name ≠ []) : remainder lead name ≠ [] := by
  rw [remainder]
  split
  · next hcut =>
    rw [Ne, List.drop_eq_nil_iff, Nat.not_le]
    exact hcut.2.1
  · exact h

/-- At most the prefix comes off, once. -/
theorem exists_lead_append_remainder (lead name : List Char) :
    ∃ front, (front = [] ∨ front.map Char.toLower = lead.map Char.toLower) ∧
      name = front ++ remainder lead name := by
  rw [remainder]
  split
  · next hcut => exact ⟨name.take lead.length, .inr hcut.2.2, (List.take_append_drop ..).symm⟩
  · exact ⟨[], .inl rfl, rfl⟩

/-- Letter case decides nothing about what comes off. -/
theorem map_toLower_remainder {lead lead' name name' : List Char}
    (hl : lead'.map Char.toLower = lead.map Char.toLower)
    (hn : name'.map Char.toLower = name.map Char.toLower) :
    (remainder lead' name').map Char.toLower = (remainder lead name).map Char.toLower := by
  have hlead : lead'.length = lead.length := by simpa using congrArg List.length hl
  have hname : name'.length = name.length := by simpa using congrArg List.length hn
  have hnil : lead' ≠ [] ↔ lead ≠ [] := by
    rw [← List.length_pos_iff, hlead, List.length_pos_iff]
  simp only [remainder, hlead, hname, hnil, hl, List.map_take, hn]
  split
  · rw [List.map_drop, List.map_drop, hn]
  · exact hn

/-- The lowercased remainder of a name. -/
def plainStem (naming : Naming) (name : String) : List Char :=
  (remainder naming.opcodePrefix.toList name.toList).map Char.toLower

theorem handlerName_eq {naming : Naming} {name : String}
    (hp : ∀ c ∈ naming.opcodePrefix.toList, c.toNat < 128) (hn : ∀ c ∈ name.toList, c.toNat < 128) :
    naming.handlerName name = naming.handlerPrefix ++ String.ofList (naming.plainStem name) := by
  rw [handlerName, stem_eq_remainder hp hn, plainStem]

theorem handlerName_inj {naming : Naming} {name other : String}
    (hp : ∀ c ∈ naming.opcodePrefix.toList, c.toNat < 128) (hn : ∀ c ∈ name.toList, c.toNat < 128)
    (ho : ∀ c ∈ other.toList, c.toNat < 128) :
    naming.handlerName name = naming.handlerName other ↔
      naming.plainStem name = naming.plainStem other := by
  rw [handlerName_eq hp hn, handlerName_eq hp ho, String.append_right_inj, String.ofList_inj]

/-- Texts that differ in letter case alone are ASCII together. -/
theorem toNat_lt_of_map_toLower {text text' : List Char}
    (h : text'.map Char.toLower = text.map Char.toLower) (ht : ∀ c ∈ text, c.toNat < 128) :
    ∀ c ∈ text', c.toNat < 128 := by
  intro c hc
  have hmem : c.toLower ∈ text.map Char.toLower := h ▸ List.mem_map_of_mem hc
  obtain ⟨d, hd, hlower⟩ := List.mem_map.1 hmem
  exact toNat_lt_of_toLower (hlower ▸ (toLower_ascii (ht d hd)).2)

end Naming

namespace CatalogDecl

theorem handlers_nodup_of_build {decl : CatalogDecl} {c : Catalog} (h : decl.build = .ok c) :
    decl.handlers.Nodup := by
  obtain ⟨shaped, hs, rfl, hc⟩ := build_eq_ok_iff.1 h
  rw [← handlers_resolved hs]
  exact hc.handlers_nodup

/-- Numeric opcodes of two names have two handlers. -/
theorem name_eq_of_handlerName_eq {decl : CatalogDecl} {c : Catalog} (h : decl.build = .ok c)
    {name other : String} (hname : name ∈ decl.numericDecls.map (·.name))
    (hother : other ∈ decl.numericDecls.map (·.name))
    (heq : decl.naming.handlerName name = decl.naming.handlerName other) : name = other := by
  obtain ⟨op, hop, rfl⟩ := List.mem_map.1 hname
  obtain ⟨op', hop', rfl⟩ := List.mem_map.1 hother
  exact congrArg _ (List.inj_on_of_nodup_map (handlers_nodup_of_build h) hop hop' heq)

end CatalogDecl

/-- Every text has a stem, sliced between characters. An identifier loses an ASCII prefix once at
most, whatever the case of either, and never all of its characters; names with one stem have one
handler, and no accepted catalog has two numeric opcodes with such names. -/
theorem Naming.handlerName_rule (naming : Naming) (name : String) :
    (∃ rest, naming.byteStem? name = some rest ∧
      naming.handlerName name = naming.handlerPrefix ++ rest) ∧
    (isIdentifier name = true → (∀ c ∈ naming.opcodePrefix.toList, c.toNat < 128) →
      naming.handlerName name = naming.handlerPrefix ++ String.ofList (naming.plainStem name) ∧
      (∀ (naming' : Naming) (name' : String), naming'.handlerPrefix = naming.handlerPrefix →
        naming'.opcodePrefix.toList.map Char.toLower =
          naming.opcodePrefix.toList.map Char.toLower →
        name'.toList.map Char.toLower = name.toList.map Char.toLower →
          naming'.handlerName name' = naming.handlerName name) ∧
      (∃ front, (front = [] ∨ front = naming.opcodePrefix.toList.map Char.toLower) ∧
        name.toList.map Char.toLower = front ++ naming.plainStem name) ∧
      naming.plainStem name ≠ [] ∧
      ∀ other, isIdentifier other = true →
        (naming.handlerName name = naming.handlerName other ↔
          naming.plainStem name = naming.plainStem other) ∧
        (naming.plainStem name = naming.plainStem other → name ≠ other →
          ∀ decl : CatalogDecl, decl.naming = naming →
            name ∈ decl.numericDecls.map (·.name) → other ∈ decl.numericDecls.map (·.name) →
              ∀ c, decl.build ≠ .ok c)) := by
  refine ⟨⟨_, naming.byteStem?_eq name, rfl⟩, fun hname hp => ?_⟩
  have hn := toNat_lt_of_isIdentifier hname
  refine ⟨handlerName_eq hp hn, ?_, ?_, ?_, ?_⟩
  · intro naming' name' hhandler hlead' hname'
    have hp' := toNat_lt_of_map_toLower hlead' hp
    have hn' := toNat_lt_of_map_toLower hname' hn
    rw [handlerName_eq hp' hn', handlerName_eq hp hn, hhandler, plainStem, plainStem,
      map_toLower_remainder hlead' hname']
  · obtain ⟨front, hfront, hsplit⟩ :=
      exists_lead_append_remainder naming.opcodePrefix.toList name.toList
    refine ⟨front.map Char.toLower, ?_, ?_⟩
    · rcases hfront with rfl | h
      · exact .inl rfl
      · exact .inr h
    · rw [plainStem, ← List.map_append, ← hsplit]
  · have hne : name.toList ≠ [] := fun h => by simp [isIdentifier, h] at hname
    rw [plainStem, Ne, List.map_eq_nil_iff]
    exact remainder_ne_nil hne
  · intro other hother
    have hinj := handlerName_inj hp hn (toNat_lt_of_isIdentifier hother)
    refine ⟨hinj, ?_⟩
    rintro hstem hne decl rfl hmem hmem' c hbuild
    exact hne (CatalogDecl.name_eq_of_handlerName_eq hbuild hmem hmem' (hinj.2 hstem))

/-- `VE_ADD` and `add` have one handler where `ve_` comes off, so no catalog has both. -/
theorem Naming.handlerName_rule_collision :
    let naming : Naming := { opcodePrefix := "ve_", handlerPrefix := "run_" }
    let decl : CatalogDecl := { CatalogDecl.addMul with
      naming, groups := [⟨2, [{ name := "VE_ADD" }, { name := "add" }]⟩] }
    isIdentifier "VE_ADD" = true ∧ (∀ c ∈ naming.opcodePrefix.toList, c.toNat < 128) ∧
      naming.byteStem? "VE_ADD" = some "add" ∧ naming.handlerName "VE_ADD" = "run_add" ∧
      naming.handlerName "Ve_VE_Add" = "run_ve_add" ∧
      naming.handlerName "VE_ADD" = naming.handlerName "add" ∧ ∀ c, decl.build ≠ .ok c := by
  intro naming decl
  have hname : isIdentifier "VE_ADD" = true := by decide
  have hp : ∀ c ∈ naming.opcodePrefix.toList, c.toNat < 128 := by simp [naming]
  obtain ⟨-, hrule⟩ := handlerName_rule naming "VE_ADD"
  obtain ⟨hformula, -, -, -, hothers⟩ := hrule hname hp
  obtain ⟨hsame, hrefused⟩ := hothers "add" (by decide)
  refine ⟨hname, hp, ?_, hformula.trans (by decide), ?_, hsame.2 (by decide), ?_⟩
  · decide +kernel
  · obtain ⟨-, hrule⟩ := handlerName_rule naming "Ve_VE_Add"
    exact (hrule (by decide) hp).1.trans (by decide)
  · exact hrefused (by decide) (by decide) decl rfl (by decide) (by decide)

end DispatchGen
