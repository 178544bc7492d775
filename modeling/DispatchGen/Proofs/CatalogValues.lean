import DispatchGen.CatalogFile.Document
import DispatchGen.Proofs.Toml.Assembly

/-!
# Catalog files and their value trees

Reading a value tree undoes writing it, part by part: numbers and choices, opcodes in both their
shapes, types and overrides with any of their options left out, groups, the naming rule, and the file.
The entries of the file may come in any order, as long as they are the ones that were written.
-/

namespace DispatchGen

open Toml

/-! ## Values without parts -/

theorem string?_string (text : String) : (Value.string text).string? = some text :=
  rfl

theorem boolean?_boolean (b : Bool) : (Value.boolean b).boolean? = some b :=
  rfl

theorem below?_natural {n bound : Nat} (h : n < bound) : (natural n).below? bound = some n := by
  have hn : (0 : Int) ≤ n ∧ (n : Int) < bound := ⟨Int.natCast_nonneg n, Int.ofNat_lt.mpr h⟩
  simp only [natural, Value.below?, Value.integer?, Option.bind_eq_bind, Option.bind_some, if_pos hn,
    Int.toNat_natCast]

theorem uint32?_natural (n : UInt32) : (natural n.toNat).uint32? = some n := by
  rw [Value.uint32?, below?_natural n.toNat_lt_size, Option.map_some, UInt32.ofNat_toNat]

theorem uint64?_natural (n : UInt64) : (natural n.toNat).uint64? = some n := by
  rw [Value.uint64?, below?_natural n.toNat_lt_size, Option.map_some, UInt64.ofNat_toNat]

theorem int64_range (n : Int64) : -maxInteger - 1 ≤ n.toInt ∧ n.toInt ≤ maxInteger := by
  have hlow := Int64.le_toInt n
  have hhigh := Int64.toInt_lt n
  rw [maxInteger]
  omega

theorem int64?_integer (n : Int64) : (Value.integer n.toInt).int64? = some n := by
  simp only [Value.int64?, Value.integer?, Option.bind_eq_bind, Option.bind_some,
    if_pos (int64_range n), Int64.ofInt_toInt]

theorem choice?_target (target : Target) :
    (Value.string target.name).choice? Target.choices = some target := by
  cases target <;> rfl

theorem choice?_keyStyle (style : KeyStyle) :
    (Value.string style.name).choice? KeyStyle.choices = some style := by
  cases style <;> rfl

theorem list?_map {α : Type} {read : Value → Option α} {write : α → Value}
    (h : ∀ a, read (write a) = some a) (as : List α) :
    (Value.array (as.map write)).list? read = some as := by
  rw [Value.list?]
  induction as with
  | nil => rfl
  | cons a as ih => simp [h, ih]

/-! ## Optional entries -/

/-- Entries of which some may be left out. -/
def optionalEntries (fields : List (String × Option Value)) : List (String × Value) :=
  fields.flatMap fun field => optionalEntry field.1 field.2

theorem optionalEntries_cons (field : String × Option Value)
    (fields : List (String × Option Value)) :
    optionalEntries (field :: fields) = optionalEntry field.1 field.2 ++ optionalEntries fields :=
  rfl

theorem keys_optionalEntries (fields : List (String × Option Value)) :
    List.Sublist ((optionalEntries fields).map Prod.fst) (fields.map Prod.fst) := by
  induction fields with
  | nil => exact .slnil
  | cons field fields ih =>
    obtain ⟨key, value⟩ := field
    rw [optionalEntries_cons]
    cases value with
    | none => exact ih.cons key
    | some v => exact ih.cons_cons key

theorem mem_optionalEntries {fields : List (String × Option Value)} {key : String} {v : Value} :
    (key, v) ∈ optionalEntries fields ↔ (key, some v) ∈ fields := by
  induction fields with
  | nil => simp [optionalEntries]
  | cons field fields ih =>
    obtain ⟨other, value⟩ := field
    rw [optionalEntries_cons, List.mem_append, ih, List.mem_cons]
    cases value <;> simp [optionalEntry]

theorem lookup_optionalEntries {fields : List (String × Option Value)}
    (hkeys : (fields.map Prod.fst).Nodup) {key : String} {value : Option Value}
    (h : (key, value) ∈ fields) : (optionalEntries fields).lookup key = value := by
  induction fields with
  | nil => cases h
  | cons field fields ih =>
    obtain ⟨hnew, hkeys⟩ := List.nodup_cons.mp hkeys
    rw [optionalEntries_cons, List.lookup_append]
    rcases List.mem_cons.mp h with rfl | h
    · have hnone : (optionalEntries fields).lookup key = none :=
        lookup_eq_none fun hmem => hnew ((keys_optionalEntries fields).subset hmem)
      cases value <;> simp [optionalEntry, hnone]
    · have hmem : key ∈ fields.map Prod.fst := List.mem_map.mpr ⟨_, h, rfl⟩
      have hne : (key == field.1) = false := beq_eq_false_iff_ne.mpr fun heq => hnew (heq ▸ hmem)
      rw [ih hkeys h]
      cases field.2 <;> simp [optionalEntry, List.lookup_cons, hne]

/-- A field that was written, or left out, is read back. -/
theorem Record.optional_eq {α : Type} {entries : List (String × Value)} {field : Field}
    {read : Value → Option α} {write : α → Value} (hread : ∀ a, read (write a) = some a)
    {value : Option α} (h : entries.lookup field.key = value.map write) :
    (Record.named entries).optional field read = some value := by
  rw [Record.optional, Record.get?, h]
  cases value with
  | none => rfl
  | some a => rw [Option.map_some]; simp [hread]

/-! ## Parts of a file -/

theorem OpcodeDecl.ofValue?_detailed {v : Value} {ordinal : UInt32} (h : v.uint32? = some ordinal)
    (name : String) :
    ofValue? (.table [("name", .string name), ("ordinal", v)]) = some ⟨name, some ordinal⟩ := by
  simp [ofValue?, Value.string?, List.lookup_cons, h]

theorem OpcodeDecl.ofValue?_toValue (decl : OpcodeDecl) : ofValue? decl.toValue = some decl := by
  obtain ⟨name, ordinal⟩ := decl
  cases ordinal with
  | none => rfl
  | some ordinal => exact ofValue?_detailed (uint32?_natural ordinal) name

/-- The fields of a type, of which two may be left out. -/
def TypeDecl.fields (decl : TypeDecl) : List (String × Option Value) :=
  [("name", some (.string decl.name)), ("token", decl.token.map .string),
    ("ordinal", decl.ordinal.map fun ordinal => natural ordinal.toNat)]

theorem TypeDecl.toValue_eq (decl : TypeDecl) :
    decl.toValue = .table (optionalEntries decl.fields) := by
  simp [toValue, fields, optionalEntries, optionalEntry]

theorem TypeDecl.nodup_fields (decl : TypeDecl) : (decl.fields.map Prod.fst).Nodup := by
  simp [fields]

theorem TypeDecl.ofValue?_toValue (decl : TypeDecl) : ofValue? decl.toValue = some decl := by
  have hlookup : ∀ {key value}, (key, value) ∈ decl.fields →
      (optionalEntries decl.fields).lookup key = value := lookup_optionalEntries decl.nodup_fields
  have hname : (Record.named (optionalEntries decl.fields)).required ⟨0, "name"⟩ Value.string? =
      some decl.name := by
    have hname :=
      hlookup (show ("name", some (Value.string decl.name)) ∈ decl.fields by simp [fields])
    rw [Record.required, Record.get?, hname]
    rfl
  have htoken : (Record.named (optionalEntries decl.fields)).optional ⟨1, "token"⟩ Value.string? =
      some decl.token :=
    Record.optional_eq string?_string (hlookup (by simp [fields]))
  have hordinal :
      (Record.named (optionalEntries decl.fields)).optional ⟨2, "ordinal"⟩ Value.uint32? =
      some decl.ordinal :=
    Record.optional_eq uint32?_natural (hlookup (by simp [fields]))
  simp only [toValue_eq, ofValue?, Value.record?, hname, htoken, hordinal, Option.bind_eq_bind,
    Option.bind_some]
  rfl

theorem GroupDecl.ofValue?_toValue (group : GroupDecl) : ofValue? group.toValue = some group := by
  have harity := int64?_integer group.arity
  have hopcodes := list?_map OpcodeDecl.ofValue?_toValue group.opcodes
  generalize hv : Value.integer group.arity.toInt = v at harity
  generalize hw : Value.array (group.opcodes.map OpcodeDecl.toValue) = w at hopcodes
  rw [toValue, hv, hw]
  simp [ofValue?, Value.record?, Record.required, Record.get?, List.lookup_cons, harity, hopcodes]

theorem Naming.ofValue?_toValue (naming : Naming) : ofValue? naming.toValue = some naming := by
  simp [toValue, ofValue?, Value.record?, Record.withDefault, Record.optional, Record.get?,
    List.lookup_cons, string?_string]

theorem Symbols.traverse_eq_some {α β : Type} {f : α → Option β} {a : Symbols α} {b : Symbols β}
    (h : ∀ pair ∈ (a.zipWith Prod.mk b).toList, f pair.1 = some pair.2) :
    a.traverse f = some b := by
  simp only [zipWith, toList, List.forall_mem_cons] at h
  simp [traverse, h]

namespace Overrides

/-- The fields of the overrides, each of which may be left out. -/
def fields (overrides : Overrides) : List (String × Option Value) :=
  [("target", overrides.target.map fun target => .string target.name),
    ("key_style", overrides.keyStyle.map fun style => .string style.name),
    ("comments", overrides.comments.map .boolean),
    ("indent", overrides.indent.map fun size => natural size.toNat)] ++
      (Symbols.fields.zipWith Prod.mk overrides.symbols).toList.map fun (field, text) =>
        (field.key, text.map Value.string)

variable (overrides : Overrides)

theorem toValue_eq : overrides.toValue = .table (optionalEntries overrides.fields) := by
  simp [toValue, fields, optionalEntries, Symbols.zipWith, Symbols.toList]

theorem nodup_fields : (overrides.fields.map Prod.fst).Nodup := by
  simp [fields, Symbols.fields, Symbols.zipWith, Symbols.toList]

theorem ofValue?_toValue : ofValue? overrides.toValue = some overrides := by
  have hlookup : ∀ {key value}, (key, value) ∈ overrides.fields →
      (optionalEntries overrides.fields).lookup key = value :=
    lookup_optionalEntries overrides.nodup_fields
  have htarget : (Record.named (optionalEntries overrides.fields)).optional ⟨0, "target"⟩
      (Value.choice? Target.choices) = some overrides.target :=
    Record.optional_eq choice?_target (hlookup (by simp [fields]))
  have hkeyStyle : (Record.named (optionalEntries overrides.fields)).optional ⟨1, "key_style"⟩
      (Value.choice? KeyStyle.choices) = some overrides.keyStyle :=
    Record.optional_eq choice?_keyStyle (hlookup (by simp [fields]))
  have hcomments : (Record.named (optionalEntries overrides.fields)).optional ⟨2, "comments"⟩
      Value.boolean? = some overrides.comments :=
    Record.optional_eq boolean?_boolean (hlookup (by simp [fields]))
  have hindent : (Record.named (optionalEntries overrides.fields)).optional ⟨3, "indent"⟩
      Value.uint64? = some overrides.indent :=
    Record.optional_eq uint64?_natural (hlookup (by simp [fields]))
  have hsymbols : (Symbols.fields.traverse fun field =>
      (Record.named (optionalEntries overrides.fields)).optional field Value.string?) =
        some overrides.symbols := by
    refine Symbols.traverse_eq_some fun pair hpair => ?_
    refine Record.optional_eq string?_string (hlookup (List.mem_append_right _ ?_))
    exact List.mem_map.mpr ⟨pair, hpair, rfl⟩
  simp only [toValue_eq, ofValue?, Value.record?, htarget, hkeyStyle, hcomments, hindent, hsymbols,
    Option.bind_eq_bind, Option.bind_some]
  rfl

end Overrides

/-! ## Files -/

/-- Looking up a key that no other entry has gives the entry's value. -/
theorem lookup_of_nodup_keys {entries : List (String × Value)} {key : String} {v : Value}
    (h : (entries.map Prod.fst).Nodup) (hmem : (key, v) ∈ entries) :
    entries.lookup key = some v := by
  induction entries with
  | nil => simp at hmem
  | cons entry entries ih =>
    rw [List.map_cons, List.nodup_cons] at h
    rw [List.lookup_cons]
    rcases List.mem_cons.1 hmem with rfl | hmem
    · simp
    · have hne : (key == entry.1) = false :=
        beq_false_of_ne fun e => h.1 (e ▸ List.mem_map_of_mem hmem)
      rw [hne]
      exact ih h.2 hmem

theorem Record.withDefault_eq {α : Type} {entries : List (String × Value)} {field : Field}
    {read : Value → Option α} {v : Value} {a : α} (h : entries.lookup field.key = some v)
    (hread : read v = some a) (default : α) :
    (Record.named entries).withDefault field default read = some a := by
  simp [Record.withDefault, Record.optional, Record.get?, h, hread]

namespace CatalogFile

theorem keys_toEntries (file : CatalogFile) : file.toEntries.map Prod.fst =
    ["name", "base", "exclude", "control", "naming", "render", "types", "groups"] :=
  rfl

theorem nodup_keys (file : CatalogFile) : (file.toEntries.map Prod.fst).Nodup := by
  rw [keys_toEntries]
  decide

/-- A file is read back from its entries, in whatever order they come. -/
theorem ofValue?_of_perm {file : CatalogFile} {entries : List (String × Value)}
    (h : entries.Perm file.toEntries) : ofValue? (.table entries) = some file := by
  have hkeys : (entries.map Prod.fst).Nodup := (h.map Prod.fst).nodup_iff.mpr file.nodup_keys
  have hlookup : ∀ {key v}, (key, v) ∈ file.toEntries → entries.lookup key = some v := by
    intro key v hmem
    exact lookup_of_nodup_keys hkeys (h.mem_iff.mpr hmem)
  have hfield : ∀ {α : Type} {field : Field} {read : Value → Option α} {v : Value} {a : α}
      (default : α), read v = some a → (field.key, v) ∈ file.toEntries →
        (Record.named entries).withDefault field default read = some a :=
    fun default hread hmem => Record.withDefault_eq (hlookup hmem) hread default
  have hname : (Record.named entries).withDefault ⟨0, "name"⟩ "catalog" Value.string? =
      some file.decl.name :=
    hfield _ (string?_string _) (by simp [toEntries])
  have hbase : (Record.named entries).withDefault ⟨1, "base"⟩ defaultBase Value.uint32? =
      some file.decl.base :=
    hfield _ (uint32?_natural _) (by simp [toEntries])
  have hexclude : (Record.named entries).withDefault ⟨2, "exclude"⟩ []
      (Value.list? Value.string?) = some file.decl.exclude :=
    hfield _ (list?_map string?_string _) (by simp [toEntries])
  have hcontrol : (Record.named entries).withDefault ⟨3, "control"⟩ []
      (Value.list? OpcodeDecl.ofValue?) = some file.decl.control :=
    hfield _ (list?_map OpcodeDecl.ofValue?_toValue _) (by simp [toEntries])
  have hnaming : (Record.named entries).withDefault ⟨4, "naming"⟩ {} Naming.ofValue? =
      some file.decl.naming :=
    hfield _ (Naming.ofValue?_toValue _) (by simp [toEntries])
  have hrender : (Record.named entries).withDefault ⟨5, "render"⟩ {} Overrides.ofValue? =
      some file.render :=
    hfield _ (Overrides.ofValue?_toValue _) (by simp [toEntries])
  have htypes : (Record.named entries).withDefault ⟨6, "types"⟩ []
      (Value.list? TypeDecl.ofValue?) = some file.decl.types :=
    hfield _ (list?_map TypeDecl.ofValue?_toValue _) (by simp [toEntries])
  have hgroups : (Record.named entries).withDefault ⟨7, "groups"⟩ []
      (Value.list? GroupDecl.ofValue?) = some file.decl.groups :=
    hfield _ (list?_map GroupDecl.ofValue?_toValue _) (by simp [toEntries])
  simp only [ofValue?, Value.record?, hname, hbase, hexclude, hcontrol, hnaming, hrender, htypes,
    hgroups, Option.bind_eq_bind, Option.bind_some]
  rfl

end CatalogFile

end DispatchGen
