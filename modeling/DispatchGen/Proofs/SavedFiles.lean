import DispatchGen.Proofs.CatalogValues
import DispatchGen.Proofs.Following
import DispatchGen.Proofs.Toml.Layout
import DispatchGen.Storage.CatalogFile
import DispatchGen.Storage.Workspace
import Mathlib.Algebra.Group.Nat.Defs

/-!
# Saved catalog files

`CatalogFile.survives_saving`: whatever a catalog file holds, its text is read back as the same file,
and so is the file that was saved. The tables of a file are flat, save that groups hold opcodes, so its
document is laid out on three levels (`laid_toEntries`).
-/

namespace DispatchGen

open Toml

/-! ## Values of a file -/

namespace Toml

theorem Value.Inline.of_zero {v : Value} (h : v.Inline 0) (levels : Nat) : v.Inline levels := by
  cases h with
  | string text => exact .string text
  | integer range => exact .integer range
  | boolean b => exact .boolean b

theorem Value.Inline.isSection_eq {v : Value} (h : v.Inline 0) : v.isSection = false := by
  cases h <;> rfl

/-- Entries without parts, under keys of their own. -/
structure Flat (entries : List (String × Value)) : Prop where
  keys : ∀ e ∈ entries, IsBareKey e.1
  distinct : (entries.map Prod.fst).Nodup
  values : ∀ e ∈ entries, e.2.Inline 0

namespace Flat

variable {entries : List (String × Value)}

theorem inline (h : Flat entries) (levels : Nat) : (Value.table entries).Inline (levels + 1) :=
  .table h.keys h.distinct fun e he => (h.values e he).of_zero levels

theorem isSection_eq (h : Flat entries) : ∀ e ∈ entries, e.2.isSection = false :=
  fun e he => (h.values e he).isSection_eq

theorem header (h : Flat entries) : entries = [] ∨ ∃ e ∈ entries, e.2.isSection = false := by
  cases entries with
  | nil => exact .inl rfl
  | cons e es => exact .inr ⟨e, List.mem_cons_self, h.isSection_eq e List.mem_cons_self⟩

theorem arranged_eq (h : Flat entries) : arranged entries = entries := by
  have hplain : plainEntries entries = entries :=
    List.filter_eq_self.mpr fun e he => by simp [h.isSection_eq e he]
  have hsections : sectionEntries entries = [] :=
    List.filter_eq_nil_iff.mpr fun e he => by simp [h.isSection_eq e he]
  rw [arranged, hplain, hsections, List.append_nil]

theorem laid (h : Flat entries) (levels : Nat) : Laid (levels + 1) entries := by
  refine .intro h.keys h.distinct h.arranged_eq (fun e he _ => (h.values e he).of_zero _) ?_ ?_ ?_
  · intro key inner hmem
    cases h.values _ hmem
  · intro key inner hmem
    cases h.values _ hmem
  · intro key items inner hmem
    cases h.values _ hmem

theorem optionalEntries {fields : List (String × Option Value)}
    (keys : ∀ field ∈ fields, IsBareKey field.1) (distinct : (fields.map Prod.fst).Nodup)
    (values : ∀ field ∈ fields, ∀ v ∈ field.2, v.Inline 0) : Flat (optionalEntries fields) where
  keys _ he := keys _ (mem_optionalEntries.mp he)
  distinct := distinct.sublist (keys_optionalEntries fields)
  values _ he := values _ (mem_optionalEntries.mp he) _ rfl

end Flat

end Toml

theorem inline_natural {n : Nat} (h : (n : Int) ≤ maxInteger) (levels : Nat) :
    (natural n).Inline levels := by
  refine .integer ⟨?_, h⟩
  rw [maxInteger]
  omega

theorem inline_uint32 (n : UInt32) (levels : Nat) : (natural n.toNat).Inline levels := by
  refine inline_natural ?_ levels
  have hn := n.toNat_lt
  rw [maxInteger]
  omega

theorem inline_int64 (n : Int64) (levels : Nat) : (Value.integer n.toInt).Inline levels :=
  .integer (int64_range n)

theorem forall_mem_optionMap {α β : Type} {f : α → β} {o : Option α} {p : β → Prop} :
    (∀ b ∈ o.map f, p b) ↔ ∀ a ∈ o, p (f a) := by
  cases o <;> simp

/-! ## Parts of a file -/

theorem OpcodeDecl.toValue_cases (decl : OpcodeDecl) :
    (∃ name, decl.toValue = .string name) ∨
      ∃ entries, decl.toValue = .table entries ∧ Flat entries := by
  obtain ⟨name, ordinal⟩ := decl
  cases ordinal with
  | none => exact .inl ⟨name, rfl⟩
  | some ordinal =>
    refine .inr ⟨_, rfl, ?_, ?_, ?_⟩
    · simp; decide
    · simp
    · simp only [List.forall_mem_cons]
      exact ⟨.string name, inline_uint32 ordinal 0, List.forall_mem_nil _⟩

theorem TypeDecl.flat (decl : TypeDecl) : Flat (optionalEntries decl.fields) := by
  refine .optionalEntries ?_ decl.nodup_fields ?_
  · simp only [fields, List.forall_mem_cons]
    decide
  · simp only [fields, List.forall_mem_cons, forall_mem_optionMap, Option.mem_some_iff, forall_eq']
    exact ⟨.string _, fun _ _ => .string _, fun n _ => inline_uint32 n 0, List.forall_mem_nil _⟩

/-- The overrides may be written as long as their indent is in range. -/
theorem Overrides.flat {overrides : Overrides}
    (hindent : ∀ size ∈ overrides.indent, (size.toNat : Int) ≤ maxInteger) :
    Flat (optionalEntries overrides.fields) := by
  refine .optionalEntries ?_ overrides.nodup_fields ?_
  · simp only [fields, Symbols.fields, Symbols.zipWith, Symbols.toList, List.map_cons, List.map_nil,
      List.forall_mem_append, List.forall_mem_cons]
    decide
  · simp only [fields, List.forall_mem_append, List.forall_mem_cons, List.forall_mem_map,
      forall_mem_optionMap]
    exact ⟨⟨fun _ _ => .string _, fun _ _ => .string _, fun _ _ => .boolean _,
      fun size h => inline_natural (hindent size h) 0, List.forall_mem_nil _⟩,
      fun _ _ _ _ => .string _⟩

theorem Naming.flat (naming : Naming) :
    ∃ entries, naming.toValue = .table entries ∧ Flat entries := by
  refine ⟨_, rfl, ?_, ?_, ?_⟩
  · simp only [List.forall_mem_cons]
    decide
  · simp
  · simp only [List.forall_mem_cons]
    exact ⟨.string _, .string _, List.forall_mem_nil _⟩

theorem inline_opcodes (decls : List OpcodeDecl) (levels : Nat) :
    (Value.array (decls.map OpcodeDecl.toValue)).Inline (levels + 2) := by
  refine .array (List.forall_mem_map.mpr fun decl _ => ?_)
  obtain ⟨name, h⟩ | ⟨entries, h, hflat⟩ := decl.toValue_cases
  · exact h ▸ .string name
  · exact h ▸ hflat.inline levels

/-- Tables in a list of opcodes are flat. -/
theorem flat_of_mem_opcodes {decls : List OpcodeDecl} {inner : List (String × Value)}
    (h : .table inner ∈ decls.map OpcodeDecl.toValue) : Flat inner := by
  obtain ⟨decl, -, hdecl⟩ := List.mem_map.mp h
  obtain ⟨name, hname⟩ | ⟨entries, hentries, hflat⟩ := decl.toValue_cases
  · rw [hname] at hdecl
    cases hdecl
  · rw [hentries, Value.table.injEq] at hdecl
    exact hdecl ▸ hflat

def GroupDecl.entries (group : GroupDecl) : List (String × Value) :=
  [("arity", .integer group.arity.toInt),
    ("opcodes", .array (group.opcodes.map OpcodeDecl.toValue))]

theorem GroupDecl.keys (group : GroupDecl) : ∀ e ∈ group.entries, IsBareKey e.1 := by
  simp only [entries, List.forall_mem_cons]
  decide

theorem GroupDecl.distinct (group : GroupDecl) : (group.entries.map Prod.fst).Nodup := by
  simp [entries]

theorem GroupDecl.values (group : GroupDecl) (levels : Nat) :
    ∀ e ∈ group.entries, e.2.Inline (levels + 2) := by
  simp only [entries, List.forall_mem_cons]
  exact ⟨inline_int64 _ _, inline_opcodes _ _, List.forall_mem_nil _⟩

theorem GroupDecl.inline (group : GroupDecl) (levels : Nat) : group.toValue.Inline (levels + 3) :=
  .table group.keys group.distinct (group.values levels)

theorem GroupDecl.laid (group : GroupDecl) : Laid 2 group.entries := by
  refine .intro group.keys group.distinct ?_ (fun e he _ => group.values _ e he) ?_ ?_ ?_
  · have harity : (Value.integer group.arity.toInt).isSection = false := rfl
    cases hopcodes : (Value.array (group.opcodes.map OpcodeDecl.toValue)).isSection <;>
      simp [arranged, plainEntries, sectionEntries, entries, harity, hopcodes]
  · intro key inner hmem
    simp [entries] at hmem
  · intro key inner hmem
    simp [entries] at hmem
  · intro key items inner hmem _ hinner
    obtain ⟨rfl, rfl⟩ : key = "opcodes" ∧ items = group.opcodes.map OpcodeDecl.toValue := by
      simpa [entries] using hmem
    exact (flat_of_mem_opcodes hinner).laid 0

/-! ## Documents of files -/

namespace CatalogFile

variable {file : CatalogFile}

/-- The overrides of a file may be written. -/
def Expressible (file : CatalogFile) : Prop :=
  ∀ size ∈ file.render.indent, (size.toNat : Int) ≤ maxInteger

theorem inline_of_mem_toEntries : ∀ e ∈ file.toEntries, e.2.isSection = false →
    e.2.Inline (nestingLimit - 1) := by
  have htable : ∀ {entries : List (String × Value)} {p : Prop},
      (Value.table entries).isSection = false → p := fun h => nomatch h
  simp only [toEntries, List.forall_mem_cons]
  refine ⟨fun _ => .string _, fun _ => inline_uint32 _ _, fun _ => ?_, fun _ => inline_opcodes _ _,
    htable, htable, fun _ => ?_, fun _ => ?_, List.forall_mem_nil _⟩
  · exact .array (List.forall_mem_map.mpr fun _ _ => .string _)
  · exact .array (List.forall_mem_map.mpr fun decl _ => decl.toValue_eq ▸ decl.flat.inline _)
  · exact .array (List.forall_mem_map.mpr fun group _ => group.inline _)

theorem flat_of_mem_toEntries (h : file.Expressible) {key : String} {inner : List (String × Value)}
    (hmem : (key, .table inner) ∈ file.toEntries) : Flat inner := by
  obtain ⟨entries, hentries, hflat⟩ := file.decl.naming.flat
  simp [toEntries, natural, hentries, Overrides.toValue_eq] at hmem
  rcases hmem with ⟨-, rfl⟩ | ⟨-, rfl⟩
  · exact hflat
  · exact Overrides.flat h

theorem laid_of_mem_toEntries {key : String} {items : List Value} {inner : List (String × Value)}
    (hmem : (key, .array items) ∈ file.toEntries) (hinner : .table inner ∈ items) :
    Laid 2 inner := by
  simp only [toEntries, natural, Naming.toValue, Overrides.toValue, List.mem_cons, Prod.mk.injEq,
    Value.array.injEq, reduceCtorEq, List.not_mem_nil, and_false, or_false, false_or] at hmem
  rcases hmem with ⟨-, rfl⟩ | ⟨-, rfl⟩ | ⟨-, rfl⟩ | ⟨-, rfl⟩
  · simp at hinner
  · exact (flat_of_mem_opcodes hinner).laid 1
  · obtain ⟨decl, -, hdecl⟩ := List.mem_map.mp hinner
    rw [TypeDecl.toValue_eq, Value.table.injEq] at hdecl
    exact hdecl ▸ decl.flat.laid 1
  · obtain ⟨group, -, hgroup⟩ := List.mem_map.mp hinner
    rw [GroupDecl.toValue, Value.table.injEq] at hgroup
    exact hgroup ▸ group.laid

theorem laid_toEntries (h : file.Expressible) : Laid 3 (arranged file.toEntries) := by
  have hperm := arranged_perm file.toEntries
  refine .intro ?_ ?_ (arranged_arranged _) ?_ ?_ ?_ ?_
  · intro e he
    have hkey := List.mem_map_of_mem (f := Prod.fst) (hperm.mem_iff.mp he)
    rw [keys_toEntries] at hkey
    revert hkey
    generalize e.1 = key
    revert key
    decide
  · exact (hperm.map Prod.fst).nodup_iff.mpr file.nodup_keys
  · exact fun e he => inline_of_mem_toEntries e (hperm.mem_iff.mp he)
  · exact fun key inner hmem => (flat_of_mem_toEntries h (hperm.mem_iff.mp hmem)).header
  · exact fun key inner hmem => (flat_of_mem_toEntries h (hperm.mem_iff.mp hmem)).laid 1
  · exact fun key items inner hmem _ hinner => laid_of_mem_toEntries (hperm.mem_iff.mp hmem) hinner

theorem toText_eq (h : file.Expressible) : file.toText = .ok (Value.document file.toEntries) := by
  rw [toText, if_pos]
  cases hindent : file.render.indent with
  | none => decide
  | some size => exact h size hindent

theorem plainEntries_toEntries (file : CatalogFile) : plainEntries file.toEntries ≠ [] :=
  List.ne_nil_of_mem (a := ("name", .string file.decl.name))
    (by simp [plainEntries, toEntries, Value.isSection])

/-- The text layer gives back what was written, plain entries first. -/
theorem parse?_document (h : file.Expressible) :
    Toml.parse? (Value.document file.toEntries) = some (.table (arranged file.toEntries)) :=
  (laid_toEntries h).parse?_document (by decide) (plainEntries_toEntries file)

theorem ofText_eq_ok {text : String} {v : Value} (htext : Toml.parse? text = some v)
    (hv : ofValue? v = some file) : ofText text = .ok file := by
  rw [ofText, htext]
  simp only [hv]

/-- The text of a file is read back as the file. -/
theorem ofText_document (h : file.Expressible) :
    ofText (Value.document file.toEntries) = .ok file :=
  ofText_eq_ok (parse?_document h) (ofValue?_of_perm (arranged_perm _))

end CatalogFile

/-! ## Files that were written -/

namespace Tree

variable {t : Tree} {location : Location}

/-- Where a file may be written there is neither a directory nor a link. -/
theorem keeps_put_file (h : t.mayWrite location = true) (content : ByteArray) :
    t.Keeps (t.put location (.file content)) := by
  rw [mayWrite] at h
  cases hentry : t.entry? location with
  | none => exact keeps_put (by simp [isSearchable, hentry]) (by simp [target?, hentry]) rfl
  | some entry =>
    rw [hentry] at h
    have hfile : entry.isSearchable = false ∧ entry.target? = none := by
      cases entry with
      | directory => cases h
      | file => exact ⟨rfl, rfl⟩
      | link => cases h
    exact keeps_put (by simp [isSearchable, hentry, hfile.1]) (by simp [target?, hentry, hfile.2])
      rfl

theorem entryAt?_write {t' : Tree} {path : Path} {content : ByteArray}
    (h : t.write? path content = some t') : t'.entryAt? path = some (.file content) := by
  obtain ⟨location, hfollow, hmay, rfl⟩ := eq_put_of_write? h
  have hput : (t.put location (.file content)).follow path = .ok location :=
    (keeps_put_file hmay content).follow hfollow
  rw [entryAt?, hput]
  simp [Except.toOption, put]

end Tree

namespace Workspace

variable {w w' : Workspace} {path : Path} {text : String}

theorem entryAt?_write {content : ByteArray} (h : w.write? path content = some w') :
    w'.entryAt? path = some (.file content) := by
  simp only [write?, Option.bind_eq_bind, Option.bind_eq_some_iff] at h
  obtain ⟨absolute, habsolute, tree, htree, h⟩ := h
  obtain rfl := Option.some.inj h
  have hroot : fromRoot? { w with tree } path = some absolute := habsolute
  rw [entryAt?, hroot]
  exact Tree.entryAt?_write htree

theorem text?_write (h : w.write? path text.toUTF8 = some w') : w'.text? path = some text := by
  rw [text?, entryAt?_write h]
  simp only [Access.mayLook, if_true, String.fromUTF8?]
  exact dif_pos text.isValidUTF8

theorem isSome_entryAt?_of_text? (h : w.text? path = some text) :
    (w.entryAt? path).isSome = true := by
  rw [text?] at h
  split at h
  case h_1 content access hentry => exact hentry ▸ rfl
  case h_2 => cases h

end Workspace

theorem Host.run_orFault {σ α : Type} (action : StateM σ (Except String α)) (s : σ) :
    (Host.orFault action : ExceptT Fault (StateM σ) α).run.run s =
      match action.run s with
      | (.ok a, s') => (.ok a, s')
      | (.error detail, s') => (.error (.fileAccess detail), s') := by
  simp only [Host.orFault, ExceptT.run_mk, StateT.run_bind]
  change (match action.run s with | (r, s') => _) = _
  rcases action.run s with ⟨r, s'⟩
  cases r <;> rfl

namespace CatalogFile

variable {file : CatalogFile} {path : Path} {text : String} {w : Workspace}

theorem run_save (h : file.toText = .ok text) (path : Path) (w : Workspace) :
    (file.save path : ExceptT Fault (StateM Workspace) Unit).run.run w =
      match w.write? path text.toUTF8 with
      | some changed => (.ok (), changed)
      | none => (.error (.fileAccess "the path cannot be written"), w) := by
  have hsave : (file.save path : ExceptT Fault (StateM Workspace) Unit) =
      Host.orFault (Host.writeText path text) := by
    rw [save, h]
    rfl
  rw [hsave, Host.run_orFault, Workspace.run_writeText]
  cases w.write? path text.toUTF8 <;> rfl

/-- All that loading a file may come to. -/
theorem run_load (path : Path) (w : Workspace) :
    (load path : ExceptT Fault (StateM Workspace) CatalogFile).run.run w =
      if (w.entryAt? path).isSome then
        match w.text? path with
        | none => (.error (.fileAccess "the path is not a text file"), w)
        | some text =>
          match ofText text with
          | .ok file => (.ok file, w.told [.fileLoaded path.text])
          | .error fault => (.error fault, w)
      else (.error (.missingFile path.text), w) := by
  have hpresent : (Host.present path : ExceptT Fault (StateM Workspace) Bool).run.run w =
      (.ok (w.entryAt? path).isSome, w) :=
    rfl
  rw [load, run_run_bind, hpresent]
  cases (w.entryAt? path).isSome with
  | false => rfl
  | true =>
    simp only [if_true]
    rw [run_run_bind, Host.run_orFault, Workspace.run_readText]
    cases w.text? path with
    | none => rfl
    | some text =>
      cases hfile : ofText text <;> simp only [hfile] <;> rfl

/-- The file is loaded from the path it was saved to. -/
theorem load_of_save {w' : Workspace} (h : file.Expressible)
    (hsave : (file.save path : ExceptT Fault (StateM Workspace) Unit).run.run w = (.ok (), w')) :
    (load path : ExceptT Fault (StateM Workspace) CatalogFile).run.run w' =
      (.ok file, w'.told [.fileLoaded path.text]) := by
  rw [run_save (toText_eq h)] at hsave
  split at hsave
  case h_1 changed hwrite =>
    obtain rfl := (Prod.mk.inj hsave).2
    have htext := Workspace.text?_write hwrite
    rw [run_load, Workspace.isSome_entryAt?_of_text? htext, htext]
    simp only [if_true, ofText_document h]
  case h_2 => cases (Prod.mk.inj hsave).1

/-- A catalog file whose indent, if set, is in the range of integers has a text; the file is what its
values stand for, what its text is read back as, and what is loaded once it has been saved. -/
theorem survives_saving (file : CatalogFile)
    (h : ∀ size ∈ file.render.indent, size.toNat ≤ 2 ^ 63 - 1) :
    ofValue? (.table file.toEntries) = some file ∧
    ∃ text, file.toText = .ok text ∧ ofText text = .ok file ∧
      ∀ (path : Path) (w w' : Workspace),
        (file.save path : ExceptT Fault (StateM Workspace) Unit).run.run w = (.ok (), w') →
        ((load path : ExceptT Fault (StateM Workspace) CatalogFile).run.run w').1 = .ok file := by
  have hexpressible : file.Expressible := fun size hsize => by
    have hbound := h size hsize
    rw [maxInteger]
    omega
  refine ⟨ofValue?_of_perm (.refl _), _, toText_eq hexpressible, ofText_document hexpressible, ?_⟩
  intro path w w' hsave
  rw [load_of_save hexpressible hsave]

/-- Opcodes of both shapes, a type with all its fields and one with none, an empty group and a name
that is not plain text, saved to the root of an empty workspace. -/
theorem survives_saving_mixed :
    let file : CatalogFile := {
      decl := {
        name := "mixed \"table\"\n"
        naming := { opcodePrefix := "NODE_", handlerPrefix := "handle_" }
        types := [{ name := "INT32", token := some "i32", ordinal := some 4 }, { name := "BOOL" }]
        exclude := ["BOOL"]
        control := [{ name := "STOP" }, { name := "WAIT", ordinal := some 9 }]
        groups := [{ arity := 2, opcodes := [{ name := "NODE_ADD", ordinal := some 0 },
          { name := "NODE_MUL" }] }, { arity := -1, opcodes := [] }] }
      render := { comments := some false, indent := some 2 } }
    ofValue? (.table file.toEntries) = some file ∧
    ∃ text, file.toText = .ok text ∧ ofText text = .ok file ∧
      ∃ w, (file.save ⟨"/a.toml"⟩ : ExceptT Fault (StateM Workspace) Unit).run.run .empty =
          (.ok (), w) ∧
        ((load ⟨"/a.toml"⟩ : ExceptT Fault (StateM Workspace) CatalogFile).run.run w).1 =
          .ok file := by
  intro file
  have hindent : ∀ size ∈ file.render.indent, size.toNat ≤ 2 ^ 63 - 1 := by
    intro size hsize
    obtain rfl := Option.some.inj hsize
    decide
  obtain ⟨hvalue, text, htext, hread, hload⟩ := survives_saving file hindent
  have hwrite : ∃ w, Workspace.empty.write? ⟨"/a.toml"⟩ text.toUTF8 = some w := ⟨_, rfl⟩
  obtain ⟨w, hw⟩ := hwrite
  have hsave : (file.save ⟨"/a.toml"⟩ : ExceptT Fault (StateM Workspace) Unit).run.run .empty =
      (.ok (), w) := by
    rw [run_save htext, hw]
  exact ⟨hvalue, text, htext, hread, w, hsave, hload _ _ w hsave⟩

end CatalogFile

end DispatchGen
