import DispatchGen.Toml.Assembly

/-!
# Assembling tables in order

What headers and assignments do to a draft whose keys are all new. A table on the way to the end of a
path is reached through `Focus`: changing the table at the end changes nothing else, so a draft can be
followed by its last table alone.
-/

namespace DispatchGen.Toml

/-- A key that no entry has is not found. -/
theorem lookup_eq_none {α : Type} {entries : List (String × α)} {key : String}
    (h : key ∉ entries.map Prod.fst) : entries.lookup key = none := by
  rw [List.lookup_eq_none_iff]
  rintro ⟨k, a⟩ hmem
  simpa using fun hk : key = k => h (hk ▸ List.mem_map_of_mem hmem)

namespace Entries

variable {entries : Entries} {key : String}

theorem put_of_notMem (h : key ∉ entries.map Prod.fst) (node : Node) :
    entries.put key node = entries ++ [(key, node)] := by
  induction entries with
  | nil => rfl
  | cons entry entries ih =>
    rw [List.map_cons, List.mem_cons, not_or] at h
    rw [put, if_neg (Ne.symm h.1), ih h.2, List.cons_append]

theorem put_append (h : key ∉ entries.map Prod.fst) (old node : Node) :
    put (entries ++ [(key, old)]) key node = entries ++ [(key, node)] := by
  induction entries with
  | nil => simp [put]
  | cons entry entries ih =>
    rw [List.map_cons, List.mem_cons, not_or] at h
    rw [List.cons_append, put, if_neg (Ne.symm h.1), ih h.2, List.cons_append]

theorem lookup_append (h : key ∉ entries.map Prod.fst) (node : Node) :
    (entries ++ [(key, node)]).lookup key = some node := by
  rw [List.lookup_append, lookup_eq_none h]
  simp

theorem toValues_append (front behind : Entries) :
    toValues (front ++ behind) = toValues front ++ toValues behind := by
  induction front with
  | nil => simp [toValues]
  | cons entry front ih => simp [toValues, ih]

/-- Values as the entries of a table. -/
def ofValues (entries : List (String × Value)) : Entries :=
  entries.map fun entry => (entry.1, .value entry.2)

@[simp] theorem toValues_ofValues (entries : List (String × Value)) :
    toValues (ofValues entries) = entries := by
  induction entries with
  | nil => rfl
  | cons entry entries ih => simpa [ofValues, toValues, Node.toValue] using ih

/-- Entries and an array of tables behind them, where it has elements. -/
def withTables (entries : Entries) (key : String) : List Entries → Entries
  | [] => entries
  | elements => entries ++ [(key, .tables elements)]

@[simp] theorem withTables_nil (entries : Entries) (key : String) :
    entries.withTables key [] = entries :=
  rfl

theorem withTables_append (entries : Entries) (key : String) (elements : List Entries)
    (last : Entries) :
    entries.withTables key (elements ++ [last]) =
      entries ++ [(key, .tables (elements ++ [last]))] := by
  cases elements <;> rfl

/-! ## Assignments -/

theorem assign_new (h : key ∉ entries.map Prod.fst) {origin : Origin} (horigin : origin ≠ .dotted)
    (v : Value) : assign [] key v origin entries = some (entries ++ [(key, .value v)]) := by
  simp [assign, alter, horigin, lookup_eq_none h, put_of_notMem h]

/-- Assignments to new keys of a table. -/
theorem foldlM_assign {origin : Origin} (horigin : origin ≠ .dotted) (added : List (String × Value))
    (h : (entries.map Prod.fst ++ added.map Prod.fst).Nodup) :
    (added.map fun entry => (DottedKey.mk [] entry.1, entry.2)).foldlM
        (fun entries (key, v) => assign key.path key.last v origin entries) entries =
      some (entries ++ ofValues added) := by
  induction added generalizing entries with
  | nil => simp [ofValues]
  | cons entry added ih =>
    have hnew : entry.1 ∉ entries.map Prod.fst := fun hmem =>
      (List.nodup_append.mp h).2.2 _ hmem _ (by simp) rfl
    have hrest := @ih (entries ++ [(entry.1, .value entry.2)]) (by simpa using h)
    simp only [List.map_cons, List.foldlM_cons, assign_new hnew horigin]
    simpa [ofValues] using hrest

end Entries

theorem inlineTable?_new {entries : List (String × Value)} (h : (entries.map Prod.fst).Nodup) :
    inlineTable? (entries.map fun entry => (DottedKey.mk [] entry.1, entry.2)) =
      some (.table entries) := by
  rw [inlineTable?, Entries.foldlM_assign (by decide) entries (by simpa using h)]
  simp

/-! ## Tables at the end of a path -/

/-- `plug` puts the entries of the table at `path`, which came about by `origin`, in their place in
the document: headers reach that table and change nothing around it. -/
def Focus (path : List String) (origin : Origin) (plug : Entries → Entries) : Prop :=
  ∀ change rest entries,
    Entries.alter .passed change (path ++ rest) .opened (plug entries) =
      (Entries.alter .passed change rest origin entries).map plug

namespace Focus

variable {path : List String} {origin : Origin} {plug : Entries → Entries} {entries : Entries}
  {key : String}

theorem root : Focus [] .opened id := by
  intro change rest entries
  simp

theorem table (h : Focus path origin plug) (hkey : key ∉ entries.map Prod.fst) (made : Origin) :
    Focus (path ++ [key]) made fun inner => plug (entries ++ [(key, .table made inner)]) := by
  intro change rest inner
  rw [List.append_assoc, h]
  simp only [List.cons_append, List.nil_append, Entries.alter, Entries.lookup_append hkey,
    Entries.put_append hkey, reduceCtorEq, false_and, if_false]
  cases Entries.alter .passed change rest made inner <;> rfl

theorem lastElement (h : Focus path origin plug) (hkey : key ∉ entries.map Prod.fst)
    (elements : List Entries) :
    Focus (path ++ [key]) .opened
      fun inner => plug (entries ++ [(key, .tables (elements ++ [inner]))]) := by
  intro change rest inner
  rw [List.append_assoc, h]
  simp only [List.cons_append, List.nil_append, Entries.alter, Entries.lookup_append hkey,
    Entries.put_append hkey, List.getLast?_concat, Option.getD_some, List.dropLast_concat]
  cases Entries.alter .passed change rest .opened inner <;> rfl

theorem alter_eq (h : Focus path origin plug) (change : Origin → Entries → Option Entries)
    (entries : Entries) :
    Entries.alter .passed change path .opened (plug entries) =
      (change origin entries).map plug := by
  have := h change [] entries
  rwa [List.append_nil] at this

/-! ## Statements -/

/-- An assignment to a new key of the open table. -/
theorem apply_assign (h : Focus path origin plug) (horigin : origin ≠ .dotted)
    (hkey : key ∉ entries.map Prod.fst) (v : Value) :
    Draft.apply ⟨plug entries, path⟩ (.assign ⟨[], key⟩ v) =
      some ⟨plug (entries ++ [(key, .value v)]), path⟩ := by
  simp [Draft.apply, h.alter_eq, Entries.assign_new hkey horigin]

/-- The header of a new table. -/
theorem apply_openTable (h : Focus path origin plug) (hkey : key ∉ entries.map Prod.fst)
    (current : List String) :
    Draft.apply ⟨plug entries, current⟩ (.openTable ⟨path, key⟩) =
      some ⟨plug (entries ++ [(key, .table .opened [])]), path ++ [key]⟩ := by
  simp [Draft.apply, h.alter_eq, Entries.openTable, lookup_eq_none hkey,
    Entries.put_of_notMem hkey]

/-- The header of an element of an array of tables, the first of which makes the array. -/
theorem apply_openElement (h : Focus path origin plug) (hkey : key ∉ entries.map Prod.fst)
    (elements : List Entries) (current : List String) :
    Draft.apply ⟨plug (entries.withTables key elements), current⟩ (.openElement ⟨path, key⟩) =
      some ⟨plug (entries.withTables key (elements ++ [[]])), path ++ [key]⟩ := by
  cases elements with
  | nil =>
    simp [Draft.apply, h.alter_eq, Entries.openElement, Entries.withTables,
      lookup_eq_none hkey, Entries.put_of_notMem hkey]
  | cons first elements =>
    simp [Draft.apply, h.alter_eq, Entries.openElement, Entries.withTables,
      Entries.lookup_append hkey, Entries.put_append hkey]

end Focus

end DispatchGen.Toml
