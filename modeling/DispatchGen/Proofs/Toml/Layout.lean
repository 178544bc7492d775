import DispatchGen.Proofs.Toml.Inline

/-!
# Documents are read as they were written

`Laid.parse?_document`: a table whose plain values fit on lines, and whose sections do so in turn, is
read back from its document, plain entries first. The text is followed line by line (`Lines`): every
line is a statement, and takes one draft to the next. Within the table that a header opened this is
said of that table alone, through `Focus`.
-/

namespace DispatchGen.Toml

open Reader

/-! ## Statements -/

theorem lineEnd_newline (rest : List Char) : lineEnd ('\n' :: rest) = some ((), rest) := by
  have hcomment := optional_of_none (show comment ('\n' :: rest) = none by simp [comment])
  simp [lineEnd, blanks, isBlank, hcomment, newline]

/-- What a line may hold. -/
def lineBody : Reader Statement :=
  (do word "[["; let key ← dottedKey; word "]]"; return .openElement key) <|>
    (do char '['; let key ← dottedKey; char ']'; return .openTable key) <|>
    (do let (key, v) ← assignment (value (nestingLimit - 1)); return .assign key v)

theorem statement_of_body {c : Char} {cs rest : List Char} {found : Option Statement}
    (hblank : isBlank c = false) (h : optional lineBody (c :: cs) = some (found, '\n' :: rest)) :
    statement (c :: cs) = some (found, rest) := by
  change (do
    guard (← peek).isSome
    blanks
    let found ← optional lineBody
    lineEnd
    return found : Reader (Option Statement)) (c :: cs) = _
  simp only [bind_apply, peek_apply, guard_apply, List.head?_cons, Option.isSome_some, if_true,
    Option.bind_some, blanks, run_apply, List.dropWhile_cons_of_neg (Bool.eq_false_iff.mp hblank),
    pure_apply, h, lineEnd_newline]

theorem statement_blank (rest : List Char) : statement ('\n' :: rest) = some (none, rest) := by
  have hkey := dottedKey_eq_none (c := '\n') (by decide) (by decide) (by decide) rest
  refine statement_of_body (by decide) (optional_of_none ?_)
  simp [lineBody, assignment, hkey]

theorem entryText_eq_cons {entry : String × Value} (hkey : IsBareKey entry.1) :
    ∃ c cs, (entryText entry).toList = c :: cs ∧ ∀ d, isBareKeyChar d = false → c ≠ d := by
  obtain ⟨c, cs, hcs, hc⟩ := hkey.exists_cons
  obtain ⟨tail, htail⟩ : ∃ tail, (entryText entry).toList = c :: tail := by
    rw [← List.head?_eq_some_iff]
    simp [entryText, hkey.keyText_eq, hcs]
  exact ⟨c, tail, htail, hc⟩

theorem statement_assign {entry : String × Value} (hkey : IsBareKey entry.1)
    (hvalue : Reads (value (nestingLimit - 1)) entry.2) (rest : List Char) :
    statement ((entryText entry).toList ++ '\n' :: rest) =
      some (some (.assign ⟨[], entry.1⟩ entry.2), rest) := by
  have hread := assignment_append hkey hvalue [] (by simp)
    (Ends.cons (c := '\n') (by decide) rest)
  obtain ⟨c, tail, htail, hc⟩ := entryText_eq_cons hkey
  have hblank : isBlank c = false := by
    simp [isBlank, hc ' ' (by decide), hc '\t' (by decide)]
  rw [htail, List.cons_append, List.nil_append] at hread
  rw [htail, List.cons_append]
  refine statement_of_body hblank (optional_of_some ?_)
  simp [lineBody, hread, hc '[' (by decide), (hc '[' (by decide)).symm]

section Header

variable {path : List String} {key : String} (hpath : ∀ k ∈ path, IsBareKey k)
  (hkey : IsBareKey key)
include hpath hkey

/-- The text of a path starts like a key. -/
theorem pathText_eq_cons : ∃ c cs, (pathText (path ++ [key])).toList = c :: cs ∧ c ≠ '[' := by
  obtain ⟨first, keys, hkeys, hbare⟩ := path_eq_cons hpath hkey
  obtain ⟨c, cs, hcs, hc⟩ := (hbare first List.mem_cons_self).exists_cons
  have htext : (pathText (path ++ [key])).toList =
      c :: (cs ++ keys.flatMap fun k => '.' :: k.toList) := by
    rw [hkeys, toList_pathText hbare, hcs, List.cons_append]
  exact ⟨c, _, htext, hc '[' (by decide)⟩

variable (hlength : path.length + 1 < nestingLimit) (rest : List Char)
include hlength

theorem statement_openTable :
    statement ('[' :: ((pathText (path ++ [key])).toList ++ ']' :: '\n' :: rest)) =
      some (some (.openTable ⟨path, key⟩), rest) := by
  have hread := dottedKey_path hpath hkey hlength ('\n' :: rest)
  obtain ⟨c, cs, hcs, hc⟩ := pathText_eq_cons hpath hkey
  refine statement_of_body (by decide) (optional_of_some ?_)
  rw [hcs, List.cons_append] at hread ⊢
  simp [lineBody, hread, hc.symm]

theorem statement_openElement :
    statement ('[' :: '[' :: ((pathText (path ++ [key])).toList ++ ']' :: ']' :: '\n' :: rest)) =
      some (some (.openElement ⟨path, key⟩), rest) := by
  have hread := dottedKey_path hpath hkey hlength (']' :: '\n' :: rest)
  refine statement_of_body (by decide) (optional_of_some ?_)
  simp [lineBody, hread]

end Header

/-! ## Lines -/

/-- The text is a series of lines, which take one draft to another. -/
inductive Lines : List Char → Draft → Draft → Prop
  | nil {d : Draft} : Lines [] d d
  | line {code text : List Char} {found : Option Statement} {d mid d' : Draft} (visible : code ≠ [])
      (reads : ∀ rest, statement (code ++ rest) = some (found, rest))
      (applies : found.elim (some d) d.apply = some mid) (more : Lines text mid d') :
      Lines (code ++ text) d d'

theorem Lines.append {front behind : List Char} {d mid d' : Draft} (h : Lines front d mid)
    (h' : Lines behind mid d') : Lines (front ++ behind) d d' := by
  induction h with
  | nil => exact h'
  | line visible reads applies _ ih =>
    rw [List.append_assoc]
    exact .line visible reads applies (ih h')

/-- A header with the empty line above it. -/
theorem Lines.header {code : List Char} {s : Statement} {d mid : Draft}
    (reads : ∀ rest, statement (code ++ rest) = some (some s, rest)) (visible : code ≠ [])
    (applies : d.apply s = some mid) : Lines ('\n' :: code) d mid := by
  have hline : Lines (code ++ []) d mid := .line visible reads applies .nil
  rw [List.append_nil] at hline
  have hlines : Lines (['\n'] ++ code) d mid := .line (by simp) statement_blank rfl hline
  exact hlines

theorem Lines.repeats {text : List Char} {d d' : Draft} (h : Lines text d d') :
    ∃ found, Repeats statement text found [] ∧
      (found.filterMap id).foldlM Draft.apply d = some d' := by
  induction h with
  | nil => exact ⟨[], .stop rfl, rfl⟩
  | @line code text found d mid d' visible reads applies _ ih =>
    obtain ⟨more, hmore, hdraft⟩ := ih
    refine ⟨found :: more, .item (reads text) ?_ hmore, ?_⟩
    · rw [List.length_append]
      exact Nat.lt_add_of_pos_left (List.length_pos_iff.mpr visible)
    · cases found with
      | none =>
        cases applies
        exact hdraft
      | some s =>
        have happly : d.apply s = some mid := applies
        have hfound : (some s :: more).filterMap id = s :: more.filterMap id := rfl
        rw [hfound, List.foldlM_cons, happly]
        exact hdraft

theorem Lines.parse?_eq {text : String} {d : Draft} (h : Lines text.toList {} d)
    (hmark : ∀ c ∈ text.toList.head?, c ≠ '\ufeff') :
    parse? text = some (.table (Entries.toValues d.root)) := by
  obtain ⟨found, hrepeats, hdraft⟩ := h.repeats
  have hoptional : optional (char '\ufeff') text.toList = some (none, text.toList) := by
    refine optional_of_none ?_
    cases htext : text.toList with
    | nil => rfl
    | cons c cs => simp [hmark c (by simp [htext])]
  have hfinish : finish [] = some ((), []) := rfl
  have hdocument : document? (found.filterMap id) = some (.table (Entries.toValues d.root)) := by
    rw [document?, hdraft]
    rfl
  simp only [parse?, statements, bind_apply, hoptional, hrepeats.many_eq, hfinish, Option.bind_some,
    pure_apply]
  exact hdocument

/-! ## Tables -/

def plainEntries (entries : List (String × Value)) : List (String × Value) :=
  entries.filter fun e => !e.2.isSection

def sectionEntries (entries : List (String × Value)) : List (String × Value) :=
  entries.filter fun e => e.2.isSection

/-- The entries of a table in the order in which they are written. -/
def arranged (entries : List (String × Value)) : List (String × Value) :=
  plainEntries entries ++ sectionEntries entries

theorem plainEntries_arranged (entries : List (String × Value)) :
    plainEntries (arranged entries) = plainEntries entries := by
  simp [arranged, plainEntries, sectionEntries]

theorem sectionEntries_arranged (entries : List (String × Value)) :
    sectionEntries (arranged entries) = sectionEntries entries := by
  simp [arranged, plainEntries, sectionEntries]

theorem arranged_arranged (entries : List (String × Value)) :
    arranged (arranged entries) = arranged entries := by
  rw [arranged, plainEntries_arranged, sectionEntries_arranged, arranged]

theorem arranged_perm (entries : List (String × Value)) : (arranged entries).Perm entries := by
  have h := List.filter_append_perm (fun e : String × Value => !e.2.isSection) entries
  simpa [arranged, plainEntries, sectionEntries] using h

section Table

variable {path : List String} {origin : Origin} {plug : Entries → Entries}
  (hfocus : Focus path origin plug) (horigin : origin ≠ .dotted)
include hfocus

include horigin in
/-- Plain entries are assigned one by one. -/
theorem lines_assignments {added : List (String × Value)} (hkeys : ∀ e ∈ added, IsBareKey e.1)
    (hvalues : ∀ e ∈ added, e.2.Inline (nestingLimit - 1)) {entries : Entries}
    (hnew : (entries.map Prod.fst ++ added.map Prod.fst).Nodup) :
    Lines (added.flatMap fun e => (entryText e).toList ++ ['\n']) ⟨plug entries, path⟩
      ⟨plug (entries ++ Entries.ofValues added), path⟩ := by
  induction added generalizing entries with
  | nil => simpa [Entries.ofValues] using Lines.nil
  | cons e added ih =>
    obtain ⟨hkey, hkeys⟩ := List.forall_mem_cons.mp hkeys
    obtain ⟨hvalue, hvalues⟩ := List.forall_mem_cons.mp hvalues
    have hfresh : e.1 ∉ entries.map Prod.fst := fun hmem =>
      (List.nodup_append.mp hnew).2.2 _ hmem _ (by simp) rfl
    have hmore := @ih hkeys hvalues (entries ++ [(e.1, .value e.2)]) (by simpa using hnew)
    have hbehind : entries ++ [(e.1, .value e.2)] ++ Entries.ofValues added =
        entries ++ Entries.ofValues (e :: added) := by
      simp [Entries.ofValues]
    rw [hbehind] at hmore
    have hreads : ∀ rest, statement ((entryText e).toList ++ ['\n'] ++ rest) =
        some (some (.assign ⟨[], e.1⟩ e.2), rest) := by
      intro rest
      rw [List.append_assoc]
      exact statement_assign hkey hvalue.reads rest
    rw [List.flatMap_cons]
    exact .line (by simp) hreads (hfocus.apply_assign horigin hfresh e.2) hmore

/-- A table reads back its entries from the lines under its header. -/
def ReadsBody (path : List String) (entries : List (String × Value)) : Prop :=
  ∀ (origin : Origin) (plug : Entries → Entries), Focus path origin plug → origin ≠ .dotted →
    ∃ added current, Entries.toValues added = entries ∧
      Lines (Value.plainLines entries ++ Value.sections path entries).toList ⟨plug [], path⟩
        ⟨plug added, current⟩

/-- A section becomes one more entry of its table, behind whatever is there. -/
def ReadsSection (path : List String) (plug : Entries → Entries) (e : String × Value) : Prop :=
  ∀ entries : Entries, e.1 ∉ entries.map Prod.fst → ∀ current, ∃ node current',
    node.toValue = e.2 ∧
      Lines (Value.sectionText (path ++ [e.1]) e.2).toList ⟨plug entries, current⟩
        ⟨plug (entries ++ [(e.1, node)]), current'⟩

variable (hpath : ∀ k ∈ path, IsBareKey k) (hlength : path.length + 1 < nestingLimit) {key : String}
  (hkey : IsBareKey key)
include hpath hlength hkey

section Header

variable {entries : Entries} (hnew : key ∉ entries.map Prod.fst)
include hnew

theorem lines_table {inner : List (String × Value)} (hinner : ReadsBody (path ++ [key]) inner)
    (hheader : inner = [] ∨ ∃ e ∈ inner, e.2.isSection = false) (current : List String) :
    ∃ node current', node.toValue = .table inner ∧
      Lines (Value.sectionText (path ++ [key]) (.table inner)).toList ⟨plug entries, current⟩
        ⟨plug (entries ++ [(key, node)]), current'⟩ := by
  obtain ⟨added, current', hadded, hlines⟩ := hinner _ _ (hfocus.table hnew .opened) (by decide)
  have hheading : (inner.isEmpty || inner.any fun e => !e.2.isSection) = true := by
    rcases hheader with rfl | ⟨e, he, hplain⟩
    · rfl
    · simp only [Bool.or_eq_true, List.any_eq_true]
      exact .inr ⟨e, he, by simp [hplain]⟩
  have hopen : Lines ('\n' :: '[' :: ((pathText (path ++ [key])).toList ++ [']', '\n']))
      ⟨plug entries, current⟩ ⟨plug (entries ++ [(key, .table .opened [])]), path ++ [key]⟩ :=
    .header (fun rest => by simpa using statement_openTable hpath hkey hlength rest) (by simp)
      (hfocus.apply_openTable hnew current)
  refine ⟨.table .opened added, current', by rw [Node.toValue, hadded], ?_⟩
  have htext : (Value.sectionText (path ++ [key]) (.table inner)).toList =
      ('\n' :: '[' :: ((pathText (path ++ [key])).toList ++ [']', '\n'])) ++
        (Value.plainLines inner ++ Value.sections (path ++ [key]) inner).toList := by
    rw [Value.sectionText, Value.tableHeader, if_pos hheading]
    simp
  rw [htext]
  exact hopen.append hlines

theorem lines_elements {items : List Value} (htables : items.all Value.isTable)
    (hitems : ∀ inner, .table inner ∈ items → ReadsBody (path ++ [key]) inner)
    (elements : List Entries) (current : List String) :
    ∃ added current', Entries.toTables added = items ∧
      Lines (Value.elements (path ++ [key]) items).toList
        ⟨plug (entries.withTables key elements), current⟩
        ⟨plug (entries.withTables key (elements ++ added)), current'⟩ := by
  induction items generalizing elements current with
  | nil => exact ⟨[], current, rfl, by simpa [Value.elements] using Lines.nil⟩
  | cons item items ih =>
    rw [List.all_cons, Bool.and_eq_true] at htables
    obtain ⟨inner, rfl⟩ : ∃ inner, item = .table inner := by
      cases item <;> simp [Value.isTable] at htables ⊢
    obtain ⟨first, current₁, hfirst, hbody⟩ :=
      hitems inner List.mem_cons_self _ _ (hfocus.lastElement hnew elements) (by decide)
    obtain ⟨added, current₂, hadded, hrest⟩ :=
      ih htables.2 (fun inner h => hitems inner (List.mem_cons_of_mem _ h)) (elements ++ [first])
        current₁
    have hopen :
        Lines ('\n' :: '[' :: '[' :: ((pathText (path ++ [key])).toList ++ [']', ']', '\n']))
        ⟨plug (entries.withTables key elements), current⟩
        ⟨plug (entries.withTables key (elements ++ [[]])), path ++ [key]⟩ :=
      .header (fun rest => by simpa using statement_openElement hpath hkey hlength rest) (by simp)
        (hfocus.apply_openElement hnew elements current)
    rw [← Entries.withTables_append, ← Entries.withTables_append] at hbody
    refine ⟨first :: added, current₂, by rw [Entries.toTables, hfirst, hadded], ?_⟩
    have htext : (Value.elements (path ++ [key]) (.table inner :: items)).toList =
        ('\n' :: '[' :: '[' :: ((pathText (path ++ [key])).toList ++ [']', ']', '\n'])) ++
          ((Value.plainLines inner ++ Value.sections (path ++ [key]) inner).toList ++
            (Value.elements (path ++ [key]) items).toList) := by
      rw [Value.elements]
      simp
    rw [List.append_assoc, List.singleton_append] at hrest
    rw [htext]
    exact hopen.append (hbody.append hrest)

end Header

theorem readsSection {v : Value} (hsection : v.isSection)
    (htable : ∀ inner, v = .table inner → ReadsBody (path ++ [key]) inner ∧
      (inner = [] ∨ ∃ e ∈ inner, e.2.isSection = false))
    (harray : ∀ items inner, v = .array items → .table inner ∈ items →
      ReadsBody (path ++ [key]) inner) : ReadsSection path plug (key, v) := by
  intro entries hnew current
  match v with
  | .table inner =>
    obtain ⟨hinner, hheader⟩ := htable inner rfl
    exact lines_table hfocus hpath hlength hkey hnew hinner hheader current
  | .array items =>
    rw [Value.isSection, Bool.and_eq_true] at hsection
    obtain ⟨added, current', hadded, hlines⟩ := lines_elements hfocus hpath hlength hkey hnew
      hsection.2 (fun inner => harray items inner rfl) [] current
    refine ⟨.tables added, current', by rw [Node.toValue, hadded], ?_⟩
    rw [Value.sectionText, if_pos hsection.2]
    cases added with
    | nil =>
      rw [← hadded] at hsection
      cases hsection.1
    | cons first added => exact hlines

end Table

/-- Sections become further entries, one by one. -/
theorem lines_sections {path : List String} {plug : Entries → Entries}
    {added : List (String × Value)} (hsections : ∀ e ∈ added, ReadsSection path plug e)
    {entries : Entries} (hnew : (entries.map Prod.fst ++ added.map Prod.fst).Nodup)
    (current : List String) :
    ∃ nodes current', Entries.toValues nodes = added ∧
      Lines (Value.sections path added).toList ⟨plug entries, current⟩
        ⟨plug (entries ++ nodes), current'⟩ := by
  induction added generalizing entries current with
  | nil => exact ⟨[], current, rfl, by simpa [Value.sections] using Lines.nil⟩
  | cons e added ih =>
    obtain ⟨hsection, hmore⟩ := List.forall_mem_cons.mp hsections
    have hfresh : e.1 ∉ entries.map Prod.fst := fun hmem =>
      (List.nodup_append.mp hnew).2.2 _ hmem _ (by simp) rfl
    obtain ⟨node, current₁, hnode, hfirst⟩ := hsection entries hfresh current
    obtain ⟨nodes, current₂, hnodes, hrest⟩ :=
      @ih hmore (entries ++ [(e.1, node)]) (by simpa using hnew) current₁
    rw [List.append_assoc, List.singleton_append] at hrest
    refine ⟨(e.1, node) :: nodes, current₂, by rw [Entries.toValues, hnode, hnodes], ?_⟩
    rw [Value.sections, String.toList_append]
    exact hfirst.append hrest

/-! ## Documents -/

theorem toList_plainLines (entries : List (String × Value)) :
    (Value.plainLines entries).toList =
      (plainEntries entries).flatMap fun e => (entryText e).toList ++ ['\n'] := by
  simp [Value.plainLines, plainEntries, entryTexts_eq, String.toList_join, List.flatMap_map]

theorem sectionText_of_plain {v : Value} (h : v.isSection = false) (path : List String) :
    Value.sectionText path v = "" := by
  cases v with
  | array items =>
    rw [Value.isSection, Bool.and_eq_false_iff, Bool.not_eq_false', List.isEmpty_iff] at h
    rcases h with rfl | h
    · rfl
    · rw [Value.sectionText, if_neg (by simp [h])]
  | table entries => simp [Value.isSection] at h
  | _ => simp [Value.sectionText]

theorem sections_sectionEntries (path : List String) (entries : List (String × Value)) :
    Value.sections path (sectionEntries entries) = Value.sections path entries := by
  induction entries with
  | nil => rfl
  | cons e entries ih =>
    rw [sectionEntries] at ih ⊢
    rw [List.filter_cons]
    split
    case isTrue => rw [Value.sections, Value.sections, ih]
    case isFalse h =>
      rw [Value.sections, sectionText_of_plain (Bool.not_eq_true _ ▸ h), ih, String.empty_append]

/-- A document does not tell where its sections stood among the plain entries. -/
theorem document_arranged (entries : List (String × Value)) :
    Value.document (arranged entries) = Value.document entries := by
  have hlines : Value.plainLines (arranged entries) = Value.plainLines entries :=
    String.toList_inj.mp (by rw [toList_plainLines, toList_plainLines, plainEntries_arranged])
  have hsections : Value.sections [] (arranged entries) = Value.sections [] entries := by
    rw [← sections_sectionEntries, sectionEntries_arranged, sections_sectionEntries]
  rw [Value.document, hlines, hsections, Value.document]

/-- The tables whose documents are read back: keys need no quotes, plain entries fit on lines and stand
in front of sections, and a section does so in turn, with a header of its own. Paths grow by at most so
many levels. -/
inductive Laid : Nat → List (String × Value) → Prop
  | intro {levels : Nat} {entries : List (String × Value)} (keys : ∀ e ∈ entries, IsBareKey e.1)
      (distinct : (entries.map Prod.fst).Nodup) (ordered : arranged entries = entries)
      (plain : ∀ e ∈ entries, e.2.isSection = false → e.2.Inline (nestingLimit - 1))
      (headers : ∀ key inner, (key, .table inner) ∈ entries →
        inner = [] ∨ ∃ e ∈ inner, e.2.isSection = false)
      (tables : ∀ key inner, (key, .table inner) ∈ entries → Laid levels inner)
      (arrays : ∀ key items inner, (key, .array items) ∈ entries → items.all Value.isTable →
        .table inner ∈ items → Laid levels inner) :
      Laid (levels + 1) entries

theorem Laid.keys {levels : Nat} {entries : List (String × Value)} (h : Laid levels entries) :
    ∀ e ∈ entries, IsBareKey e.1 := by
  cases h with
  | intro keys => exact keys

theorem Laid.readsBody {levels : Nat} {entries : List (String × Value)} (h : Laid levels entries)
    {path : List String} (hpath : ∀ k ∈ path, IsBareKey k)
    (hlength : path.length + levels < nestingLimit) : ReadsBody path entries := by
  induction h generalizing path with
  | @intro levels entries keys distinct ordered plain headers tables arrays ihtables iharrays =>
    intro origin plug hfocus horigin
    have hdistinct : ((plainEntries entries).map Prod.fst ++
        (sectionEntries entries).map Prod.fst).Nodup := by
      rw [← List.map_append]
      exact (congrArg (List.map Prod.fst) ordered) ▸ distinct
    have hplain : Lines ((plainEntries entries).flatMap fun e => (entryText e).toList ++ ['\n'])
        ⟨plug [], path⟩ ⟨plug ([] ++ Entries.ofValues (plainEntries entries)), path⟩ := by
      refine lines_assignments hfocus horigin (fun e he => ?_) (fun e he => ?_)
        (List.nodup_append.mp hdistinct).1
      · exact keys e (List.mem_filter.mp he).1
      · exact plain e (List.mem_filter.mp he).1 (by simpa using (List.mem_filter.mp he).2)
    rw [List.nil_append] at hplain
    have hsections : ∀ e ∈ sectionEntries entries, ReadsSection path plug e := by
      rintro ⟨key, v⟩ he
      obtain ⟨hmem, hsection⟩ := List.mem_filter.mp he
      have hkey : IsBareKey key := keys _ hmem
      have hpath' : ∀ k ∈ path ++ [key], IsBareKey k := by
        rw [List.forall_mem_append]
        exact ⟨hpath, List.forall_mem_singleton.mpr hkey⟩
      have hlength' : (path ++ [key]).length + levels < nestingLimit := by
        rw [List.length_append, List.length_singleton]
        omega
      refine readsSection hfocus hpath (by omega) hkey hsection ?_ ?_
      · rintro inner rfl
        exact ⟨ihtables key inner hmem hpath' hlength', headers key inner hmem⟩
      · rintro items inner rfl hinner
        have hall : items.all Value.isTable := by
          simp only [Value.isSection, Bool.and_eq_true] at hsection
          exact hsection.2
        exact iharrays key items inner hmem hall hinner hpath' hlength'
    have hkeys : (Entries.ofValues (plainEntries entries)).map Prod.fst =
        (plainEntries entries).map Prod.fst := by
      rw [Entries.ofValues, List.map_map]
      rfl
    obtain ⟨nodes, current, hnodes, hlines⟩ := lines_sections hsections (hkeys ▸ hdistinct) path
    refine ⟨Entries.ofValues (plainEntries entries) ++ nodes, current, ?_, ?_⟩
    · rw [Entries.toValues_append, Entries.toValues_ofValues, hnodes]
      exact ordered
    · rw [String.toList_append, toList_plainLines, ← sections_sectionEntries]
      exact hplain.append hlines

/-- Lines of plain entries start like a key. -/
theorem plainLines_eq_cons {entries : List (String × Value)} (hkeys : ∀ e ∈ entries, IsBareKey e.1)
    (hplain : plainEntries entries ≠ []) :
    ∃ c cs, (Value.plainLines entries).toList = c :: cs ∧ ∀ d, isBareKeyChar d = false → c ≠ d := by
  obtain ⟨first, others, hfirst⟩ := List.exists_cons_of_ne_nil hplain
  have hmem : first ∈ plainEntries entries := hfirst ▸ List.mem_cons_self
  obtain ⟨c, cs, hcs, hc⟩ := entryText_eq_cons (hkeys first (List.mem_filter.mp hmem).1)
  have htext : (Value.plainLines entries).toList =
      c :: (cs ++ ['\n'] ++ others.flatMap fun e => (entryText e).toList ++ ['\n']) := by
    rw [toList_plainLines, hfirst, List.flatMap_cons, hcs]
    rfl
  exact ⟨c, _, htext, hc⟩

/-- A document that starts with a plain entry is read back, plain entries first. -/
theorem Laid.parse?_document {levels : Nat} {entries : List (String × Value)}
    (h : Laid levels (arranged entries)) (hlevels : levels < nestingLimit)
    (hplain : plainEntries entries ≠ []) :
    parse? (Value.document entries) = some (.table (arranged entries)) := by
  have hbody : ReadsBody [] (arranged entries) := h.readsBody (by simp) (by simpa using hlevels)
  obtain ⟨added, current, hadded, hlines⟩ := hbody _ id Focus.root (by decide)
  obtain ⟨c, cs, hcs, hc⟩ := plainLines_eq_cons h.keys
    ((plainEntries_arranged entries).symm ▸ hplain)
  have hdocument : Value.document entries =
      Value.plainLines (arranged entries) ++ Value.sections [] (arranged entries) := by
    have hnonempty : (Value.plainLines (arranged entries)).isEmpty = false := by
      rw [← Bool.not_eq_true, String.isEmpty_iff, ← String.toList_eq_nil_iff, hcs]
      exact List.cons_ne_nil c cs
    rw [← document_arranged, Value.document, hnonempty]
    rfl
  have hmark : ∀ d ∈ (Value.document entries).toList.head?, d ≠ '\ufeff' := by
    rw [hdocument, String.toList_append, hcs]
    simpa using hc '\ufeff' (by decide)
  rw [← hdocument] at hlines
  rw [hlines.parse?_eq hmark]
  exact congrArg (fun entries => some (Value.table entries)) hadded

end DispatchGen.Toml
