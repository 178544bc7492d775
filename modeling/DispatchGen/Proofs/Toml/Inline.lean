import DispatchGen.Proofs.Toml.Assembly
import DispatchGen.Proofs.Toml.Scalars

/-!
# Values on a line are read as they were written

Keys, arrays and inline tables over the scalars. `Value.Inline` are the values that are written behind
a key and nest at most so many levels; `Value.Inline.reads` is that they are read back.
-/

namespace DispatchGen.Toml

open Reader

/-! ## Keys -/

/-- A key that is written without quotes. -/
def IsBareKey (key : String) : Prop :=
  key.toList ≠ [] ∧ ∀ c ∈ key.toList, isBareKeyChar c

instance (key : String) : Decidable (IsBareKey key) :=
  inferInstanceAs (Decidable (key.toList ≠ [] ∧ ∀ c ∈ key.toList, isBareKeyChar c))

namespace IsBareKey

variable {key : String}

theorem keyText_eq (h : IsBareKey key) : keyText key = key := by
  have hne : key.isEmpty = false := by
    rw [← Bool.not_eq_true, String.isEmpty_iff, ← String.toList_eq_nil_iff]
    exact h.1
  rw [keyText, hne, List.all_eq_true.mpr h.2]
  rfl

/-- Where a key starts, nothing else does. -/
theorem exists_cons (h : IsBareKey key) :
    ∃ c cs, key.toList = c :: cs ∧ ∀ d, isBareKeyChar d = false → c ≠ d := by
  obtain ⟨c, cs, hcs⟩ := List.exists_cons_of_ne_nil h.1
  refine ⟨c, cs, hcs, ?_⟩
  rintro d hd rfl
  exact absurd (h.2 c (hcs ▸ List.mem_cons_self)) (by simp [hd])

theorem simpleKey_append (h : IsBareKey key) {rest : List Char}
    (hrest : ∀ c ∈ rest.head?, isBareKeyChar c = false) :
    simpleKey (key.toList ++ rest) = some (key, rest) := by
  obtain ⟨c, cs, hcs, hc⟩ := h.exists_cons
  have hbasic : basicString (key.toList ++ rest) = none := by
    simp [hcs, basicString, hc '"' (by decide)]
  have hliteral : literalString (key.toList ++ rest) = none := by
    simp [hcs, literalString, hc '\'' (by decide)]
  have hbare : bareKey (key.toList ++ rest) = some (key, rest) := by
    simp only [bareKey, bind_apply, run1_append h.1 h.2 hrest, Option.bind_some, pure_apply,
      String.ofList_toList]
  simp only [simpleKey, orElse_apply, hbasic, hliteral, hbare, Option.none_or]

end IsBareKey

/-- A part of a dotted key, with the blanks around it. -/
def keyPart : Reader String := do
  blanks
  let key ← simpleKey
  blanks
  return key

theorem keyPart_append {key : String} (h : IsBareKey key) (before rest : List Char)
    (hbefore : ∀ c ∈ before, isBlank c) (hrest : ∀ c ∈ rest.head?, isBareKeyChar c = false) :
    keyPart (before ++ (key.toList ++ rest)) = some (key, rest.dropWhile isBlank) := by
  have hvisible : ∀ c ∈ (key.toList ++ rest).head?, isBlank c = false := by
    obtain ⟨c, cs, hcs, hc⟩ := h.exists_cons
    simp [hcs, isBlank, hc ' ' (by decide), hc '\t' (by decide)]
  simp only [keyPart, blanks, bind_apply, run_append hbefore hvisible, Option.bind_some, pure_apply,
    h.simpleKey_append hrest, run_apply]

/-- What the parts of a key are read as. -/
theorem dottedKey_of_repeats {key : String} {keys : List String} {cs mid rest : List Char}
    (hkey : keyPart cs = some (key, mid)) (hkeys : Repeats (char '.' *> keyPart) mid keys rest)
    (hlength : (key :: keys).length < nestingLimit) :
    dottedKey cs = some (⟨(key :: keys).dropLast, (key :: keys).getLast (by simp)⟩, rest) := by
  have hpart : (do blanks; let key ← simpleKey; blanks; return key : Reader String) = keyPart := rfl
  rw [dottedKey, hpart]
  simp only [bind_apply, sepBy, hkey, hkeys.many_eq, Option.bind_some, pure_apply, guard_apply,
    if_pos hlength, List.getLast?_eq_some_getLast (List.cons_ne_nil key keys)]

theorem dottedKey_eq_none {c : Char} (hkey : isBareKeyChar c = false) (hblank : isBlank c = false)
    (hquote : c ≠ '"' ∧ c ≠ '\'') (cs : List Char) : dottedKey (c :: cs) = none := by
  simp [dottedKey, sepBy, blanks, hblank, simpleKey, basicString, hquote.1, literalString, hquote.2,
    bareKey, run1, hkey]

theorem dottedKey_single {key : String} (h : IsBareKey key) {before : List Char}
    (hbefore : ∀ c ∈ before, isBlank c) (rest : List Char) :
    dottedKey (before ++ (key.toList ++ ' ' :: '=' :: rest)) = some (⟨[], key⟩, '=' :: rest) := by
  have hpart := keyPart_append h before (' ' :: '=' :: rest) hbefore (by simp; decide)
  rw [List.dropWhile_cons_of_pos (by decide), List.dropWhile_cons_of_neg (by decide)] at hpart
  exact dottedKey_of_repeats hpart (.stop (by simp)) (by simp [nestingLimit])

theorem toList_intercalate_cons (separator text : String) (texts : List String) :
    (separator.intercalate (text :: texts)).toList =
      text.toList ++ texts.flatMap fun t => separator.toList ++ t.toList := by
  induction texts generalizing text with
  | nil => simp
  | cons next texts ih =>
    rw [String.intercalate_cons_cons, String.toList_append, String.toList_append, ih]
    simp

theorem toList_pathText {key : String} {path : List String}
    (hpath : ∀ k ∈ key :: path, IsBareKey k) :
    (pathText (key :: path)).toList = key.toList ++ path.flatMap fun k => '.' :: k.toList := by
  have hkeys : (key :: path).map keyText = key :: path :=
    (List.map_congr_left fun k hk => (hpath k hk).keyText_eq).trans (List.map_id' _)
  rw [pathText, hkeys, toList_intercalate_cons]
  rfl

/-- A path is not empty. -/
theorem path_eq_cons {path : List String} {last : String} (hpath : ∀ k ∈ path, IsBareKey k)
    (hlast : IsBareKey last) :
    ∃ key keys, path ++ [last] = key :: keys ∧ ∀ k ∈ key :: keys, IsBareKey k := by
  obtain ⟨key, keys, hkeys⟩ := List.exists_cons_of_ne_nil (show path ++ [last] ≠ [] by simp)
  refine ⟨key, keys, hkeys, ?_⟩
  rw [← hkeys, List.forall_mem_append]
  exact ⟨hpath, List.forall_mem_singleton.mpr hlast⟩

theorem dottedKey_path {path : List String} {last : String} (hpath : ∀ k ∈ path, IsBareKey k)
    (hlast : IsBareKey last) (hlength : path.length + 1 < nestingLimit) (rest : List Char) :
    dottedKey ((pathText (path ++ [last])).toList ++ ']' :: rest) =
      some (⟨path, last⟩, ']' :: rest) := by
  obtain ⟨key, keys, hkeys, hbare⟩ := path_eq_cons hpath hlast
  let Follows : List Char → Prop := fun cs => ∃ c ∈ ['.', ']'], ∃ tail, cs = c :: tail
  have hpart : ∀ k ∈ key :: keys, ∀ cs, Follows cs → keyPart (k.toList ++ cs) = some (k, cs) := by
    rintro k hk _ ⟨c, hc, cs, rfl⟩
    have hchar : isBareKeyChar c = false ∧ isBlank c = false := by
      revert c
      decide
    have h := keyPart_append (hbare k hk) [] (c :: cs) (by simp) (by simpa using hchar.1)
    rwa [List.dropWhile_cons_of_neg (by simp [hchar.2])] at h
  have hrest : Follows (keys.flatMap (fun k => '.' :: k.toList) ++ ']' :: rest) := by
    cases keys with
    | nil => exact ⟨']', by decide, _, rfl⟩
    | cons k keys => exact ⟨'.', by decide, _, rfl⟩
  have hparts : Repeats (char '.' *> keyPart)
      (keys.flatMap (fun k => '.' :: k.toList) ++ ']' :: rest) (keys.map id) (']' :: rest) :=
    repeats_flatMap _ _ Follows (by simp) ⟨']', by decide, rest, rfl⟩ (by simp)
      (fun k _ cs => ⟨'.', by decide, _, rfl⟩)
      (fun k hk cs hcs => by simpa using hpart k (List.mem_cons_of_mem _ hk) cs hcs)
  rw [List.map_id] at hparts
  have h := dottedKey_of_repeats (hpart key List.mem_cons_self _ hrest) hparts
    (by rw [← hkeys]; simpa using hlength)
  rw [hkeys, toList_pathText hbare, List.append_assoc, h]
  simp [← hkeys]

/-! ## Arrays -/

/-- The blanks and line breaks between the items of an array end before this character. -/
def endsFiller (c : Char) : Bool :=
  !isBlank c && c != '\n' && c != '\r' && c != '#'

theorem filler_append {ws rest : List Char} (hws : ∀ c ∈ ws, c = ' ' ∨ c = '\n')
    (hrest : ∀ c ∈ rest.head?, endsFiller c) : filler (ws ++ rest) = some ((), rest) := by
  let item : Reader Unit := (do let _ ← satisfy isBlank) <|> newline <|> comment
  have hstop : item rest = none := by
    cases rest with
    | nil => simp [item, newline, comment]
    | cons c rest =>
      have hc := hrest c rfl
      simp only [endsFiller, Bool.and_eq_true, Bool.not_eq_true', bne_iff_ne] at hc
      obtain ⟨⟨⟨hblank, hn⟩, hr⟩, hhash⟩ := hc
      simp [item, newline, comment, hblank, hn, hr.symm, hhash]
  have hitem : ∀ c ∈ ws, ∀ cs, True → item ([c] ++ cs) = some ((), cs) := by
    intro c hc cs _
    rcases hws c hc with rfl | rfl
    · simp [item, isBlank]
    · simp [item, isBlank, newline]
  have hrepeats := repeats_flatMap (fun c => [c]) (fun _ => ()) (fun _ => True) hstop trivial
    (by simp) (by simp) hitem
  rw [List.flatMap_singleton'] at hrepeats
  simp only [filler, bind_apply, hrepeats.many_eq, Option.bind_some, pure_apply, item]

/-- A reader takes a value from its text, which nothing that may stand in front of it starts like. -/
structure Reads (read : Reader Value) (v : Value) : Prop where
  visible : ∃ c cs, v.text.toList = c :: cs ∧ endsFiller c
  takes : ∀ rest, Ends rest → read (v.text.toList ++ rest) = some (v, rest)

/-- An item of an array, with the filler around it. -/
def arrayItem (read : Reader Value) : Reader Value := do
  filler
  let v ← read
  filler
  return v

theorem itemTexts_eq (items : List Value) : Value.itemTexts items = items.map Value.text := by
  induction items with
  | nil => rfl
  | cons item items ih => simp [Value.itemTexts, ih]

section Array

variable {read : Reader Value}

theorem Reads.arrayItem_append {v : Value} (h : Reads read v) {before : List Char}
    (hbefore : ∀ c ∈ before, c = ' ' ∨ c = '\n') {c : Char} (hc : c ∈ [',', ']'])
    (rest : List Char) :
    arrayItem read (before ++ (v.text.toList ++ c :: rest)) = some (v, c :: rest) := by
  obtain ⟨d, ds, hds, hd⟩ := h.visible
  have hfront : filler (before ++ (v.text.toList ++ c :: rest)) =
      some ((), v.text.toList ++ c :: rest) :=
    filler_append hbefore (by simpa [hds] using hd)
  have hmark : c ∈ ['\n', ',', ' ', ']'] ∧ endsFiller c := by
    clear hfront
    revert c
    decide
  have hbehind : filler ([] ++ c :: rest) = some ((), c :: rest) :=
    filler_append (by simp) (by simpa using hmark.2)
  simp only [arrayItem, bind_apply, hfront, h.takes _ (.cons hmark.1 rest), Option.bind_some]
  rw [List.nil_append] at hbehind
  rw [hbehind]
  rfl

theorem filler_closing {closing : List Char} (hclosing : closing = [] ∨ closing = ['\n'])
    (rest : List Char) : filler (closing ++ ']' :: rest) = some ((), ']' :: rest) := by
  refine filler_append ?_ (by simp; decide)
  rcases hclosing with rfl | rfl <;> simp

theorem arrayItem_closing (hclose : ∀ cs, read (']' :: cs) = none) {closing : List Char}
    (hclosing : closing = [] ∨ closing = ['\n']) (rest : List Char) :
    arrayItem read (closing ++ ']' :: rest) = none := by
  rw [arrayItem, bind_apply, filler_closing hclosing, Option.bind_some, bind_apply, hclose,
    Option.bind_none]

/-- An array, once its items are read: a comma may stand behind the last. -/
theorem array_of_items {cs mid : List Char} {found : Option (List Value)} {closing : List Char}
    (hitems : optional (sepBy (arrayItem read) (char ',')) cs = some (found, mid))
    (rest : List Char)
    (hmid : mid = closing ++ ']' :: rest)
    (hclosing : closing = [] ∨ closing = [',', '\n'] ∧ found.isSome) :
    array read ('[' :: cs) = some (.array (found.getD []), rest) := by
  have hitems : optional (sepBy (do filler; let v ← read; filler; return v) (char ',')) cs = _ :=
    hitems
  rw [array, bind_apply, char_cons, if_pos rfl, Option.bind_some, bind_apply, hitems,
    Option.bind_some, hmid]
  rcases hclosing with rfl | ⟨rfl, hfound⟩
  · have hfiller := filler_closing (.inl rfl) rest
    have hcomma := optional_of_none (show char ',' (']' :: rest) = none by simp)
    rw [List.nil_append] at hfiller
    split <;> simp [hfiller, hcomma]
  · have hfiller := filler_closing (.inr rfl) rest
    have hcomma := optional_of_some
      (show char ',' (',' :: '\n' :: ']' :: rest) = some ((), '\n' :: ']' :: rest) by simp)
    rw [List.cons_append, List.nil_append] at hfiller
    simp [hfound, hfiller, hcomma]

/-- The items behind the first stand behind a comma each, and a comma may stand behind the last. -/
theorem array_items (hclose : ∀ cs, read (']' :: cs) = none) {v : Value} {vs : List Value}
    (hitems : ∀ w ∈ v :: vs, Reads read w) (between : List Char)
    (hbetween : ∀ c ∈ between, c = ' ' ∨ c = '\n') {closing : List Char}
    (hclosing : closing = [] ∨ closing = [',', '\n']) (rest : List Char) :
    array read ('[' :: (between ++ (v.text.toList ++
      (vs.flatMap (fun w => ',' :: (between ++ w.text.toList)) ++ (closing ++ ']' :: rest))))) =
      some (.array (v :: vs), rest) := by
  let Follows : List Char → Prop := fun cs => ∃ c ∈ [',', ']'], ∃ tail, cs = c :: tail
  have hitem : ∀ w ∈ v :: vs, ∀ cs, Follows cs →
      arrayItem read (between ++ (w.text.toList ++ cs)) = some (w, cs) := by
    rintro w hw _ ⟨c, hc, cs, rfl⟩
    exact (hitems w hw).arrayItem_append hbetween hc cs
  have hrest : Follows (closing ++ ']' :: rest) := by
    rcases hclosing with rfl | rfl
    · exact ⟨']', by decide, rest, rfl⟩
    · exact ⟨',', by decide, _, rfl⟩
  have hstop : (char ',' *> arrayItem read) (closing ++ ']' :: rest) = none := by
    rcases hclosing with rfl | rfl
    · simp
    · exact arrayItem_closing hclose (.inr rfl) rest
  have hmany : Repeats (char ',' *> arrayItem read)
      (vs.flatMap (fun w => ',' :: (between ++ w.text.toList)) ++ (closing ++ ']' :: rest))
      (vs.map id) (closing ++ ']' :: rest) :=
    repeats_flatMap _ _ Follows hstop hrest (by simp)
      (fun w _ cs => ⟨',', by decide, _, rfl⟩)
      (fun w hw cs hcs => by simpa using hitem w (List.mem_cons_of_mem v hw) cs hcs)
  have hfollows : Follows
      (vs.flatMap (fun w => ',' :: (between ++ w.text.toList)) ++ (closing ++ ']' :: rest)) := by
    cases vs with
    | nil => exact hrest
    | cons w vs => exact ⟨',', by decide, _, rfl⟩
  have hseries : sepBy (arrayItem read) (char ',') (between ++ (v.text.toList ++
      (vs.flatMap (fun w => ',' :: (between ++ w.text.toList)) ++ (closing ++ ']' :: rest)))) =
      some (v :: vs, closing ++ ']' :: rest) := by
    simp only [sepBy, bind_apply, hitem v List.mem_cons_self _ hfollows, Option.bind_some,
      hmany.many_eq, pure_apply, List.map_id]
  exact array_of_items (optional_of_some hseries) rest rfl (hclosing.imp id fun h => ⟨h, rfl⟩)

/-- What stands behind each item stands between any two and behind the last. -/
theorem flatMap_separated (separator : List Char) (code : Value → List Char) (v : Value)
    (vs : List Value) :
    (v :: vs).flatMap (fun w => code w ++ separator) =
      code v ++ (vs.flatMap (fun w => separator ++ code w) ++ separator) := by
  induction vs generalizing v with
  | nil => simp
  | cons w vs ih =>
    rw [List.flatMap_cons, ih]
    simp

theorem array_bracket (hclose : ∀ cs, read (']' :: cs) = none) {items : List Value}
    (hitems : ∀ v ∈ items, Reads read v) (rest : List Char) :
    array read ((bracket (items.map Value.text)).toList ++ rest) = some (.array items, rest) := by
  match items with
  | [] =>
    have hseries : sepBy (arrayItem read) (char ',') (']' :: rest) = none := by
      rw [sepBy, bind_apply, ← List.nil_append (']' :: rest),
        arrayItem_closing hclose (.inl rfl), Option.bind_none]
    exact array_of_items (optional_of_none hseries) rest rfl (.inl rfl)
  | [v] =>
    have h := array_items hclose hitems [] (by simp) (.inl rfl) rest
    simpa [bracket] using h
  | v :: w :: vs =>
    have h := array_items hclose hitems "\n    ".toList (by simp) (.inr rfl) rest
    have htext : (bracket ((v :: w :: vs).map Value.text)).toList =
        '[' :: '\n' :: ((v :: w :: vs).flatMap
          (fun v => "    ".toList ++ v.text.toList ++ [',', '\n']) ++ [']']) := by
      simp [bracket, List.flatMap_map]
    rw [htext, flatMap_separated [',', '\n'] (fun v => "    ".toList ++ v.text.toList)]
    simpa using h

end Array

/-! ## Inline tables -/

/-- An entry as it is written behind a header or between braces. -/
def entryText (entry : String × Value) : String :=
  keyText entry.1 ++ " = " ++ entry.2.text

theorem entryTexts_eq (entries : List (String × Value)) :
    Value.entryTexts entries = entries.map entryText := by
  induction entries with
  | nil => rfl
  | cons entry entries ih => simp [Value.entryTexts, entryText, ih]

section InlineTable

variable {read : Reader Value}

theorem assignment_append {entry : String × Value} (hkey : IsBareKey entry.1)
    (hvalue : Reads read entry.2) (before : List Char) (hbefore : ∀ c ∈ before, isBlank c)
    {rest : List Char} (hrest : Ends rest) :
    assignment read (before ++ ((entryText entry).toList ++ rest)) =
      some ((⟨[], entry.1⟩, entry.2), rest) := by
  obtain ⟨c, cs, hcs, hc⟩ := hvalue.visible
  have hblank : isBlank c = false := by
    simp only [endsFiller, Bool.and_eq_true, Bool.not_eq_true'] at hc
    exact hc.1.1.1
  have hblanks : run isBlank ([' '] ++ (entry.2.text.toList ++ rest)) =
      some ([' '], entry.2.text.toList ++ rest) :=
    run_append (by decide) (by simpa [hcs] using hblank)
  rw [List.singleton_append] at hblanks
  have htext : before ++ ((entryText entry).toList ++ rest) =
      before ++ (entry.1.toList ++ ' ' :: '=' :: ' ' :: (entry.2.text.toList ++ rest)) := by
    simp [entryText, hkey.keyText_eq]
  simp only [htext, assignment, blanks, bind_apply, dottedKey_single hkey hbefore, Option.bind_some,
    char_cons, if_true, hblanks, hvalue.takes rest hrest, pure_apply]

/-- An entry of an inline table, with the blanks behind it. -/
def tableItem (read : Reader Value) : Reader (DottedKey × Value) := do
  let a ← assignment read
  blanks
  return a

/-- What stands behind an entry of an inline table: the other entries and the closing brace. -/
def behindEntry (entries : List (String × Value)) (rest : List Char) : List Char :=
  entries.flatMap (fun e => ',' :: ' ' :: (entryText e).toList) ++ ' ' :: '\x7d' :: rest

theorem ends_behindEntry (entries : List (String × Value)) (rest : List Char) :
    Ends (behindEntry entries rest) := by
  cases entries with
  | nil => exact .cons (by decide) _
  | cons e es => exact .cons (by decide) _

theorem tableItem_append {entry : String × Value} (hkey : IsBareKey entry.1)
    (hvalue : Reads read entry.2) (entries : List (String × Value)) (rest : List Char) :
    tableItem read (' ' :: ((entryText entry).toList ++ behindEntry entries rest)) =
      some ((⟨[], entry.1⟩, entry.2), (behindEntry entries rest).dropWhile isBlank) := by
  have h := assignment_append hkey hvalue [' '] (by decide) (ends_behindEntry entries rest)
  rw [List.singleton_append] at h
  simp only [tableItem, bind_apply, h, Option.bind_some, blanks, run_apply, pure_apply]

theorem repeats_tableItem {entries : List (String × Value)} (hkeys : ∀ e ∈ entries, IsBareKey e.1)
    (hvalues : ∀ e ∈ entries, Reads read e.2) (rest : List Char) :
    Repeats (char ',' *> tableItem read) ((behindEntry entries rest).dropWhile isBlank)
      (entries.map fun e => (⟨[], e.1⟩, e.2)) ('\x7d' :: rest) := by
  induction entries with
  | nil =>
    have hdrop : (behindEntry [] rest).dropWhile isBlank = '\x7d' :: rest := by
      simp [behindEntry, isBlank]
    rw [hdrop]
    exact .stop (by simp)
  | cons e es ih =>
    obtain ⟨hkey, hkeys⟩ := List.forall_mem_cons.mp hkeys
    obtain ⟨hvalue, hvalues⟩ := List.forall_mem_cons.mp hvalues
    have htext : (behindEntry (e :: es) rest).dropWhile isBlank =
        ',' :: ' ' :: ((entryText e).toList ++ behindEntry es rest) := by
      simp [behindEntry, isBlank]
    rw [htext]
    refine .item ?_ ?_ (ih hkeys hvalues)
    · rw [seqRight_apply, char_cons, if_pos rfl, Option.bind_some]
      exact tableItem_append hkey hvalue es rest
    · have hle := (List.dropWhile_suffix isBlank (l := behindEntry es rest)).length_le
      simp only [List.length_cons, List.length_append]
      omega

theorem inlineTable_of_items {cs rest : List Char} {found : Option (List (DottedKey × Value))}
    {mid : List Char} (hitems : optional (sepBy (tableItem read) (char ',')) cs = some (found, mid))
    (hmid : mid = '\x7d' :: rest) {table : Value}
    (htable : inlineTable? (found.getD []) = some table) :
    inlineTable read ('\x7b' :: cs) = some (table, rest) := by
  have hitems : optional (sepBy (do let a ← assignment read; blanks; return a) (char ',')) cs = _ :=
    hitems
  have hblank : isBlank '\x7d' = false := by decide
  rw [inlineTable, bind_apply, char_cons, if_pos rfl, Option.bind_some, bind_apply, hitems,
    Option.bind_some, hmid]
  simp [blanks, hblank, htable]

theorem inlineTable_brace {entries : List (String × Value)}
    (hkeys : ∀ e ∈ entries, IsBareKey e.1) (hdistinct : (entries.map Prod.fst).Nodup)
    (hvalues : ∀ e ∈ entries, Reads read e.2) (rest : List Char) :
    inlineTable read ((brace (entries.map entryText)).toList ++ rest) =
      some (.table entries, rest) := by
  cases entries with
  | nil =>
    have hkey := dottedKey_eq_none (c := '\x7d') (by decide) (by decide) (by decide) rest
    have hseries : sepBy (tableItem read) (char ',') ('\x7d' :: rest) = none := by
      simp only [sepBy, tableItem, assignment, bind_apply, hkey, Option.bind_none]
    exact inlineTable_of_items (optional_of_none hseries) rfl (inlineTable?_new hdistinct)
  | cons e es =>
    have hmany := (repeats_tableItem (List.forall_mem_cons.mp hkeys).2
      (List.forall_mem_cons.mp hvalues).2 rest).many_eq
    have hseries : sepBy (tableItem read) (char ',')
        (' ' :: ((entryText e).toList ++ behindEntry es rest)) =
          some ((e :: es).map fun e => (⟨[], e.1⟩, e.2), '\x7d' :: rest) := by
      simp only [sepBy, bind_apply, tableItem_append (hkeys e List.mem_cons_self)
        (hvalues e List.mem_cons_self) es rest, Option.bind_some, hmany, pure_apply, List.map_cons]
    have htext : (brace ((e :: es).map entryText)).toList ++ rest =
        '\x7b' :: ' ' :: ((entryText e).toList ++ behindEntry es rest) := by
      rw [brace, List.map_cons, if_neg (by simp), String.toList_append, String.toList_append,
        toList_intercalate_cons, List.flatMap_map]
      simp [behindEntry]
    rw [htext]
    exact inlineTable_of_items (optional_of_some hseries) rfl (inlineTable?_new hdistinct)

end InlineTable

/-! ## Values on a line -/

/-- The values that are written behind a key and nest at most so many levels. Floats and dates have no
place in a catalog and are left out. -/
inductive Value.Inline : Nat → Value → Prop
  | string {levels : Nat} (text : String) : Inline levels (.string text)
  | integer {levels : Nat} {i : Int} (range : -maxInteger - 1 ≤ i ∧ i ≤ maxInteger) :
      Inline levels (.integer i)
  | boolean {levels : Nat} (b : Bool) : Inline levels (.boolean b)
  | array {levels : Nat} {items : List Value} (values : ∀ v ∈ items, Inline levels v) :
      Inline (levels + 1) (.array items)
  | table {levels : Nat} {entries : List (String × Value)} (keys : ∀ e ∈ entries, IsBareKey e.1)
      (distinct : (entries.map Prod.fst).Nodup) (values : ∀ e ∈ entries, Inline levels e.2) :
      Inline (levels + 1) (.table entries)

theorem value_of_scalarValue {cs rest : List Char} {v : Value}
    (h : scalarValue cs = some (v, rest)) (levels : Nat) : value levels cs = some (v, rest) := by
  cases levels with
  | zero => exact h
  | succ levels => simp only [value, orElse_apply, h, Option.some_or]

/-- An array ends before a closing bracket. -/
theorem value_closing (levels : Nat) (cs : List Char) : value levels (']' :: cs) = none := by
  have hscalar := scalarValue_eq_none (c := ']') (by decide) cs
  cases levels with
  | zero => exact hscalar
  | succ levels => simp [value, hscalar, array, inlineTable]

theorem quote_eq_cons (text : String) :
    ∃ c cs, (quote text).toList = c :: cs ∧ endsFiller c := by
  obtain ⟨c, hhead, hc⟩ : ∃ c, (quote text).toList.head? = some c ∧ endsFiller c := by
    rw [quote]
    cases StringKind.ofText text.toList with
    | basic => exact ⟨'"', by simp [toList_enclose], by decide⟩
    | literal => exact ⟨'\'', by simp [toList_enclose], by decide⟩
    | multilineBasic => exact ⟨'"', by simp [toList_enclose], by decide⟩
    | multilineLiteral => exact ⟨'\'', by simp [toList_enclose], by decide⟩
  obtain ⟨cs, hcs⟩ := List.head?_eq_some_iff.mp hhead
  exact ⟨c, cs, hcs, hc⟩

theorem number_eq_cons (i : Int) : ∃ c cs, (toString i).toList = c :: cs ∧ endsFiller c := by
  obtain ⟨mark, hmark, htext⟩ := toList_toString_int i
  obtain ⟨d, ds, hds, hd⟩ := toDigits_eq_cons i.natAbs
  rw [htext, hds]
  rcases hmark with ⟨rfl, -⟩ | ⟨rfl, -⟩
  · refine ⟨d, ds, rfl, ?_⟩
    simp [endsFiller, isBlank, hd ' ' (by decide), hd '\t' (by decide), hd '\n' (by decide),
      hd '\r' (by decide), hd '#' (by decide)]
  · exact ⟨'-', _, rfl, by decide⟩

theorem bracket_eq_cons (items : List String) : ∃ cs, (bracket items).toList = '[' :: cs := by
  rw [← List.head?_eq_some_iff]
  match items with
  | [] => simp [bracket]
  | [_] => simp [bracket]
  | _ :: _ :: _ => simp [bracket]

theorem brace_eq_cons (entries : List String) : ∃ cs, (brace entries).toList = '\x7b' :: cs := by
  rw [← List.head?_eq_some_iff, brace]
  split <;> simp

/-- Every value is read back from its text. -/
theorem Value.Inline.reads {levels : Nat} {v : Value} (h : v.Inline levels) :
    Reads (value levels) v := by
  induction h with
  | string text =>
    refine ⟨quote_eq_cons text, fun rest hrest => ?_⟩
    exact value_of_scalarValue (scalarValue_string text hrest) _
  | @integer _ i range =>
    exact ⟨number_eq_cons i,
      fun rest hrest => value_of_scalarValue (scalarValue_integer range hrest) _⟩
  | boolean b =>
    refine ⟨?_, fun rest _ => value_of_scalarValue (scalarValue_boolean b rest) _⟩
    cases b with
    | false => exact ⟨'f', _, rfl, by decide⟩
    | true => exact ⟨'t', _, rfl, by decide⟩
  | @array levels items _ ih =>
    have htext : (Value.array items).text = bracket (items.map Value.text) := by
      rw [Value.text, itemTexts_eq]
    obtain ⟨cs, hcs⟩ := bracket_eq_cons (items.map Value.text)
    refine ⟨⟨'[', cs, htext ▸ hcs, by decide⟩, fun rest _ => ?_⟩
    have hscalar := scalarValue_eq_none (c := '[') (by decide) (cs ++ rest)
    have harray := array_bracket (value_closing levels) ih rest
    rw [htext, value, orElse_apply, orElse_apply, harray, hcs, List.cons_append, hscalar]
    rfl
  | @table levels entries keys distinct _ ih =>
    have htext : (Value.table entries).text = brace (entries.map entryText) := by
      rw [Value.text, entryTexts_eq]
    obtain ⟨cs, hcs⟩ := brace_eq_cons (entries.map entryText)
    refine ⟨⟨'\x7b', cs, htext ▸ hcs, by decide⟩, fun rest _ => ?_⟩
    have hscalar := scalarValue_eq_none (c := '\x7b') (by decide) (cs ++ rest)
    have htable := inlineTable_brace keys distinct ih rest
    have harray : Toml.array (value levels) ('\x7b' :: (cs ++ rest)) = none := by
      simp [Toml.array]
    rw [htext, value, orElse_apply, orElse_apply, htable, hcs, List.cons_append, hscalar, harray]
    rfl

end DispatchGen.Toml
