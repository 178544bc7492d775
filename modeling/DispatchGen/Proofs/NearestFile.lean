import DispatchGen.Proofs.SavedFiles

/-!
# The nearest catalog file

A search goes through the directories from where it starts up to the root, and ends at the first that
shows an entry of the catalog file's name, whatever that entry is (`CatalogFile.find_nearest`). What is
found is loaded, and where that fails nothing else takes its place.

A directory may have an entry and not show it (`Workspace.Hides`). Such an entry is passed over, broken
or not (`CatalogFile.find_passes_over_hidden`).
-/

namespace DispatchGen

/-! ## Entries of directories -/

/-- The entry with all permissions. -/
def Entry.granted : Entry → Entry
  | .directory _ => .directory
  | .file content _ => .file content
  | .link target => .link target

/-- The tree with all permissions. -/
def Tree.granted (t : Tree) : Tree where
  entry? location := (t.entry? location).map Entry.granted

/-- Permissions lead nowhere else. -/
theorem Tree.keeps_granted (t : Tree) : t.Keeps t.granted := by
  refine ⟨fun l hl => ?_, fun l => ?_⟩
  · obtain ⟨entry, hentry, hsearch⟩ := isSearchable_iff.1 hl
    have hgranted : t.granted.entry? l = some entry.granted := congrArg (Option.map _) hentry
    rw [isSearchable, hgranted]
    cases entry with
    | directory => rfl
    | file => cases hsearch
    | link => cases hsearch
  · rw [target?, target?, granted, Option.bind_map]
    refine congrArg _ (funext fun entry => ?_)
    cases entry <;> rfl

namespace Workspace

variable {w : Workspace} {d : Path} {name : String}

/-- The path `d` leads to a directory that has an entry called `name`. Permissions do not matter, nor
does where the entry leads if it is a link. -/
def HasEntry (w : Workspace) (d : Path) (name : String) : Prop :=
  ∃ location, w.tree.granted.follow d = .ok location ∧
    w.tree.granted.isSearchable location = true ∧
      (w.tree.entry? (location ++ [name])).isSome = true

/-- Nothing is seen at the path of an entry, be it there or not. -/
inductive Hides (w : Workspace) (d : Path) (name : String) : Prop
  /-- The path is too long, or has a character that no path may have. -/
  | unusable (h : (d.child name).isUsable = false)
  /-- A directory on the way, or the last one, may not be searched. -/
  | locked (h : ∀ location, w.tree.follow d = .ok location → w.tree.isSearchable location = false)
  /-- The entry is a link, and nothing is there, or can be got to, where it leads. -/
  | dangling {location : Location} (way : w.tree.follow d = .ok location)
      (link : (w.tree.target? (location ++ [name])).isSome = true)
      (nothing : w.tree.entryAt? (d.child name) = none)

/-- The directory has the entry, and it is seen. -/
structure Shows (w : Workspace) (d : Path) (name : String) : Prop where
  has : w.HasEntry d name
  seen : ¬ w.Hides d name

theorem isSome_entryAt?_iff {t : Tree} {path : Path} : (t.entryAt? path).isSome = true ↔
    ∃ location, t.follow path = .ok location ∧ (t.entry? location).isSome = true := by
  simp only [Tree.entryAt?, Option.isSome_iff_exists, Option.bind_eq_some_iff,
    toOption_eq_some_iff]
  constructor
  · rintro ⟨entry, location, hfollow, hentry⟩
    exact ⟨location, hfollow, entry, hentry⟩
  · rintro ⟨location, hfollow, entry, hentry⟩
    exact ⟨entry, location, hfollow, hentry⟩

/-- What is at the path of an entry comes by way of the directory and of what it has of that name. -/
theorem exists_entry_of_isSome (hname : Path.IsEntryName name)
    (h : (w.tree.entryAt? (d.child name)).isSome = true) :
    ∃ location, w.tree.follow d = .ok location ∧ w.tree.isSearchable location = true ∧
      (w.tree.entry? (location ++ [name])).isSome = true := by
  obtain ⟨stop, hfollow, hstop⟩ := isSome_entryAt?_iff.1 h
  obtain ⟨left, hleads⟩ := Tree.follow_eq_ok_iff.1 hfollow
  obtain ⟨between, location, hway, hlast⟩ := (Tree.leads_child_iff hname.slash_not_mem).1 hleads
  obtain ⟨named, hstep⟩ := hlast.exists_step
  obtain ⟨hsearch, rfl⟩ := (Tree.step_name hname).1 hstep
  refine ⟨location, Tree.follow_eq_ok_iff.2 ⟨between, hway⟩, hsearch, ?_⟩
  cases htarget : w.tree.target? (location ++ [name]) with
  | none =>
    obtain ⟨-, rfl⟩ := (Tree.leads_singleton_of_plain hstep htarget).1 hlast
    exact hstop
  | some target =>
    obtain ⟨entry, hentry, -⟩ := Option.bind_eq_some_iff.1 htarget
    exact hentry ▸ rfl

theorem isSome_entryAt?_child (habsolute : d.isAbsolute = true) (hname : Path.IsEntryName name) :
    (w.entryAt? (d.child name)).isSome = true ↔ w.Shows d name := by
  have hroot : w.fromRoot? (d.child name) =
      if (d.child name).isUsable then some (d.child name) else none := by
    rw [fromRoot?, if_pos (Path.isAbsolute_child habsolute name)]
  have hkeeps := w.tree.keeps_granted
  rw [entryAt?, hroot]
  constructor
  · intro h
    split at h
    case isFalse => cases h
    case isTrue husable =>
      rw [Option.bind_some] at h
      obtain ⟨location, hfollow, hsearch, hentry⟩ := exists_entry_of_isSome hname h
      refine ⟨⟨location, hkeeps.follow hfollow, hkeeps.searchable _ hsearch, hentry⟩, ?_⟩
      rintro (hunusable | hlocked | ⟨-, -, hnothing⟩)
      · exact absurd (hunusable.symm.trans husable) Bool.false_ne_true
      · exact absurd ((hlocked location hfollow).symm.trans hsearch) Bool.false_ne_true
      · rw [hnothing] at h
        cases h
  · rintro ⟨⟨location, hgranted, -, hentry⟩, hseen⟩
    rw [if_pos (by_contra fun h => hseen (.unusable (Bool.eq_false_iff.2 h))), Option.bind_some]
    obtain ⟨location', hfollow, hsearch⟩ : ∃ location, w.tree.follow d = .ok location ∧
        w.tree.isSearchable location = true := by
      by_contra hnone
      refine hseen (.locked fun location hfollow => Bool.eq_false_iff.2 fun hsearch => hnone ?_)
      exact ⟨location, hfollow, hsearch⟩
    obtain rfl : location' = location :=
      Except.ok.inj ((hkeeps.follow hfollow).symm.trans hgranted)
    cases htarget : w.tree.target? (location' ++ [name]) with
    | none =>
      obtain ⟨left, hway⟩ := Tree.follow_eq_ok_iff.1 hfollow
      have hstep : w.tree.step location' name = .ok (location' ++ [name]) :=
        (Tree.step_name hname).2 ⟨hsearch, rfl⟩
      exact isSome_entryAt?_iff.2 ⟨location' ++ [name], Tree.follow_eq_ok_iff.2 ⟨left,
        (Tree.leads_child_iff hname.slash_not_mem).2
          ⟨left, location', hway, .next hstep htarget (.here ..)⟩⟩, hentry⟩
    | some target =>
      by_contra hnothing
      refine hseen (.dangling hfollow (by rw [htarget]; rfl) ?_)
      simpa using hnothing

end Workspace

theorem CatalogFile.isEntryName_fileName : Path.IsEntryName CatalogFile.fileName :=
  ⟨by decide, by decide, by decide, by decide⟩

/-! ## Searching -/

section

variable (w : Workspace) (paths : List Path)

theorem run_firstPresent? : (firstPresent? paths : StateM Workspace (Option Path)).run w =
    (paths.find? fun path => (w.entryAt? path).isSome, w) := by
  induction paths with
  | nil => rfl
  | cons path rest ih =>
    rw [firstPresent?, StateT.run_bind, Workspace.run_present, List.find?_cons]
    change StateT.run (if (w.entryAt? path).isSome = true then _ else _) w = _
    cases (w.entryAt? path).isSome with
    | true => rfl
    | false => exact ih

theorem run_run_firstPresent? {ε : Type} :
    (firstPresent? paths : ExceptT ε (StateM Workspace) (Option Path)).run.run w =
      (.ok (paths.find? fun path => (w.entryAt? path).isSome), w) := by
  induction paths with
  | nil => rfl
  | cons path rest ih =>
    have hpresent : (Host.present path : ExceptT ε (StateM Workspace) Bool).run.run w =
        (.ok (w.entryAt? path).isSome, w) :=
      rfl
    rw [firstPresent?, run_run_bind, hpresent, List.find?_cons]
    cases (w.entryAt? path).isSome with
    | true => rfl
    | false => exact ih

end

namespace CatalogFile

variable {start : Path} {w : Workspace}

/-- What a search finds. -/
def nearest? (start : Path) (w : Workspace) : Option Path :=
  (start.candidates fileName).find? fun path => (w.entryAt? path).isSome

theorem run_find? (start : Path) (w : Workspace) :
    (find? start : StateM Workspace (Option Path)).run w = (nearest? start w, w) :=
  run_firstPresent? w _

theorem run_findAndLoad (start : Path) (w : Workspace) :
    (findAndLoad start : ExceptT Fault (StateM Workspace) CatalogFile).run.run w =
      match nearest? start w with
      | none => (.ok vectorEngine, w.told [.noFileFound fileName start.text])
      | some path => (load path : ExceptT Fault (StateM Workspace) CatalogFile).run.run w := by
  have hfind : (find? start : ExceptT Fault (StateM Workspace) (Option Path)).run.run w =
      (.ok (nearest? start w), w) :=
    run_run_firstPresent? w _
  rw [findAndLoad, run_run_bind, hfind]
  cases nearest? start w with
  | none => rfl
  | some path => rfl

/-- The directory in which something is found is the first that shows it. -/
theorem nearest?_eq_some_iff (habsolute : start.isAbsolute = true) {path : Path} :
    nearest? start w = some path ↔ ∃ nearer d farther, start.ancestors = nearer ++ d :: farther ∧
      path = d.child fileName ∧ w.Shows d fileName ∧ ∀ d ∈ nearer, ¬ w.Shows d fileName := by
  have hentry {d : Path} (hd : d ∈ start.ancestors) :
      (w.entryAt? (d.child fileName)).isSome = true ↔ w.Shows d fileName :=
    Workspace.isSome_entryAt?_child (Path.isAbsolute_of_mem_ancestors habsolute hd)
      isEntryName_fileName
  rw [nearest?, Path.candidates, List.find?_map, Option.map_eq_some_iff]
  simp only [List.find?_eq_some_iff_append, Function.comp_apply, Bool.not_eq_true',
    ← Bool.not_eq_true]
  constructor
  · rintro ⟨d, ⟨hd, nearer, farther, hsplit, hnearer⟩, rfl⟩
    have hmem : d ∈ start.ancestors := hsplit ▸ by simp
    refine ⟨nearer, d, farther, hsplit, rfl, (hentry hmem).1 hd, fun d' hd' h => ?_⟩
    exact hnearer d' hd' ((hentry (hsplit ▸ List.mem_append_left _ hd')).2 h)
  · rintro ⟨nearer, d, farther, hsplit, rfl, hd, hnearer⟩
    have hmem : d ∈ start.ancestors := hsplit ▸ by simp
    refine ⟨d, ⟨(hentry hmem).2 hd, nearer, farther, hsplit, fun d' hd' h => ?_⟩, rfl⟩
    exact hnearer d' hd' ((hentry (hsplit ▸ List.mem_append_left _ hd')).1 h)

theorem nearest?_eq_none_iff (habsolute : start.isAbsolute = true) :
    nearest? start w = none ↔ ∀ d ∈ start.ancestors, ¬ w.Shows d fileName := by
  rw [nearest?, Path.candidates, List.find?_eq_none, List.forall_mem_map]
  exact forall₂_congr fun d hd => not_congr (Workspace.isSome_entryAt?_child
    (Path.isAbsolute_of_mem_ancestors habsolute hd) isEntryName_fileName)

/-- Loading what a search has found fails unless it may be read and is the text of a catalog file. -/
theorem result_load_nearest {path : Path} (h : nearest? start w = some path) :
    ((load path : ExceptT Fault (StateM Workspace) CatalogFile).run.run w).1 =
      match w.text? path with
      | none => .error (.fileAccess "the path is not a text file")
      | some text =>
        match Toml.parse? text with
        | none => .error (.malformedDocument "the text is not a TOML document")
        | some v =>
          match ofValue? v with
          | none => .error (.malformedDocument "the document does not describe a catalog")
          | some file => .ok file := by
  have hentry : (w.entryAt? path).isSome = true :=
    List.find?_some (p := fun path => (w.entryAt? path).isSome) h
  rw [run_load, if_pos hentry]
  cases w.text? path with
  | none => rfl
  | some text =>
    simp only [ofText]
    cases Toml.parse? text with
    | none => rfl
    | some v => cases hfile : ofValue? v <;> simp [hfile]

/-- From the absolute path of a directory upwards, without a segment `..` in it, a search goes through
the directories that have all of its names down to none of them; where no link is on the way, those
names are where they are. It finds nothing exactly if none of them shows an entry called
`vedispatch.toml`, and otherwise the entry of the first that shows one. An entry does not show if its
path is no usable one, if a directory on the way may not be searched, or if it is a link that leads
nowhere. The built-in table is used only where nothing is found; what is found is loaded, and where it
may not be read, is no text file or is no catalog, that is the fault. -/
theorem find_nearest (start : Path) (w : Workspace) (habsolute : start.isAbsolute = true)
    (hup : ".." ∉ start.segments) :
    start.ancestors.map Path.names = start.names.inits.reverse ∧
    (∀ d ∈ start.ancestors, ∀ location, w.tree.follow d = .ok location →
      (∀ front, front <+: d.names → w.tree.target? front = none) → location = d.names) ∧
    ∃ found, (find? start : StateM Workspace (Option Path)).run w = (found, w) ∧
      (found = none ↔ ∀ d ∈ start.ancestors, ¬ w.Shows d fileName) ∧
      (∀ path, found = some path ↔
        ∃ nearer d farther, start.ancestors = nearer ++ d :: farther ∧
          path = d.child fileName ∧ w.Shows d fileName ∧ ∀ d ∈ nearer, ¬ w.Shows d fileName) ∧
      (findAndLoad start : ExceptT Fault (StateM Workspace) CatalogFile).run.run w =
        (match found with
        | none => (.ok vectorEngine, w.told [.noFileFound fileName start.text])
        | some path => (load path : ExceptT Fault (StateM Workspace) CatalogFile).run.run w) ∧
      ∀ path, found = some path →
        ((findAndLoad start : ExceptT Fault (StateM Workspace) CatalogFile).run.run w).1 =
          match w.text? path with
          | none => .error (.fileAccess "the path is not a text file")
          | some text =>
            match Toml.parse? text with
            | none => .error (.malformedDocument "the text is not a TOML document")
            | some v =>
              match ofValue? v with
              | none => .error (.malformedDocument "the document does not describe a catalog")
              | some file => .ok file := by
  refine ⟨Path.map_names_ancestors habsolute, fun d hd location hfollow hplain => ?_,
    nearest? start w, run_find? start w, nearest?_eq_none_iff habsolute,
    fun path => nearest?_eq_some_iff habsolute, run_findAndLoad start w, fun path hpath => ?_⟩
  · have hnames : d.names <+: start.names := Path.names_prefix_of_mem_ancestors habsolute hd
    have hsegments : ".." ∉ d.segments := fun hmem =>
      hup (List.mem_filter.1 (hnames.subset (List.mem_filter.2 ⟨hmem, by decide⟩))).1
    obtain ⟨left, hleads⟩ := Tree.follow_eq_ok_iff.1 hfollow
    exact hleads.eq_names hsegments fun front hfront => hplain front hfront
  · rw [run_findAndLoad, hpath]
    exact result_load_nearest hpath

/-- A file that holds no text, two directories below one that does; and above a directory that may not
be searched. -/
theorem find_nearest_unreadable :
    let root := Tree.empty.put ["vedispatch.toml"] (.file "name = 'root'".toUTF8)
    let tree := ((root.put ["a"] .directory).put ["a", "vedispatch.toml"] (.file ⟨#[255]⟩)).put
      ["a", "b"] (.directory .none)
    let w : Workspace := { Workspace.empty with tree }
    let start : Path := ⟨"/a/b"⟩
    start.isAbsolute = true ∧ ".." ∉ start.segments ∧
      (find? start : StateM Workspace (Option Path)).run w = (some ⟨"/a/vedispatch.toml"⟩, w) ∧
      ((findAndLoad start : ExceptT Fault (StateM Workspace) CatalogFile).run.run w).1 =
        .error (.fileAccess "the path is not a text file") := by
  intro root tree w start
  have habsolute : start.isAbsolute = true := by decide
  have hup : ".." ∉ start.segments := by decide
  obtain ⟨-, -, found, hfind, -, hfound, -, hload⟩ := find_nearest start w habsolute hup
  have hnearer : ¬ w.Shows start fileName := fun h => h.seen (.locked fun location hfollow => by
    have hlocation : w.tree.follow start = .ok ["a", "b"] := by decide +kernel
    obtain rfl := Except.ok.inj (hlocation.symm.trans hfollow)
    rfl)
  have hentry : w.Shows ⟨"/a"⟩ fileName :=
    (Workspace.isSome_entryAt?_child (by decide) isEntryName_fileName).1 (by decide)
  have hpath : found = some ⟨"/a/vedispatch.toml"⟩ :=
    (hfound _).2 ⟨[start], ⟨"/a"⟩, [⟨"/"⟩], by decide, by decide, hentry, by simpa using hnearer⟩
  have htext : w.text? ⟨"/a/vedispatch.toml"⟩ = none := by
    decide
  refine ⟨habsolute, hup, hpath ▸ hfind, ?_⟩
  rw [hload _ hpath, htext]

end CatalogFile

/-! ## Entries that do not show -/

namespace Path

variable {path : Path} {name : String}

theorem isUsable_eq_false_of_size (h : 4096 ≤ path.text.utf8ByteSize) : path.isUsable = false := by
  simp [isUsable, Nat.not_lt.2 h]

/-- An entry's path is no shorter than that of the directory. -/
theorem utf8ByteSize_le_child (path : Path) (name : String) :
    path.text.utf8ByteSize ≤ (path.child name).text.utf8ByteSize := by
  rw [text_child, String.utf8ByteSize_append, String.utf8ByteSize_append, Nat.add_assoc]
  exact Nat.le_add_right _ _

/-- Slashes behind a path. -/
def slashed (path : Path) (count : Nat) : Path :=
  ⟨path.text ++ String.ofList (List.replicate count '/')⟩

theorem isAbsolute_slashed (h : path.isAbsolute = true) (count : Nat) :
    (path.slashed count).isAbsolute = true := by
  have hne : path.text.toList ≠ [] := by
    intro hnil
    simp [isAbsolute, hnil] at h
  rwa [isAbsolute, slashed, String.toList_append, List.head?_append_of_ne_nil _ hne]

theorem segments_slashed (path : Path) (count : Nat) :
    (path.slashed count).segments = path.segments ++ List.replicate count "" :=
  segments_of_slashes (by rw [slashed, String.toList_append, String.toList_ofList])

theorem utf8ByteSize_slashed (path : Path) (count : Nat) :
    (path.slashed count).text.utf8ByteSize = path.text.utf8ByteSize + count := by
  rw [slashed, String.utf8ByteSize_append]
  congr 1
  induction count with
  | zero => rfl
  | succ count ih =>
    rw [List.replicate_succ, String.ofList_cons, String.utf8ByteSize_append,
      String.utf8ByteSize_singleton, ih]
    exact Nat.add_comm 1 count

theorem parentsOfReversed_replicate (count : Nat) (segments : List String) :
    parentsOfReversed (List.replicate count "" ++ segments) = parentsOfReversed segments := by
  induction count with
  | zero => rfl
  | succ count ih => rw [List.replicate_succ, List.cons_append, parentsOfReversed,
      if_pos (by decide), ih]

/-- Slashes behind a path do not change the directories above it. -/
theorem ancestors_slashed (path : Path) (count : Nat) :
    (path.slashed count).ancestors = path.slashed count :: path.ancestors.tail := by
  rw [ancestors, segments_slashed, List.tail_append_of_ne_nil path.segments_ne_nil,
    List.reverse_append, List.reverse_replicate, parentsOfReversed_replicate]
  rfl

end Path

namespace CatalogFile

/-- A directory under a long path, whose catalog file is no document: the search passes it over, and the
file of the directory above is loaded. -/
theorem find_passes_over_hidden :
    let near := Tree.empty.put ["d"] .directory
    let broken := near.put ["d", "vedispatch.toml"] (.file "no catalog".toUTF8)
    let tree := broken.put ["vedispatch.toml"] (.file "name = 'far'".toUTF8)
    let w : Workspace := { Workspace.empty with tree }
    let start : Path := ⟨"/d" ++ String.ofList (List.replicate 4200 '/')⟩
    start.isAbsolute = true ∧ ".." ∉ start.segments ∧ w.HasEntry start fileName ∧
      Toml.parse? "no catalog" = none ∧
      (find? start : StateM Workspace (Option Path)).run w = (some ⟨"/vedispatch.toml"⟩, w) ∧
      ∃ file, ((findAndLoad start : ExceptT Fault (StateM Workspace) CatalogFile).run.run w).1 =
        .ok file ∧ file.decl.name = "far" := by
  intro near broken tree w start
  have hstart : start = (Path.mk "/d").slashed 4200 := rfl
  have hsegments : start.segments = ["", "d"] ++ List.replicate 4200 "" := by
    rw [hstart, Path.segments_slashed]
    rfl
  have habsolute : start.isAbsolute = true :=
    hstart ▸ Path.isAbsolute_slashed (by decide) 4200
  have hancestors : start.ancestors = [start, ⟨"/"⟩] := by
    rw [hstart, Path.ancestors_slashed]
    rfl
  have hhides : w.Hides start fileName := by
    refine .unusable (Path.isUsable_eq_false_of_size ?_)
    refine Nat.le_trans ?_ (start.utf8ByteSize_le_child fileName)
    rw [hstart, Path.utf8ByteSize_slashed]
    exact Nat.le_add_left_of_le (by decide)
  have hfound : nearest? start w = some ⟨"/vedispatch.toml"⟩ := by
    have hfar : w.Shows ⟨"/"⟩ fileName :=
      (Workspace.isSome_entryAt?_child (by decide) isEntryName_fileName).1 (by decide)
    exact (nearest?_eq_some_iff habsolute).2 ⟨[start], ⟨"/"⟩, [], hancestors, by decide, hfar,
      by simpa using fun h : w.Shows start fileName => h.seen hhides⟩
  have hhas : w.HasEntry start fileName := by
    have hway : w.tree.granted.Leads Tree.maxLinks [] ["", "d"] 40 ["d"] :=
      Tree.walk_eq_ok_iff.1 (by decide +kernel)
    refine ⟨["d"], Tree.follow_eq_ok_iff.2 ⟨40, ?_⟩, rfl, rfl⟩
    rw [hsegments]
    exact Tree.leads_append_iff.2 ⟨40, ["d"], hway, Tree.leads_replicate rfl 40 4200⟩
  refine ⟨habsolute, ?_, hhas, by decide +kernel, ?_, ?_⟩
  · rw [hsegments, List.mem_append, List.mem_replicate]
    exact fun h => h.elim (by decide) fun h => absurd h.2 (by decide)
  · rw [run_find?, hfound]
  · have htext : w.text? ⟨"/vedispatch.toml"⟩ = some "name = 'far'" := by decide +kernel
    have hname : (ofText "name = 'far'").toOption.map (·.decl.name) = some "far" := by
      decide +kernel
    obtain ⟨file, hfile, hfar⟩ := Option.map_eq_some_iff.1 hname
    refine ⟨file, ?_, hfar⟩
    rw [run_findAndLoad, hfound]
    simp only [run_load, Workspace.isSome_entryAt?_of_text? htext, if_true, htext,
      toOption_eq_some_iff.1 hfile]

end CatalogFile

end DispatchGen
