import DispatchGen.Proofs.BareLines
import DispatchGen.Proofs.Checks
import DispatchGen.Storage.Tree
import Mathlib.Data.List.Infix

/-!
# Where a path leads

Idle segments do not lead anywhere, so a path goes by its names alone (`Path.names`), and the names of
the directories above it are the initial parts of its own (`Path.map_names_ancestors`).

`Tree.Leads` is the way from a location along some segments, link by link; it is what a walk goes
(`Tree.walk_eq_ok_iff`), and it can be cut anywhere (`Tree.leads_append_iff`). It is still there in
every tree that has the same links and in which all directories that could be searched still can
(`Tree.Leads.keeps`). Without `..` and without links it leads to where its names say
(`Tree.Leads.eq_names`).
-/

namespace DispatchGen

open Text

namespace Path

variable {path : Path} {segments : List String} {name : String}

/-- The segments of a path that lead somewhere. -/
def names (path : Path) : List String :=
  path.segments.filter fun segment => !isIdle segment

/-- What may be the name of an entry in a directory. -/
structure IsEntryName (name : String) : Prop where
  slash_not_mem : '/' ∉ name.toList
  not_idle : isIdle name = false
  not_up : name ≠ ".."
  isName : isName name = true

/-! ## Segments -/

theorem slash_not_mem_of_mem_segments {segment : String} (h : segment ∈ path.segments) :
    '/' ∉ segment.toList := by
  obtain ⟨piece, hpiece, rfl⟩ := List.mem_map.1 h
  rw [String.toList_ofList]
  exact not_mem_of_mem_splitAt hpiece

theorem segments_ne_nil (path : Path) : path.segments ≠ [] :=
  fun h => splitAt_ne_nil _ _ (List.map_eq_nil_iff.1 h)

theorem segments_eq_concat (path : Path) :
    path.segments.dropLast ++ [path.segments.getLastD ""] = path.segments := by
  rw [List.getLastD_eq_getLast?, List.getLast?_eq_some_getLast path.segments_ne_nil,
    Option.getD_some, List.dropLast_append_getLast]

theorem segments_of_isAbsolute (h : path.isAbsolute = true) :
    ∃ rest, path.segments = "" :: rest := by
  rw [isAbsolute, beq_iff_eq, List.head?_eq_some_iff] at h
  obtain ⟨rest, hrest⟩ := h
  refine ⟨(splitAt '/' rest).map String.ofList, ?_⟩
  rw [segments, hrest]
  rfl

theorem toList_intercalate_slash (segments : List String) :
    ("/".intercalate segments).toList = joinWith '/' (segments.map String.toList) := by
  rw [String.toList_intercalate]
  induction segments with
  | nil => rfl
  | cons segment rest ih =>
    cases rest with
    | nil => simp [joinWith]
    | cons next rest =>
      rw [List.map_cons, List.map_cons, List.intercalate_cons_cons, ← List.map_cons, ih]
      simp [joinWith]

theorem isAbsolute_ofSegments (segments : List String) :
    (ofSegments segments).isAbsolute = true := by
  simp [ofSegments, isAbsolute]

theorem names_ofSegments (h : ∀ segment ∈ segments, '/' ∉ segment.toList) :
    (ofSegments segments).names = segments.filter fun segment => !isIdle segment := by
  have htext : (ofSegments segments).text.toList =
      [] ++ '/' :: joinWith '/' (segments.map String.toList) := by
    simp only [ofSegments, String.toList_append, toList_intercalate_slash]
    rfl
  rw [names, Path.segments, htext, splitAt_append_sep]
  cases segments with
  | nil => rfl
  | cons segment rest =>
    have hpieces : ∀ piece ∈ (segment :: rest).map String.toList, '/' ∉ piece :=
      List.forall_mem_map.2 h
    rw [splitAt_joinWith (by simp) hpieces]
    simp [splitAt, isIdle]

theorem exists_text_eq_trimmed (path : Path) : ∃ count,
    path.text.toList = path.trimmed.text.toList ++ List.replicate count '/' := by
  have hend : (path.text.toList.reverse.takeWhile (· == '/')).reverse =
      List.replicate (path.text.toList.reverse.takeWhile (· == '/')).length '/' := by
    refine List.eq_replicate_iff.2 ⟨List.length_reverse, fun c hc => ?_⟩
    exact beq_iff_eq.1 (List.all_eq_true.1 List.all_takeWhile c (List.mem_reverse.1 hc))
  refine ⟨_, Eq.trans ?_ (congrArg _ hend)⟩
  rw [trimmed, String.toList_ofList, ← List.reverse_append, List.takeWhile_append_dropWhile,
    List.reverse_reverse]

theorem splitAt_append_slashes (front : List Char) (count : Nat) :
    splitAt '/' (front ++ List.replicate count '/') =
      splitAt '/' front ++ List.replicate count [] := by
  induction count with
  | zero => simp
  | succ count ih =>
    rw [List.replicate_succ', ← List.append_assoc, splitAt_append_sep, ih, List.replicate_succ',
      List.append_assoc]
    rfl

/-- Slashes at the end of a path stand between segments that are idle. -/
theorem segments_of_slashes {front : Path} {count : Nat}
    (h : path.text.toList = front.text.toList ++ List.replicate count '/') :
    path.segments = front.segments ++ List.replicate count "" := by
  rw [segments, h, splitAt_append_slashes, List.map_append, List.map_replicate]
  rfl

theorem segments_trimmed (path : Path) : ∃ count,
    path.segments = path.trimmed.segments ++ List.replicate count "" := by
  obtain ⟨count, htext⟩ := path.exists_text_eq_trimmed
  exact ⟨count, segments_of_slashes htext⟩

/-! ## Entries of directories -/

/-- What comes between a directory's path and the name of an entry. -/
def joint (path : Path) : String :=
  match path.text.toList.getLast? with
  | none => ""
  | some '/' => ""
  | some _ => "/"

theorem text_child (path : Path) (name : String) :
    (path.child name).text = path.text ++ path.joint ++ name := by
  unfold child
  split
  · next hlast =>
    have htext : path.text = "" := by simpa using hlast
    simp [joint, htext]
  · next hlast => simp only [joint, hlast, String.append_empty]
  · next c hc hlast =>
    have hjoint : path.joint = "/" := by
      rw [joint, hlast]
      split
      · next hnone => cases hnone
      · next hslash => exact absurd (Option.some.inj hslash) hc
      · rfl
    rw [hjoint]

/-- The last segment of an entry's path is its name; the segments before it have the names of the
directory. -/
theorem segments_child (path : Path) (h : '/' ∉ name.toList) :
    ∃ front, (path.child name).segments = front ++ [name] ∧
      (path.segments = front ∨ path.segments = front ++ [""]) := by
  unfold child segments
  cases hlast : path.text.toList.getLast? with
  | none =>
    have htext : path.text.toList = [] := by simpa using hlast
    refine ⟨[], ?_, .inr ?_⟩
    · simp [splitAt_of_not_mem h]
    · rw [htext]
      rfl
  | some c =>
    by_cases hc : c = '/'
    · subst hc
      obtain ⟨front, hfront⟩ := List.getLast?_eq_some_iff.1 hlast
      refine ⟨(splitAt '/' front).map String.ofList, ?_, .inr ?_⟩
      · simp only [String.toList_append, hfront, List.append_assoc, List.singleton_append,
          splitAt_append_sep, splitAt_of_not_mem h]
        simp
      · rw [hfront, splitAt_append_sep]
        simp [splitAt]
    · refine ⟨(splitAt '/' path.text.toList).map String.ofList, ?_, .inl rfl⟩
      split
      · next h => simp at h
      · next h => simp_all
      · simp [splitAt_append_sep, splitAt_of_not_mem h]

theorem isAbsolute_child_eq (h : path.text ≠ "") (name : String) :
    (path.child name).isAbsolute = path.isAbsolute := by
  have hne : path.text.toList ≠ [] := by simpa using h
  rw [isAbsolute, text_child, String.append_assoc, String.toList_append,
    List.head?_append_of_ne_nil _ hne, isAbsolute]

theorem isAbsolute_child (h : path.isAbsolute = true) (name : String) :
    (path.child name).isAbsolute = true := by
  have hne : path.text ≠ "" := by
    intro hempty
    simp [isAbsolute, hempty] at h
  rw [isAbsolute_child_eq hne, h]

/-! ## The directories above -/

theorem filter_not_dropWhile {α : Type} (p : α → Bool) (xs : List α) :
    (xs.dropWhile p).filter (fun x => !p x) = xs.filter fun x => !p x := by
  induction xs with
  | nil => rfl
  | cons x xs ih =>
    cases hx : p x with
    | true => simpa [hx] using ih
    | false => rw [List.dropWhile_cons_of_neg (by simp [hx])]

theorem map_names_parentsOfReversed (h : ∀ segment ∈ segments, '/' ∉ segment.toList) :
    (parentsOfReversed segments).map names =
      (segments.filter fun segment => !isIdle segment).tails.tail.map List.reverse := by
  -- The segments run from the last one up: an idle one is passed over, behind any other is a parent.
  induction segments with
  | nil => rfl
  | cons segment rest ih =>
    rw [List.forall_mem_cons] at h
    rw [parentsOfReversed]
    cases hidle : isIdle segment with
    | true => simpa [hidle] using ih h.2
    | false =>
      have hrest : ∀ s ∈ (rest.dropWhile isIdle).reverse, '/' ∉ s.toList := fun s hs =>
        h.2 s ((List.dropWhile_sublist _).subset (List.mem_reverse.1 hs))
      have hnames : (ofSegments (rest.dropWhile isIdle).reverse).names =
          (rest.filter fun segment => !isIdle segment).reverse := by
        rw [names_ofSegments hrest, List.filter_reverse, filter_not_dropWhile]
      have hfilter : (segment :: rest).filter (fun segment => !isIdle segment) =
          segment :: rest.filter fun segment => !isIdle segment := by
        simp [hidle]
      rw [if_neg Bool.false_ne_true, List.map_cons, hnames, ih h.2, hfilter, List.tails_cons,
        List.tail_cons]
      cases rest.filter fun segment => !isIdle segment with
      | nil => rfl
      | cons name names => rw [List.tails_cons, List.map_cons, List.tail_cons]

/-- The names of a path and of the directories above it: from all of the path's names down to none. -/
theorem map_names_ancestors (h : path.isAbsolute = true) :
    path.ancestors.map names = path.names.inits.reverse := by
  obtain ⟨rest, hrest⟩ := segments_of_isAbsolute h
  have hslash : ∀ segment ∈ rest.reverse, '/' ∉ segment.toList := fun segment hs =>
    slash_not_mem_of_mem_segments (hrest ▸ List.mem_cons_of_mem _ (List.mem_reverse.1 hs))
  have hnames : path.names = rest.filter fun segment => !isIdle segment := by
    rw [names, hrest]
    rfl
  rw [ancestors, List.map_cons, hrest, List.tail_cons, map_names_parentsOfReversed hslash,
    List.filter_reverse, ← hnames, List.inits_eq_tails, List.reverse_reverse]
  cases hreverse : path.names.reverse with
  | nil =>
    rw [List.reverse_eq_nil_iff.1 hreverse]
    rfl
  | cons name names =>
    rw [List.tails_cons, List.map_cons, List.tail_cons, ← hreverse, List.reverse_reverse]

theorem isAbsolute_of_mem_ancestors (h : path.isAbsolute = true) {d : Path}
    (hd : d ∈ path.ancestors) : d.isAbsolute = true := by
  have hparents (segments : List String) :
      ∀ d ∈ parentsOfReversed segments, d.isAbsolute = true := by
    induction segments with
    | nil => exact List.forall_mem_nil _
    | cons segment rest ih =>
      rw [parentsOfReversed]
      split
      · exact ih
      · exact List.forall_mem_cons.2 ⟨isAbsolute_ofSegments _, ih⟩
  rcases List.mem_cons.1 hd with rfl | hd
  · exact h
  · exact hparents _ d hd

theorem names_prefix_of_mem_ancestors (h : path.isAbsolute = true) {d : Path}
    (hd : d ∈ path.ancestors) : d.names <+: path.names := by
  have hmem : d.names ∈ path.ancestors.map names := List.mem_map_of_mem hd
  rw [map_names_ancestors h, List.mem_reverse] at hmem
  exact List.mem_inits _ _ |>.1 hmem

end Path

namespace Entry

variable {entry : Entry}

theorem isDirectory_of_isSearchable (h : entry.isSearchable = true) : entry.isDirectory = true := by
  cases entry with
  | directory => rfl
  | file => cases h
  | link => cases h

theorem target?_of_isDirectory (h : entry.isDirectory = true) : entry.target? = none := by
  cases entry with
  | directory => rfl
  | file => cases h
  | link => cases h

end Entry

namespace Tree

variable {t t' : Tree} {location mid start stop : Location} {segments : List String}
  {segment name : String} {path target : Path} {links left : Nat}

/-! ## Single segments -/

theorem step_eq_ok_iff : t.step start segment = .ok location ↔
    t.isSearchable start = true ∧
      if Path.isIdle segment then location = start
      else if segment = ".." then location = start.dropLast
      else Path.isName segment = true ∧ location = start ++ [segment] := by
  unfold step isSearchable
  cases t.entry? start with
  | none => simp
  | some entry =>
    cases hsearch : entry.isSearchable with
    | false => simp [hsearch]
    | true =>
      simp only [hsearch, Option.any_some, Bool.not_true, Bool.false_eq_true, if_false, true_and]
      split
      · simp [eq_comm]
      · split
        · simp [eq_comm]
        · split
          · next h => simp [h, eq_comm]
          · next h => simp [h]

theorem isSearchable_of_step (h : t.step start segment = .ok location) :
    t.isSearchable start = true :=
  (step_eq_ok_iff.1 h).1

theorem step_idle (h : t.isSearchable start = true) : t.step start "" = .ok start :=
  step_eq_ok_iff.2 ⟨h, by rw [if_pos (by decide)]⟩

theorem step_name (hname : Path.IsEntryName name) :
    t.step start name = .ok location ↔ t.isSearchable start = true ∧ location = start ++ [name] := by
  simp [step_eq_ok_iff, hname.not_idle, hname.not_up, hname.isName]

theorem isSearchable_iff : t.isSearchable location = true ↔
    ∃ entry, t.entry? location = some entry ∧ entry.isSearchable = true := by
  rw [isSearchable, Option.any_eq_true]

/-- A directory is no link. -/
theorem target?_of_isSearchable (h : t.isSearchable location = true) : t.target? location = none := by
  obtain ⟨entry, hentry, hsearch⟩ := isSearchable_iff.1 h
  rw [target?, hentry, Option.bind_some]
  exact Entry.target?_of_isDirectory (Entry.isDirectory_of_isSearchable hsearch)

/-! ## Ways -/

/-- From `start` the segments lead to `stop`, where there is no link; `links` links may be followed,
and `left` more of them are not needed. -/
inductive Leads (t : Tree) : Nat → Location → List String → Nat → Location → Prop
  | here (links : Nat) (location : Location) : Leads t links location [] links location
  | next {links left : Nat} {start mid stop : Location} {segment : String} {rest : List String}
      (step : t.step start segment = .ok mid) (plain : t.target? mid = none)
      (onward : Leads t links mid rest left stop) : Leads t links start (segment :: rest) left stop
  | enter {links left : Nat} {start mid stop : Location} {segment : String} {rest : List String}
      {target : Path} (step : t.step start segment = .ok mid) (link : t.target? mid = some target)
      (usable : target.isUsable = true)
      (onward : Leads t links (linkBase mid target) (target.segments ++ rest) left stop) :
      Leads t (links + 1) start (segment :: rest) left stop

theorem walk_nil : t.walk links start [] = .ok (links, start) := by
  cases links <;> rfl

theorem walk_cons_of_plain {rest : List String} (hstep : t.step start segment = .ok mid)
    (hplain : t.target? mid = none) :
    t.walk links start (segment :: rest) = t.walk links mid rest := by
  cases links <;>
    simp only [walk, pass, hstep, hplain, bind, Except.bind]

theorem walk_cons_of_link {rest : List String} (hstep : t.step start segment = .ok mid)
    (hlink : t.target? mid = some target) (husable : target.isUsable = true) :
    t.walk (links + 1) start (segment :: rest) =
      t.walk links (linkBase mid target) (target.segments ++ rest) := by
  simp only [walk, pass, hstep, hlink, husable, bind, Except.bind, if_true]

theorem Leads.walk_eq (h : t.Leads links start segments left stop) :
    t.walk links start segments = .ok (left, stop) := by
  induction h with
  | here => exact walk_nil
  | next hstep hplain _ ih => rw [walk_cons_of_plain hstep hplain, ih]
  | enter hstep hlink husable _ ih => rw [walk_cons_of_link hstep hlink husable, ih]

/-- Segments up to a link are a way, if what is left behind the link is one. -/
theorem leads_of_pass {enter : Location → Path → List String → Except Obstacle (Nat × Location)}
    (henter : ∀ mid target rest, enter mid target rest = .ok (left, stop) → ∃ fewer,
      links = fewer + 1 ∧ target.isUsable = true ∧
        t.Leads fewer (linkBase mid target) (target.segments ++ rest) left stop)
    (h : t.pass links enter start segments = .ok (left, stop)) :
    t.Leads links start segments left stop := by
  induction segments generalizing start with
  | nil =>
    cases h
    exact .here ..
  | cons segment rest ih =>
    rw [pass, bind_eq_ok] at h
    obtain ⟨mid, hstep, h⟩ := h
    cases htarget : t.target? mid with
    | none =>
      rw [htarget] at h
      exact .next hstep htarget (ih h)
    | some target =>
      rw [htarget] at h
      obtain ⟨fewer, rfl, husable, honward⟩ := henter mid target rest h
      exact .enter hstep htarget husable honward

theorem walk_eq_ok_iff :
    t.walk links start segments = .ok (left, stop) ↔ t.Leads links start segments left stop := by
  refine ⟨fun h => ?_, Leads.walk_eq⟩
  -- Each link that is entered takes one from the links that are left.
  induction links generalizing start segments with
  | zero =>
    rw [walk] at h
    refine leads_of_pass (fun _ _ _ hrest => ?_) h
    cases hrest
  | succ links ih =>
    refine leads_of_pass (fun mid target rest hrest => ?_) h
    split at hrest
    · next husable => exact ⟨links, rfl, husable, ih hrest⟩
    · cases hrest

theorem leads_nil : t.Leads links start [] left stop ↔ left = links ∧ stop = start := by
  constructor
  · rintro ⟨⟩
    exact ⟨rfl, rfl⟩
  · rintro ⟨rfl, rfl⟩
    exact .here ..

/-- A way can be cut between any two segments. -/
theorem leads_append_iff {front rest : List String} :
    t.Leads links start (front ++ rest) left stop ↔
      ∃ between mid, t.Leads links start front between mid ∧ t.Leads between mid rest left stop := by
  constructor
  · intro h
    generalize hsegments : front ++ rest = segments at h
    induction h generalizing front with
    | here links location =>
      obtain ⟨rfl, rfl⟩ := List.append_eq_nil_iff.1 hsegments
      exact ⟨links, location, .here .., .here ..⟩
    | @next links left start mid stop segment tail hstep hplain honward ih =>
      cases front with
      | nil =>
        rw [List.nil_append] at hsegments
        exact ⟨links, start, .here .., hsegments ▸ .next hstep hplain honward⟩
      | cons s front =>
        obtain ⟨rfl, rfl⟩ := List.cons.inj hsegments
        obtain ⟨between, mid', hfront, hrest⟩ := ih rfl
        exact ⟨between, mid', .next hstep hplain hfront, hrest⟩
    | @enter links left start mid stop segment tail target hstep hlink husable honward ih =>
      cases front with
      | nil =>
        rw [List.nil_append] at hsegments
        exact ⟨_, start, .here .., hsegments ▸ .enter hstep hlink husable honward⟩
      | cons s front =>
        obtain ⟨rfl, rfl⟩ := List.cons.inj hsegments
        obtain ⟨between, mid', hfront, hrest⟩ := ih (List.append_assoc ..)
        exact ⟨between, mid', .enter hstep hlink husable hfront, hrest⟩
  · rintro ⟨between, mid, hfront, hrest⟩
    induction hfront with
    | here => exact hrest
    | next hstep hplain _ ih => exact .next hstep hplain (ih hrest)
    | enter hstep hlink husable _ ih =>
      have honward := ih hrest
      rw [List.append_assoc] at honward
      exact .enter hstep hlink husable honward

theorem leads_singleton_of_plain (hstep : t.step start segment = .ok mid)
    (hplain : t.target? mid = none) :
    t.Leads links start [segment] left stop ↔ left = links ∧ stop = mid := by
  rw [← walk_eq_ok_iff, walk_cons_of_plain hstep hplain, walk_eq_ok_iff, leads_nil]

/-- The first segment of a way is one step. -/
theorem Leads.exists_step {rest : List String} (h : t.Leads links start (segment :: rest) left stop) :
    ∃ mid, t.step start segment = .ok mid := by
  cases h with
  | next hstep => exact ⟨_, hstep⟩
  | enter hstep => exact ⟨_, hstep⟩

/-- An empty segment stays where it is, which has to be a directory. -/
theorem leads_empty :
    t.Leads links start [""] left stop ↔ t.isSearchable start = true ∧ left = links ∧ stop = start := by
  constructor
  · intro h
    obtain ⟨mid, hstep⟩ := h.exists_step
    have hsearch := isSearchable_of_step hstep
    exact ⟨hsearch, (leads_singleton_of_plain (step_idle hsearch)
      (target?_of_isSearchable hsearch)).1 h⟩
  · rintro ⟨hsearch, h⟩
    exact (leads_singleton_of_plain (step_idle hsearch) (target?_of_isSearchable hsearch)).2 h

theorem leads_replicate (h : t.isSearchable start = true) (links count : Nat) :
    t.Leads links start (List.replicate count "") links start := by
  induction count with
  | zero => exact .here ..
  | succ count ih => exact .next (step_idle h) (target?_of_isSearchable h) ih

theorem Leads.eq_of_replicate {count : Nat}
    (h : t.Leads links start (List.replicate count "") left stop) : stop = start := by
  induction count generalizing links start with
  | zero => exact (leads_nil.1 h).2
  | succ count ih =>
    rw [List.replicate_succ, ← List.singleton_append] at h
    obtain ⟨between, mid, hfirst, hrest⟩ := leads_append_iff.1 h
    obtain ⟨-, -, rfl⟩ := leads_empty.1 hfirst
    exact ih hrest

/-- A way of any length ends beside a link, never at one. -/
theorem Leads.plain (h : t.Leads links start segments left stop) (hne : segments ≠ []) :
    t.target? stop = none := by
  induction h with
  | here => exact absurd rfl hne
  | @next links left start mid stop segment rest hstep hplain honward ih =>
    cases rest with
    | nil =>
      obtain ⟨-, rfl⟩ := leads_nil.1 honward
      exact hplain
    | cons => exact ih (List.cons_ne_nil _ _)
  | @enter links left start mid stop segment rest target hstep hlink husable honward ih =>
    exact ih fun hnil => target.segments_ne_nil (List.append_eq_nil_iff.1 hnil).1

/-! ## Paths -/

theorem follow_eq_ok_iff :
    t.follow path = .ok location ↔ ∃ left, t.Leads maxLinks [] path.segments left location := by
  rw [follow]
  simp only [← walk_eq_ok_iff]
  cases t.walk maxLinks [] path.segments with
  | error => simp [Except.map]
  | ok way => simp [Except.map, Prod.ext_iff]

/-- The path of an entry leads through the directory. -/
theorem leads_child_iff (hname : '/' ∉ name.toList) :
    t.Leads links start (path.child name).segments left stop ↔ ∃ between mid,
      t.Leads links start path.segments between mid ∧ t.Leads between mid [name] left stop := by
  obtain ⟨front, hchild, hpath | hpath⟩ := path.segments_child hname
  · rw [hchild, hpath, leads_append_iff]
  · rw [hchild, hpath, leads_append_iff]
    refine exists₂_congr fun between mid => and_congr_left fun hentry => ?_
    -- The directory's path ends with a slash, behind which nothing follows.
    have hsearch : t.isSearchable mid = true := isSearchable_of_step hentry.exists_step.choose_spec
    constructor
    · intro h
      exact leads_append_iff.2 ⟨between, mid, h, leads_empty.2 ⟨hsearch, rfl, rfl⟩⟩
    · intro h
      obtain ⟨_, _, h, hslash⟩ := leads_append_iff.1 h
      obtain ⟨-, rfl, rfl⟩ := leads_empty.1 hslash
      exact h

theorem locate_eq_ok_iff : t.locate path = .ok location ↔ ∃ left mid,
    t.Leads maxLinks [] path.segments.dropLast left mid ∧
      t.step mid (path.segments.getLastD "") = .ok location := by
  rw [locate, bind_eq_ok]
  constructor
  · rintro ⟨⟨left, mid⟩, hway, hstep⟩
    exact ⟨left, mid, walk_eq_ok_iff.1 hway, hstep⟩
  · rintro ⟨left, mid, hway, hstep⟩
    exact ⟨(left, mid), hway.walk_eq, hstep⟩

theorem follow_of_locate (h : t.locate path = .ok location) (hplain : t.target? location = none) :
    t.follow path = .ok location := by
  obtain ⟨left, mid, hway, hstep⟩ := locate_eq_ok_iff.1 h
  refine follow_eq_ok_iff.2 ⟨left, ?_⟩
  rw [← path.segments_eq_concat]
  exact leads_append_iff.2 ⟨left, mid, hway, .next hstep hplain (.here ..)⟩

/-- A path that leads somewhere names something there or a link. -/
theorem exists_locate_of_follow (h : t.follow path = .ok location) : ∃ named,
    t.locate path = .ok named ∧ (named = location ∨ (t.target? named).isSome = true) := by
  obtain ⟨left, hleads⟩ := follow_eq_ok_iff.1 h
  rw [← path.segments_eq_concat, leads_append_iff] at hleads
  obtain ⟨between, mid, hfront, hlast⟩ := hleads
  obtain ⟨named, hstep⟩ := hlast.exists_step
  refine ⟨named, locate_eq_ok_iff.2 ⟨between, mid, hfront, hstep⟩, ?_⟩
  cases htarget : t.target? named with
  | none => exact .inl ((leads_singleton_of_plain hstep htarget).1 hlast).2.symm
  | some target => exact .inr rfl

/-! ## Trees with the same ways -/

/-- The other tree has the same links, and no directory is closed that was open. -/
structure Keeps (t t' : Tree) : Prop where
  searchable : ∀ location, t.isSearchable location = true → t'.isSearchable location = true
  target : ∀ location, t'.target? location = t.target? location

theorem Leads.keeps (h : t.Leads links start segments left stop) (hkeeps : t.Keeps t') :
    t'.Leads links start segments left stop := by
  have hsteps {start mid : Location} {segment : String} (hstep : t.step start segment = .ok mid) :
      t'.step start segment = .ok mid := by
    rw [step_eq_ok_iff] at hstep ⊢
    exact hstep.imp_left (hkeeps.searchable start)
  induction h with
  | here => exact .here ..
  | next hstep hplain _ ih => exact .next (hsteps hstep) ((hkeeps.target _).trans hplain) ih
  | enter hstep hlink husable _ ih =>
    exact .enter (hsteps hstep) ((hkeeps.target _).trans hlink) husable ih

namespace Keeps

variable (h : t.Keeps t')
include h

theorem follow (hfollow : t.follow path = .ok location) : t'.follow path = .ok location := by
  obtain ⟨left, hleads⟩ := follow_eq_ok_iff.1 hfollow
  exact follow_eq_ok_iff.2 ⟨left, hleads.keeps h⟩

theorem locate (hlocate : t.locate path = .ok location) : t'.locate path = .ok location := by
  obtain ⟨left, mid, hleads, hstep⟩ := locate_eq_ok_iff.1 hlocate
  refine locate_eq_ok_iff.2 ⟨left, mid, hleads.keeps h, ?_⟩
  rw [step_eq_ok_iff] at hstep ⊢
  exact hstep.imp_left (h.searchable mid)

end Keeps

/-- What is put where there was neither a directory nor a link changes no way, if it is no link. -/
theorem keeps_put {entry : Entry} (hsearch : t.isSearchable location = false)
    (hplain : t.target? location = none) (hentry : entry.target? = none) :
    t.Keeps (t.put location entry) := by
  have hother {l : Location} (hl : l ≠ location) :
      Tree.entry? (t.put location entry) l = t.entry? l := if_neg hl
  have hsame : Tree.entry? (t.put location entry) location = some entry := if_pos rfl
  refine ⟨fun l hl => ?_, fun l => ?_⟩
  · have hne : l ≠ location := by
      rintro rfl
      exact absurd (hsearch.symm.trans hl) Bool.false_ne_true
    rwa [isSearchable, hother hne]
  · by_cases hl : l = location
    · rw [hl, hplain, target?, hsame, Option.bind_some, hentry]
    · rw [target?, target?, hother hl]

/-! ## Ways without links -/

theorem eq_of_step (h : t.step start segment = .ok mid) (hup : segment ≠ "..") :
    mid = start ++ [segment].filter fun segment => !Path.isIdle segment := by
  have hmid := (step_eq_ok_iff.1 h).2
  rw [if_neg hup] at hmid
  split at hmid
  · next hidle => simp [hmid, hidle]
  · next hidle => simp [hmid.2, hidle]

/-- Where there is no link and no segment `..`, a path leads to where its names say. -/
theorem Leads.eq_names (h : t.Leads links start segments left stop) (hup : ".." ∉ segments)
    (hplain : ∀ front, front <+: segments.filter (fun segment => !Path.isIdle segment) →
      t.target? (start ++ front) = none) :
    stop = start ++ segments.filter fun segment => !Path.isIdle segment := by
  induction h with
  | here => simp
  | @next links left start mid stop segment rest hstep _ _ ih =>
    rw [List.mem_cons, not_or] at hup
    rw [← List.singleton_append, List.filter_append] at hplain ⊢
    obtain rfl := eq_of_step hstep (Ne.symm hup.1)
    rw [← List.append_assoc]
    refine ih hup.2 fun front hfront => ?_
    rw [List.append_assoc]
    exact hplain _ ((List.prefix_append_right_inj _).2 hfront)
  | @enter links left start mid stop segment rest target hstep hlink =>
    rw [List.mem_cons, not_or] at hup
    rw [← List.singleton_append, List.filter_append] at hplain
    obtain rfl := eq_of_step hstep (Ne.symm hup.1)
    have hnone := hplain _ (List.prefix_append _ _)
    rw [hlink] at hnone
    cases hnone

end Tree

end DispatchGen
