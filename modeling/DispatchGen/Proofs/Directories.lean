import DispatchGen.Proofs.Following
import DispatchGen.Proofs.SavedFiles

/-!
# Creating directories

Creating a directory only ever adds directories, at the path and above it (`Tree.GrownBy`), and the
directory of a file that can be read is there already (`Workspace.createDirectories_of_text?`).
-/

namespace DispatchGen

open Text

namespace Tree

variable {t t' t'' : Tree} {location : Location} {path : Path}

/-! ## Growth -/

/-- Some directories were added, where the given paths lead; nothing else has changed. -/
def GrownBy (paths : List Path) (t t' : Tree) : Prop :=
  ∀ location, t'.entry? location = t.entry? location ∨
    t.entry? location = none ∧ t'.entry? location = some .directory ∧
      ∃ path ∈ paths, t'.follow path.trimmed = .ok location

namespace GrownBy

variable {paths paths' : List Path}

theorem refl (paths : List Path) (t : Tree) : t.GrownBy paths t :=
  fun _ => .inl rfl

/-- The new directories are neither in the way of any path nor a shortcut. -/
theorem keeps (h : GrownBy paths t t') : t.Keeps t' := by
  refine ⟨fun l hl => ?_, fun l => ?_⟩
  · rcases h l with hsame | ⟨-, hnew, -⟩
    · rwa [isSearchable, hsame]
    · rw [isSearchable, hnew]
      rfl
  · rcases h l with hsame | ⟨hnone, hnew, -⟩
    · rw [target?, target?, hsame]
    · rw [target?, target?, hnone, hnew]
      rfl

theorem mono (h : GrownBy paths t t') (hsub : paths ⊆ paths') : GrownBy paths' t t' := by
  intro l
  refine (h l).imp_right ?_
  rintro ⟨hnone, hnew, path, hpath, hfollow⟩
  exact ⟨hnone, hnew, path, hsub hpath, hfollow⟩

theorem trans (h : GrownBy paths t t') (h' : GrownBy paths t' t'') : GrownBy paths t t'' := by
  intro l
  rcases h' l with hsame' | ⟨hnone', hnew', hpath'⟩
  · rw [hsame']
    refine (h l).imp_right ?_
    rintro ⟨hnone, hnew, path, hpath, hfollow⟩
    exact ⟨hnone, hnew, path, hpath, h'.keeps.follow hfollow⟩
  · rcases h l with hsame | ⟨-, hnew, -⟩
    · exact .inr ⟨hsame ▸ hnone', hnew', hpath'⟩
    · rw [hnone'] at hnew
      cases hnew

end GrownBy

theorem grownBy_makeDirectory (h : t.makeDirectory path = .ok t') : t.GrownBy [path] t' := by
  rw [makeDirectory, bind_eq_ok] at h
  obtain ⟨location, hlocate, h⟩ := h
  cases hentry : t.entry? location with
  | some entry =>
    rw [hentry] at h
    cases h
  | none =>
    rw [hentry] at h
    simp only at h
    split at h
    case isFalse => cases h
    case isTrue =>
      obtain rfl := Except.ok.inj h
      have hkeeps : t.Keeps (t.put location .directory) :=
        keeps_put (by simp [isSearchable, hentry]) (by simp [target?, hentry]) rfl
      have hplain : (t.put location .directory).target? location = none :=
        (hkeeps.target location).trans (by simp [target?, hentry])
      intro l
      by_cases hl : l = location
      · subst hl
        exact .inr ⟨hentry, if_pos rfl, path, List.mem_singleton_self path,
          follow_of_locate (hkeeps.locate hlocate) hplain⟩
      · exact .inl (if_neg hl)

theorem grownBy_ensureDirectory (t : Tree) (path : Path) :
    t.GrownBy [path] (t.ensureDirectory path).2 := by
  rw [ensureDirectory]
  split
  · next made hmade => exact grownBy_makeDirectory hmade
  · exact .refl _ t

theorem grownBy_createDirectories (t : Tree) (paths : List Path) :
    t.GrownBy paths (t.createDirectories paths).2 := by
  induction paths with
  | nil => exact .refl _ t
  | cons path above ih =>
    have habove : t.GrownBy (path :: above) (t.createDirectories above).2 :=
      ih.mono (List.subset_cons_self _ _)
    have hensure (t : Tree) : t.GrownBy (path :: above) (t.ensureDirectory path).2 :=
      (grownBy_ensureDirectory t path).mono (by simp)
    rw [createDirectories]
    split
    · simp only
      split
      · exact habove.trans (hensure _)
      · exact habove
    · exact hensure t

/-! ## Directories that are there -/

theorem hasDirectory_iff : t.hasDirectory path = true ↔ ∃ location entry,
    t.follow path = .ok location ∧ t.entry? location = some entry ∧ entry.isDirectory = true := by
  simp only [hasDirectory, entryAt?, Option.any_eq_true, Option.bind_eq_some_iff,
    toOption_eq_some_iff]
  constructor
  · rintro ⟨entry, ⟨location, hfollow, hentry⟩, hdirectory⟩
    exact ⟨location, entry, hfollow, hentry, hdirectory⟩
  · rintro ⟨location, entry, hfollow, hentry, hdirectory⟩
    exact ⟨entry, ⟨location, hfollow, hentry⟩, hdirectory⟩

/-- Where an entry's path leads somewhere, there is the directory. -/
theorem hasDirectory_of_follow_child {name : String} (hname : '/' ∉ name.toList)
    (h : t.follow (path.child name) = .ok location) : t.hasDirectory path = true := by
  obtain ⟨left, hleads⟩ := follow_eq_ok_iff.1 h
  obtain ⟨between, mid, hpath, hentry⟩ := (leads_child_iff hname).1 hleads
  obtain ⟨_, hstep⟩ := hentry.exists_step
  obtain ⟨entry, hsome, hsearch⟩ := isSearchable_iff.1 (isSearchable_of_step hstep)
  exact hasDirectory_iff.2 ⟨mid, entry, follow_eq_ok_iff.2 ⟨between, hpath⟩, hsome,
    Entry.isDirectory_of_isSearchable hsearch⟩

theorem createDirectories_of_hasDirectory (h : t.hasDirectory path = true) (above : List Path) :
    t.createDirectories (path :: above) = (true, t) := by
  obtain ⟨location, entry, hfollow, hentry, hdirectory⟩ := hasDirectory_iff.1 h
  have htrimmed : t.follow path.trimmed = .ok location := by
    obtain ⟨left, hleads⟩ := follow_eq_ok_iff.1 hfollow
    obtain ⟨count, hsegments⟩ := path.segments_trimmed
    rw [hsegments, leads_append_iff] at hleads
    obtain ⟨between, mid, hfront, hslashes⟩ := hleads
    obtain rfl := hslashes.eq_of_replicate
    exact follow_eq_ok_iff.2 ⟨between, hfront⟩
  -- What is at the path already stops it from being made, and is then found to be a directory.
  have hmake : t.makeDirectory path = .error .blocked := by
    obtain ⟨named, hlocate, hnamed⟩ := exists_locate_of_follow htrimmed
    have hsome : (t.entry? named).isSome = true := by
      rcases hnamed with rfl | hlink
      · rw [hentry]
        rfl
      · rw [target?, Option.isSome_bind] at hlink
        exact Option.isSome_of_any hlink
    obtain ⟨_, hthere⟩ := Option.isSome_iff_exists.1 hsome
    rw [makeDirectory, hlocate]
    simp only [bind, Except.bind, hthere]
    rfl
  rw [createDirectories, hmake]
  simp only [ensureDirectory, hmake, h]

end Tree

/-! ## Directories of files -/

namespace Path

variable {path base : Path} {name : String}

theorem text_child_child (h : path.text ≠ "") :
    (base.child path.text).child name = base.child (path.child name).text := by
  have hlast : (base.child path.text).text.toList.getLast? = path.text.toList.getLast? := by
    have hne : path.text.toList ≠ [] := by simpa using h
    rw [text_child, String.toList_append, List.getLast?_append_of_ne_nil _ hne]
  have hjoint : (base.child path.text).joint = path.joint := by
    rw [joint, hlast, joint]
  have htext : ((base.child path.text).child name).text =
      (base.child (path.child name).text).text := by
    simp only [text_child, hjoint, String.append_assoc]
  exact congrArg Path.mk htext

theorem isUsable_of_child (hne : path.text ≠ "") (h : (path.child name).isUsable = true) :
    path.isUsable = true := by
  simp only [isUsable, text_child, Bool.and_eq_true, decide_eq_true_eq, Bool.not_eq_true',
    String.utf8ByteSize_append, String.toList_append] at h ⊢
  obtain ⟨⟨-, hsize⟩, hnul⟩ := h
  refine ⟨⟨by simpa using hne, by omega⟩, ?_⟩
  simp only [List.contains_append, Bool.or_eq_false_iff] at hnul
  exact hnul.1.1

end Path

namespace Workspace

variable {w : Workspace} {directory : Path} {name text : String}

theorem fromRoot?_child {absolute : Path} (hne : directory.text ≠ "")
    (h : w.fromRoot? (directory.child name) = some absolute) :
    ∃ root, w.fromRoot? directory = some root ∧ absolute = root.child name := by
  unfold fromRoot? at h ⊢
  split at h
  case isFalse => cases h
  case isTrue husable =>
    obtain rfl := Option.some.inj h
    rw [if_pos (Path.isUsable_of_child hne husable), Path.isAbsolute_child_eq hne]
    refine ⟨_, rfl, ?_⟩
    split
    · rfl
    · exact (Path.text_child_child hne).symm

theorem exists_follow_of_entryAt? {path : Path} (h : (w.entryAt? path).isSome = true) :
    ∃ absolute, w.fromRoot? path = some absolute ∧
      ∃ location, w.tree.follow absolute = .ok location := by
  rw [entryAt?] at h
  cases hroot : w.fromRoot? path with
  | none =>
    rw [hroot] at h
    cases h
  | some absolute =>
    refine ⟨absolute, rfl, ?_⟩
    rw [hroot, Option.bind_some, Tree.entryAt?] at h
    cases hfollow : w.tree.follow absolute with
    | error obstacle =>
      rw [hfollow] at h
      cases h
    | ok location => exact ⟨location, rfl⟩

/-- A directory and those above it, as they are seen from the root. -/
def above (w : Workspace) (directory : Path) : List Path :=
  ((w.fromRoot? directory).map Path.ancestors).getD []

theorem grownBy_createDirectories (w : Workspace) (directory : Path) :
    ∃ tree, (w.createDirectories directory).2 = { w with tree } ∧
      w.tree.GrownBy (w.above directory) tree := by
  unfold createDirectories above
  split
  · exact ⟨w.tree, rfl, .refl _ _⟩
  · cases w.fromRoot? directory with
    | none => exact ⟨w.tree, rfl, .refl _ _⟩
    | some root => exact ⟨_, rfl, Tree.grownBy_createDirectories w.tree root.ancestors⟩

/-- The directory of a file that can be read is there. -/
theorem createDirectories_of_text? (hname : '/' ∉ name.toList)
    (h : w.text? (directory.child name) = some text) :
    w.createDirectories directory = (true, w) := by
  unfold createDirectories
  cases hempty : directory.text.isEmpty with
  | true => rfl
  | false =>
    have hne : directory.text ≠ "" := by simpa using hempty
    have hentry := isSome_entryAt?_of_text? h
    obtain ⟨absolute, habsolute, location, hfollow⟩ := exists_follow_of_entryAt? hentry
    obtain ⟨root, hroot, rfl⟩ := fromRoot?_child hne habsolute
    have hdirectory := Tree.hasDirectory_of_follow_child hname hfollow
    rw [if_neg Bool.false_ne_true, hroot]
    simp only [Path.ancestors, Tree.createDirectories_of_hasDirectory hdirectory]

end Workspace

end DispatchGen
