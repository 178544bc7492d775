import DispatchGen.Storage.Path

/-!
# Trees of files

A tree holds files, directories and symbolic links at locations; a location is the list of names that
leads there from the root. A path is followed segment by segment, and every segment must start from a
directory that may be searched, so only the last may lead to where there is nothing. Where a segment
leads to a link, what is left of the path is followed from the link's target.
`Tree.createDirectories` works downwards from the nearest directory that is there: what it has created
stays, even where it fails further down.
-/

namespace DispatchGen

/-- What may be done with a file or directory. Who may change it may look at it, too. -/
inductive Access where
  | none
  | look
  | change
deriving DecidableEq, Repr

namespace Access

def mayLook : Access → Bool
  | none => false
  | _ => true

def mayChange : Access → Bool
  | change => true
  | _ => false

end Access

inductive Entry where
  /-- To look into a directory is to follow paths through it, to change it is to create entries. -/
  | directory (access : Access := .change)
  | file (content : ByteArray) (access : Access := .change)
  | link (target : Path)

namespace Entry

def isDirectory : Entry → Bool
  | directory _ => true
  | _ => false

/-- A directory that paths lead through. -/
def isSearchable : Entry → Bool
  | directory access => access.mayLook
  | _ => false

/-- A directory in which entries may be created. -/
def isExtensible : Entry → Bool
  | directory access => access.mayChange
  | _ => false

/-- A file whose content may be replaced. -/
def isWritable : Entry → Bool
  | file _ access => access.mayChange
  | _ => false

def target? : Entry → Option Path
  | link target => some target
  | _ => none

end Entry

/-- The names that lead from the root to an entry. -/
abbrev Location := List String

/-- What keeps a path from being followed, or a directory from being created. -/
inductive Obstacle where
  /-- A directory on the way is missing. -/
  | missing
  /-- Something else is there, there can be nothing of that name, the directory may not be used, or
  there are too many links on the way. -/
  | blocked
deriving DecidableEq, Repr

theorem toOption_eq_some_iff {ε α : Type} {x : Except ε α} {a : α} :
    x.toOption = some a ↔ x = .ok a := by
  cases x <;> simp [Except.toOption]

structure Tree where
  entry? : Location → Option Entry

namespace Tree

/-- The tree that holds nothing but its root. -/
def empty : Tree where
  entry? location := if location = [] then some .directory else none

variable (t : Tree)

def isSearchable (location : Location) : Bool :=
  (t.entry? location).any (·.isSearchable)

def isExtensible (location : Location) : Bool :=
  (t.entry? location).any (·.isExtensible)

/-- What the link at a location stands for. -/
def target? (location : Location) : Option Path :=
  (t.entry? location).bind (·.target?)

/-- Puts an entry at a location, in place of what was there. -/
def put (location : Location) (entry : Entry) : Tree where
  entry? l := if l = location then some entry else t.entry? l

/-! ## Following paths -/

/-- Where a segment leads from a location. -/
def step (location : Location) (segment : String) : Except Obstacle Location :=
  match t.entry? location with
  | none => .error .missing
  | some entry =>
    if !entry.isSearchable then .error .blocked
    else if Path.isIdle segment then .ok location
    else if segment = ".." then .ok location.dropLast
    else if Path.isName segment then .ok (location ++ [segment])
    else .error .blocked

/-- Follows segments up to the first link, where `enter` goes on with the segments that are left. -/
def pass (t : Tree) (links : Nat)
    (enter : Location → Path → List String → Except Obstacle (Nat × Location))
    (location : Location) : List String → Except Obstacle (Nat × Location)
  | [] => .ok (links, location)
  | segment :: rest => do
    let next ← t.step location segment
    match t.target? next with
    | none => t.pass links enter next rest
    | some target => enter next target rest

/-- Where the target of a link is followed from: a relative one from the directory of the link. -/
def linkBase (location : Location) (target : Path) : Location :=
  if target.isAbsolute then [] else location.dropLast

/-- Follows segments and at most so many links. Gives the location, at which there is no link, and how
many more links may be followed from there. -/
def walk (t : Tree) : Nat → Location → List String → Except Obstacle (Nat × Location)
  | 0 => t.pass 0 fun _ _ _ => .error .blocked
  | links + 1 => t.pass (links + 1) fun location target rest =>
    if target.isUsable then t.walk links (linkBase location target) (target.segments ++ rest)
    else .error .missing

/-- The most links that are followed for one path. -/
def maxLinks : Nat := 40

/-- The location an absolute path leads to, which need not hold anything. -/
def follow (path : Path) : Except Obstacle Location :=
  (t.walk maxLinks [] path.segments).map Prod.snd

/-- The location that an absolute path names, even if there is a link. -/
def locate (path : Path) : Except Obstacle Location := do
  let way ← t.walk maxLinks [] path.segments.dropLast
  t.step way.2 (path.segments.getLastD "")

def entryAt? (path : Path) : Option Entry :=
  (t.follow path).toOption.bind t.entry?

/-- There is a directory at the path. -/
def hasDirectory (path : Path) : Bool :=
  (t.entryAt? path).any (·.isDirectory)

/-! ## Changing a tree -/

/-- A file may be replaced, or created where there is nothing and its directory may be changed. -/
def mayWrite (location : Location) : Bool :=
  match t.entry? location with
  | some entry => entry.isWritable
  | none => t.isExtensible location.dropLast

/-- Writes a file, where the path leads. -/
def write? (path : Path) (content : ByteArray) : Option Tree := do
  let location ← (t.follow path).toOption
  if t.mayWrite location then some (t.put location (.file content)) else none

/-- What is written replaces what is at one location. -/
theorem eq_put_of_write? {t t' : Tree} {path : Path} {content : ByteArray}
    (h : t.write? path content = some t') : ∃ location, t.follow path = .ok location ∧
      t.mayWrite location = true ∧ t' = t.put location (.file content) := by
  rw [write?, Option.bind_eq_bind, Option.bind_eq_some_iff] at h
  obtain ⟨location, hlocation, h⟩ := h
  rw [Option.ite_none_right_eq_some, Option.some_inj] at h
  exact ⟨location, toOption_eq_some_iff.1 hlocation, h.1, h.2.symm⟩

/-- Creates one directory where there is nothing; slashes at the end of its path do not count. -/
def makeDirectory (path : Path) : Except Obstacle Tree := do
  let location ← t.locate path.trimmed
  match t.entry? location with
  | none =>
    if t.isExtensible location.dropLast then return t.put location .directory
    else throw .blocked
  | some _ => throw .blocked

/-- Creates one directory unless it is there; tells whether it is there in the end. -/
def ensureDirectory (path : Path) : Bool × Tree :=
  match t.makeDirectory path with
  | .ok made => (true, made)
  | .error _ => (t.hasDirectory path, t)

/-- Creates the directory at the first of some paths; the paths of the directories above it follow, and
those that are missing are created first. Tells whether the directory is there in the end. -/
def createDirectories (t : Tree) : List Path → Bool × Tree
  | [] => (false, t)
  | path :: above =>
    match t.makeDirectory path with
    | .error .missing =>
      let (done, grown) := t.createDirectories above
      if done then grown.ensureDirectory path else (false, grown)
    | _ => t.ensureDirectory path

end Tree

end DispatchGen
