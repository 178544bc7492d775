import DispatchGen.Text.Lines

/-!
# Paths

A path is kept as it was written; its segments are what stands between the slashes. `Path.ancestors`
lists an absolute path and every directory above it, nearest first; `Path.candidates` is where a file
of a given name is looked for from there upwards.
-/

namespace DispatchGen

structure Path where
  text : String
deriving DecidableEq, Repr

namespace Path

/-- What stands between the slashes; an absolute path has an empty segment in front. -/
def segments (path : Path) : List String :=
  (Text.splitAt '/' path.text.toList).map String.ofList

def isAbsolute (path : Path) : Bool :=
  path.text.toList.head? == some '/'

/-- The entry called `name` in the directory at `path`. -/
def child (path : Path) (name : String) : Path :=
  match path.text.toList.getLast? with
  | none => ⟨name⟩
  | some '/' => ⟨path.text ++ name⟩
  | some _ => ⟨path.text ++ "/" ++ name⟩

/-- The absolute path of the given segments. -/
def ofSegments (segments : List String) : Path :=
  ⟨"/" ++ "/".intercalate segments⟩

/-- The path without the slashes at its end. -/
def trimmed (path : Path) : Path :=
  ⟨String.ofList (path.text.toList.reverse.dropWhile (· == '/')).reverse⟩

/-- A path can lead somewhere if it is not empty, takes less than 4096 bytes and does not hold the
character U+0000. -/
def isUsable (path : Path) : Bool :=
  !path.text.isEmpty && path.text.utf8ByteSize < 4096 && !path.text.toList.contains '\u0000'

/-- A segment that stays where it is. -/
def isIdle (segment : String) : Bool :=
  segment == "" || segment == "."

/-- An entry's name takes at most 255 bytes. -/
def isName (segment : String) : Bool :=
  segment.utf8ByteSize ≤ 255

/-- The directories above, given the segments below the root, the last one first: idle segments at the
end of a path do not count. -/
def parentsOfReversed : List String → List Path
  | [] => []
  | segment :: rest =>
    if isIdle segment then parentsOfReversed rest
    else ofSegments (rest.dropWhile isIdle).reverse :: parentsOfReversed rest

/-- The absolute path itself and the directories above it, up to the root. -/
def ancestors (path : Path) : List Path :=
  path :: parentsOfReversed path.segments.tail.reverse

/-- Where an entry called `name` may be: in the directory at `path` or above, nearest first. -/
def candidates (path : Path) (name : String) : List Path :=
  path.ancestors.map (·.child name)

end Path

end DispatchGen
