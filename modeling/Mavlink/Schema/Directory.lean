import Mavlink.Bytes
import Mavlink.Schema.Path

/-!
# Directories

A directory is what stands at its places.  A place is the list of the names that
lead there, so a folder need not be written down if something stands in it: every
place on the way to another is a folder.

A path is followed part by part.  An empty part and a single point stay where they
are, two points go back, and a name goes on to what it names.  Each of them is
followed from a folder, so nothing comes after the name of a file, not even a
slash.  A path that begins with a slash leads out of the directory, as does one
that goes back from its start, and nothing is found there.
-/

namespace Mavlink

/-- What stands at a place of a directory. -/
inductive DirectoryEntry where
  | file (content : Bytes)
  | folder
  deriving DecidableEq

/-- A directory: places and what stands there. -/
structure Directory where
  entries : List (List (List Char) × DirectoryEntry)
  deriving DecidableEq

namespace Directory

/-- The directory of entries under their paths. -/
def ofPaths (entries : List (String × DirectoryEntry)) : Directory :=
  ⟨entries.map fun e => (Path.parts e.1, e.2)⟩

/-- The file at a place. -/
def fileAt? (d : Directory) (place : List (List Char)) : Option Bytes :=
  match d.entries.find? (·.1 = place) with
  | some (_, .file content) => some content
  | _ => none

/-- Whether a folder is at a place: one that is written down, or one in which
something stands. -/
def hasFolder (d : Directory) (place : List (List Char)) : Bool :=
  d.entries.any fun e => place.isPrefixOf e.1 && (e.2 = .folder || place ≠ e.1)

/-- Follows the parts of a path from a folder to a file. -/
def follow? (d : Directory) (place : List (List Char)) : List (List Char) → Option Bytes
  | [] => none
  | part :: rest =>
    if part = [] ∨ part = ['.'] then d.follow? place rest
    else if part = ['.', '.'] then
      if place = [] then none else d.follow? place.dropLast rest
    else if rest = [] then d.fileAt? (place ++ [part])
    else if d.hasFolder (place ++ [part]) then d.follow? (place ++ [part]) rest
    else none

/-- The file at the end of a path. -/
def file? (d : Directory) (path : String) : Option Bytes :=
  match Path.split path.toList with
  | [] :: _ => none
  | parts => d.follow? [] parts

end Directory
end Mavlink
