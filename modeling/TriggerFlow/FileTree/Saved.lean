import TriggerFlow.FileTree
import TriggerFlow.Failure

/-!
# Files that are read and written as a whole

A document and the entries of a store are each kept in a file of their own, one text. A file that is
missing is no failure to read, and one whose directory is missing gets it made before it is written.
**Where writing fails no file has changed**, though directories may have been made.
-/

set_option autoImplicit false

namespace TriggerFlow

namespace FileTree

/-- The text of a file, `none` if there is nothing at the path. -/
def readIfExists (t : FileTree) (path : String) : Except Failure (Option String) :=
  if t.exists? path then
    match t.read path with
    | .ok s => .ok (some s)
    | .error e => .error (.unreadable path e)
  else .ok none

/-- Makes the directory that a path stands in, if the path names one. An obstacle comes with the
directory that it kept from being made. -/
def makeParent (path : String) (t : FileTree) : Except (String × Obstacle) Unit × FileTree :=
  match Path.parent? path with
  | none | some "" => (.ok (), t)
  | some parent =>
    match t.makeDirectories parent with
    | (.ok (), t) => (.ok (), t)
    | (.error e, t) => (.error (parent, e), t)

/-- Writes a text to a file and makes the directory for it. -/
def save (path text : String) (t : FileTree) : Except Failure Unit × FileTree :=
  match t.makeParent path with
  | (.error (directory, e), t) => (.error (.noDirectory directory e), t)
  | (.ok (), t) =>
    match t.write path (.text text) with
    | .ok t => (.ok (), t)
    | .error e => (.error (.unwritable path e), t)

end FileTree

end TriggerFlow
