/-!
# Paths as texts

A path is told to the user as it was written, so it stays a text: **nothing is normalized**, not a
doubled separator and not a `.` in the middle. Two things are done to a text that names a path,
joining a name to it and finding the directory it stands in. Both look only at its ends.
-/

set_option autoImplicit false

namespace TriggerFlow.Path

/-- The pieces between separators; there is always one more than there are separators. -/
def splitAt (separator : Char) : List Char → List (List Char)
  | [] => [[]]
  | c :: cs =>
    if c = separator then [] :: splitAt separator cs
    else match splitAt separator cs with
      | [] => [[c]]
      | piece :: pieces => (c :: piece) :: pieces

/-- The pieces of a path, empty ones included. -/
def pieces (path : String) : List String :=
  (splitAt '/' path.toList).map String.ofList

/-- Starts at the root. -/
def isAbsolute (path : String) : Bool :=
  path.toList.head? = some '/'

/-- Ends with a separator and so can name nothing but a directory. -/
def endsOpen (path : String) : Bool :=
  path.toList.getLast? = some '/'

/-- A path that continues another one. An absolute path does not continue anything. -/
def join (directory path : String) : String :=
  if isAbsolute path then path
  else if directory = "" || endsOpen directory then directory ++ path
  else directory ++ "/" ++ path

/-- A piece that leads nowhere. -/
def isIdle (piece : String) : Bool :=
  piece = "" || piece = "."

/-- Pieces without those at the end that lead nowhere. -/
def dropIdle (pieces : List String) : List String :=
  (pieces.reverse.dropWhile isIdle).reverse

/-- The directory that a path stands in, as it was written. The root and the empty path stand
nowhere; a single name stands in the empty path, which is the working directory. -/
def parent? (path : String) : Option String :=
  match pieces path with
  | [] => none
  | first :: rest =>
    match dropIdle rest with
    | [] => if first = "" then none else some ""
    | named =>
      match first, dropIdle named.dropLast with
      | "", [] => some "/"
      | _, above => some ("/".intercalate (first :: above))

end TriggerFlow.Path
