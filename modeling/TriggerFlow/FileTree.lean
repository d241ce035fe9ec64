import TriggerFlow.FileTree.Obstacle
import TriggerFlow.FileTree.Path

/-!
# A tree of files

Documents, stores and configuration live in files, and what is done to files is part of what has to
be right: what a failed write leaves behind, which of two obstacles is told. A `FileTree` is a value
that holds all of it. It says **what stands at each place**; a path is a text that is followed, name
by name, to a place.

No operation takes anything away: a write replaces the content of one file or adds one, and making
directories adds directories.
-/

set_option autoImplicit false

namespace TriggerFlow

/-- A place in the tree: the names on the way to it, innermost first. The root is the empty list. -/
abbrev Place := List String

/-- What a file holds. -/
inductive FileContent where
  | text (s : String)
  /-- Bytes that are no text. -/
  | binary (bytes : List UInt8)
  deriving DecidableEq

inductive FileNode where
  | directory
  | file (content : FileContent)
  deriving DecidableEq

/-- A tree of files. A place is kept with its depth, so that places of different depth are told
apart without a look at their names. -/
structure FileTree where
  /-- What stands at the places that are not empty, the last made first. -/
  nodes : List ((Nat × Place) × FileNode)
  /-- The place where relative paths start. -/
  here : Place

namespace FileTree

/-! ## Places -/

/-- A place as it is kept. -/
def key (place : Place) : Nat × Place := (place.length, place)

/-- What stands at a place. The root is always a directory. -/
def at? (t : FileTree) (place : Place) : Option FileNode :=
  if place = [] then some .directory else t.nodes.lookup (key place)

/-- Puts a node at a place, in the stead of what stood there. -/
def put (place : Place) (node : FileNode) (t : FileTree) : FileTree :=
  { t with nodes := (key place, node) :: t.nodes.filter fun n => n.1 ≠ key place }

/-- Removes what stands at a place and everything below it. -/
def erase (place : Place) (t : FileTree) : FileTree :=
  { t with nodes := t.nodes.filter fun n => !place.isSuffixOf n.1.2 }

/-- The places that are not empty, the last made first. -/
def places (t : FileTree) : List Place :=
  t.nodes.map fun n => n.1.2

theorem key_inj {p q : Place} : key p = key q ↔ p = q :=
  ⟨fun h => congrArg Prod.snd h, fun h => h ▸ rfl⟩

private theorem lookup_filter_of_ne {k k' : Nat × Place} (h : k' ≠ k)
    (nodes : List ((Nat × Place) × FileNode)) :
    (nodes.filter fun n => n.1 ≠ k).lookup k' = nodes.lookup k' := by
  induction nodes with
  | nil => rfl
  | cons n nodes ih =>
    by_cases hn : n.1 = k
    · rw [List.filter_cons_of_neg (by simp [hn]), ih, List.lookup_cons,
        beq_false_of_ne (hn ▸ h)]
    · rw [List.filter_cons_of_pos (by simp [hn]), List.lookup_cons, List.lookup_cons, ih]

/-- The root apart, what is put at a place stands there. -/
theorem at?_put_self (t : FileTree) (node : FileNode) {place : Place} (h : place ≠ []) :
    (t.put place node).at? place = some node := by
  simp [at?, put, h]

/-- Putting leaves what stands at every other place. -/
theorem at?_put_of_ne (t : FileTree) (node : FileNode) {place other : Place}
    (h : other ≠ place) : (t.put place node).at? other = t.at? other := by
  have hk : key other ≠ key place := fun e => h (key_inj.1 e)
  unfold at? put
  rw [List.lookup_cons, beq_false_of_ne hk, lookup_filter_of_ne hk]

/-! ## Following a path -/

/-- Where a path leads: to something, or to an empty place in a directory. -/
inductive Found where
  | present (place : Place) (node : FileNode)
  | vacant (place : Place)

/-- The longest name in bytes. -/
def longestName : Nat := 255

/-- The longest path in bytes. -/
def longestPath : Nat := 4095

/-- The place that a name leads to from a directory. -/
def step (place : Place) (name : String) : Except Obstacle Place :=
  if name = "." then .ok place
  else if name = ".." then .ok place.tail
  else if longestName < name.utf8ByteSize then .error .nameTooLong
  else .ok (name :: place)

/-- Follows names from a place. Each name is looked up in a directory, the last one included. -/
def follow (t : FileTree) : Place → List String → Except Obstacle Found
  | place, [] =>
    match t.at? place with
    | some node => .ok (.present place node)
    | none => .ok (.vacant place)
  | place, name :: names =>
    match t.at? place with
    | none => .error .notFound
    | some (.file _) => .error .notDirectory
    | some .directory =>
      match step place name with
      | .error e => .error e
      | .ok next => t.follow next names

/-- The place where a path starts and the names that it tells. A path that is too long tells
nothing. -/
def route (t : FileTree) (path : String) : Except Obstacle (Place × List String) :=
  if path.toList.contains '\x00' then .error .invalidPath
  else if path = "" then .error .notFound
  else if longestPath < path.utf8ByteSize then .error .nameTooLong
  else
    .ok (if Path.isAbsolute path then [] else t.here,
      (Path.pieces path).filter fun piece => piece ≠ "")

/-- Where a path leads, whatever it ends with. -/
def locate (t : FileTree) (path : String) : Except Obstacle Found :=
  match t.route path with
  | .error e => .error e
  | .ok (start, names) => t.follow start names

/-- What a path names. One that ends with a separator does not name a file. -/
def find (t : FileTree) (path : String) : Except Obstacle FileNode :=
  match t.locate path with
  | .error e => .error e
  | .ok (.vacant _) => .error .notFound
  | .ok (.present _ .directory) => .ok .directory
  | .ok (.present _ node) => if Path.endsOpen path then .error .notDirectory else .ok node

/-- A path leads to something; one that cannot be followed does not. -/
def exists? (t : FileTree) (path : String) : Bool :=
  match t.find path with
  | .ok _ => true
  | .error _ => false

def isFile (t : FileTree) (path : String) : Bool :=
  match t.find path with
  | .ok (.file _) => true
  | _ => false

/-! ## Reading and writing -/

/-- The text of a file. -/
def read (t : FileTree) (path : String) : Except Obstacle String :=
  match t.find path with
  | .error e => .error e
  | .ok .directory => .error .isDirectory
  | .ok (.file (.text s)) => .ok s
  | .ok (.file (.binary _)) => .error .notText

/-- Writes a file, new or not. What cannot be written leaves the tree as it was. A path that ends
with a separator asks for a directory, whatever its last name may lead to. -/
def write (path : String) (content : FileContent) (t : FileTree) : Except Obstacle FileTree :=
  match t.route path with
  | .error e => .error e
  | .ok (start, names) =>
    let isOpen := Path.endsOpen path
    match t.follow start (if isOpen then names.dropLast else names) with
    | .error e => .error e
    | .ok (.present _ .directory) => .error .isDirectory
    | .ok (.present place (.file _)) =>
      if isOpen then .error .notDirectory else .ok (t.put place (.file content))
    | .ok (.vacant place) =>
      if isOpen then .error .notFound else .ok (t.put place (.file content))

/-! ## Making directories -/

/-- Makes a directory at each place that names lead to from a directory, unless one stands there. -/
def makeEach (t : FileTree) : Place → List String → Except Obstacle Unit × FileTree
  | _, [] => (.ok (), t)
  | place, name :: names =>
    match step place name with
    | .error e => (.error e, t)
    | .ok next =>
      match t.at? next with
      | some .directory => t.makeEach next names
      | some (.file _) => (.error .exists, t)
      | none => (t.put next .directory).makeEach next names

/-- Follows names from a place through directories, and from the first one that is missing makes a
directory for each name. A file on the way is a place taken if it is the last one, and no directory
if names follow; after something was made, it is a place taken wherever it stands. -/
def makeMissing (t : FileTree) : Place → List String → Except Obstacle Unit × FileTree
  | place, [] =>
    match t.at? place with
    | some .directory => (.ok (), t)
    | some (.file _) => (.error .exists, t)
    | none => (.error .notFound, t)
  | place, name :: names =>
    match t.at? place with
    | none => (.error .notFound, t)
    | some (.file _) => (.error .notDirectory, t)
    | some .directory =>
      match step place name with
      | .error e => (.error e, t)
      | .ok next =>
        match t.at? next with
        | none => t.makeEach place (name :: names)
        | some _ => t.makeMissing next names

/-- Makes a directory and all that are missing above it. Those made before an obstacle is met
stay. -/
def makeDirectories (path : String) (t : FileTree) : Except Obstacle Unit × FileTree :=
  match t.route path with
  | .error e => (.error e, t)
  | .ok (start, names) => t.makeMissing start names

end FileTree

end TriggerFlow
