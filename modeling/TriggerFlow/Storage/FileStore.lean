import TriggerFlow.FileTree.Saved
import TriggerFlow.Storage
import TriggerFlow.Storage.Codec

/-!
# A store in a file

The file is read once, when the store is opened, and written anew whenever a value is set. The
entries move on only when the file has been written, so **between two calls the file holds what the
store holds**, unless someone else writes to it, and a value that could not be saved is not there
afterwards either.
-/

set_option autoImplicit false

namespace TriggerFlow

structure FileStore where
  /-- The file the entries are kept in. -/
  path : String
  entries : Entries
  files : FileTree

namespace FileStore

/-- Opens the store in a file; without the file it is empty. -/
def load (path : String) (files : FileTree) : Except Failure FileStore :=
  match files.readIfExists path with
  | .error e => .error e
  | .ok none => .ok ⟨path, .empty, files⟩
  | .ok (some text) =>
    match Entries.parse text with
    | .error e => .error (.unreadableJson e)
    | .ok entries => .ok ⟨path, entries, files⟩

def get (key : String) (s : FileStore) : Except Failure (Option String) × FileStore :=
  (.ok (s.entries.get? key), s)

def set (key value : String) (s : FileStore) : Except Failure Unit × FileStore :=
  let entries := s.entries.insert key value
  match s.files.save s.path entries.render with
  | (.ok (), files) => (.ok (), { s with entries, files })
  | (.error e, files) => (.error e, { s with files })

instance : KeyValueStore FileStore := ⟨get, set⟩

end FileStore

end TriggerFlow
