import TriggerFlow.Failure
import TriggerFlow.Storage.Entries

/-!
# Key-value stores

The storage actions of a workflow save and read values by key. A store is any type of states in
which this can be asked, and **asking may fail**: a run has to cope with a store that refuses. The
store in memory never does; the one that refuses is a store in memory whose answers are withheld.
-/

set_option autoImplicit false

namespace TriggerFlow

/-- Saves and reads values by key. -/
class KeyValueStore (κ : Type) where
  get : String → κ → Except Failure (Option String) × κ
  /-- A value that is set takes the place of the one before. -/
  set : String → String → κ → Except Failure Unit × κ

/-- A store that lasts as long as the process. -/
structure MemoryStore where
  entries : Entries
  deriving DecidableEq

namespace MemoryStore

def empty : MemoryStore :=
  ⟨.empty⟩

def get (key : String) (s : MemoryStore) : Except Failure (Option String) × MemoryStore :=
  (.ok (s.entries.get? key), s)

def set (key value : String) (s : MemoryStore) : Except Failure Unit × MemoryStore :=
  (.ok (), ⟨s.entries.insert key value⟩)

instance : KeyValueStore MemoryStore := ⟨get, set⟩

end MemoryStore

/-- A store that refuses to be read, to be written or both. -/
structure RefusingStore where
  entries : Entries
  /-- What a refusal says. -/
  message : String
  refusesGet : Bool
  refusesSet : Bool
  deriving DecidableEq

namespace RefusingStore

def get (key : String) (s : RefusingStore) : Except Failure (Option String) × RefusingStore :=
  if s.refusesGet then (.error (.refused s.message), s) else (.ok (s.entries.get? key), s)

def set (key value : String) (s : RefusingStore) : Except Failure Unit × RefusingStore :=
  if s.refusesSet then (.error (.refused s.message), s)
  else (.ok (), { s with entries := s.entries.insert key value })

instance : KeyValueStore RefusingStore := ⟨get, set⟩

end RefusingStore

end TriggerFlow
