import TriggerFlow.Json.Printer
import TriggerFlow.Json.Reader
import TriggerFlow.Storage.Entries

/-!
# The saved form of entries

Entries are saved as one object of texts, the keys in their order. Reading takes the keys in any
order, and **of a key that is there twice it keeps the later value**, as if the members were set one
after the other.
-/

set_option autoImplicit false

namespace TriggerFlow.Entries

def toJson (e : Entries) : Json.Value :=
  .object (e.pairs.map fun p => (p.1, .text p.2))

/-- The text that is saved. -/
def render (e : Entries) : String :=
  e.toJson.indentedText

/-- One round of reading members. -/
def memberRound :
    (Bool × Entries) → Json.Reader (Text.Round (Bool × Entries) Entries)
  | (isFirst, entries), cs =>
    match Json.nextKey isFirst cs with
    | .error e => .error e
    | .ok none => (Json.closeObject cs).map (.done entries, ·)
    | .ok (some (key, cs)) => do
      let cs ← Json.readColon cs
      let (value, cs) ← Json.readString cs
      return (.more (false, entries.insert key value), cs)

def read : Json.Reader Entries := fun cs =>
  match Json.skipSpace cs with
  | '{' :: rest => Json.loop memberRound (true, .empty) rest
  | cs => .error (Json.refuse "a map" cs)

/-- The entries that a text holds. -/
def parse (s : String) : Except Json.Fault Entries :=
  Json.readAll read s

end TriggerFlow.Entries
