import TriggerFlow.Toml.Text
import TriggerFlow.Toml.Value

/-!
# Adding to tables

A header opens a table and every key after it adds to that table, through further tables if it is
dotted. **Nothing is defined twice**: a key gets one value, a table one header, and a table between
braces is complete. A table that others were opened in first may get its header later; it then
counts as defined at that later place.
-/

set_option autoImplicit false

namespace TriggerFlow.Toml.Table

/-- The value of a key. -/
def get? (t : Table) (key : String) : Option Value :=
  t.lookup key

/-- Gives a key a new value, in its old place if it had one before. -/
def set (key : String) (v : Value) : Table → Table
  | [] => [(key, v)]
  | m :: ms => if m.1 = key then (key, v) :: ms else m :: set key v ms

/-- Without a key. -/
def erase (t : Table) (key : String) : Table :=
  t.filter fun m => m.1 ≠ key

/-- Changes the last of some tables, if there is one. -/
def changeLast (f : Table → Option Table) (items : List Table) : Option (List Table) :=
  match items.getLast? with
  | some last => (f last).map fun changed => items.dropLast ++ [changed]
  | none => none

/-- Changes the table that a header or a key below one leads to. Of several tables in a list the
last one is meant; a table that is not there is made. -/
def within (f : Table → Option Table) : List String → Table → Option Table
  | [], t => f t
  | key :: keys, t =>
    let changed : Option Value :=
      match t.get? key with
      | none => (within f keys []).map (.table .passed)
      | some (.table .braces _) => none
      | some (.table origin members) => (within f keys members).map (.table origin)
      | some (.tables items) => (changeLast (within f keys) items).map .tables
      | some _ => none
    changed.map fun v => t.set key v

/-- Opens the table of a header. -/
def openTable (key : Key) : Table → Option Table :=
  within (fun t =>
    match t.get? key.last with
    | none => some (t.set key.last (.table .header []))
    | some (.table .passed members) =>
      some (t.erase key.last ++ [(key.last, .table .header members)])
    | some _ => none) key.above

/-- Opens a further table in the list of a header in double brackets. -/
def openItem (key : Key) : Table → Option Table :=
  within (fun t =>
    match t.get? key.last with
    | none => some (t.set key.last (.tables [[]]))
    | some (.tables items) => some (t.set key.last (.tables (items ++ [[]])))
    | some _ => none) key.above

/-- Adds a value to a table. A dotted key makes the tables it goes through; the one in which it ends
has to be such a table or the table itself. -/
def insert (last : String) (v : Value) : List String → Table → Option Table
  | [], t => if (t.get? last).isSome then none else some (t.set last v)
  | key :: keys, t =>
    let changed : Option Value :=
      match t.get? key with
      | none => (insert last v keys []).map (.table .dotted)
      | some (.table .dotted members) => (insert last v keys members).map (.table .dotted)
      | some (.table .passed members) =>
        if keys.isEmpty then none else (insert last v keys members).map (.table .passed)
      | some (.tables items) =>
        if keys.isEmpty then none else (changeLast (insert last v keys) items).map .tables
      | some _ => none
    changed.map fun v => t.set key v

end TriggerFlow.Toml.Table
