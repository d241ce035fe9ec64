import TriggerFlow.Toml.Scalar
import TriggerFlow.Toml.Table

/-!
# Reading TOML

A text is a list of statements, one a line: a header that opens a table, or a key with its value.
The reader takes them one after the other and adds each to the tables read so far, so **a statement
is refused where it stands, by what stands before it**. Lists may run over several lines, tables
between braces may not, and both together nest less than eighty deep.
-/

set_option autoImplicit false

namespace TriggerFlow.Toml

/-! ## Values -/

/-- Takes a word off the front of a text. -/
def readExact (word : String) (v : Value) : Reader Value := fun cs =>
  if word.toList.isPrefixOf cs then .ok (v, cs.drop word.length) else .error .malformed

/-- One round of a list: the next item and the comma after it, or the closing bracket. -/
def itemRound (value : Reader Value) (items : List Value) :
    Reader (Text.Round (List Value) Value) := fun cs =>
  match skipLines false cs with
  | ']' :: rest => .ok (.done (.list items.reverse), rest)
  | cs =>
    match value cs with
    | .error e => .error e
    | .ok (v, rest) =>
      match skipLines false rest with
      | ',' :: rest => .ok (.more (v :: items), rest)
      | ']' :: rest => .ok (.done (.list (v :: items).reverse), rest)
      | _ => .error .malformed

/-- A key, the sign after it and the blanks around the value. -/
def readMember (value : Reader Value) : Reader (Key × Value) := fun cs =>
  match readKey cs with
  | .error e => .error e
  | .ok (key, '=' :: rest) =>
    match value (skipBlanks rest) with
    | .error e => .error e
    | .ok (v, rest) => .ok ((key, v), skipBlanks rest)
  | .ok _ => .error .malformed

/-- One round of a table between braces: the next member and the comma or brace after it. -/
def memberRound (value : Reader Value) (t : Table) : Reader (Text.Round Table Value) := fun cs =>
  match readMember value cs with
  | .error e => .error e
  | .ok ((key, v), rest) =>
    match t.insert key.last v key.above, rest with
    | some t, ',' :: rest => .ok (.more t, rest)
    | some t, '}' :: rest => .ok (.done (.table .braces t), rest)
    | _, _ => .error .malformed

/-- A value in which lists and tables nest up to `depth` deep. -/
def readValue (depth : Nat) : Reader Value := fun cs =>
  match depth, cs with
  | depth + 1, '[' :: rest => loop (itemRound (readValue depth)) [] rest
  | depth + 1, '{' :: rest =>
    match skipBlanks rest with
    | '}' :: rest => .ok (.table .braces [], rest)
    | cs => loop (memberRound (readValue depth)) [] cs
  | _, '"' :: _ | _, '\'' :: _ => (readText cs).map fun (s, rest) => (.text s, rest)
  | _, 't' :: _ => readExact "true" (.bool true) cs
  | _, 'f' :: _ => readExact "false" (.bool false) cs
  | _, _ => readWord cs

/-- How deep a value may nest. -/
def deepest : Nat := 79

/-! ## Statements -/

/-- The tables read so far and the key of the one that is open. -/
structure Draft where
  table : Table
  current : List String

/-- Adds what a statement says, unless it says what was said before. -/
def Draft.step (table : Option Table) (current : List String) (rest : List Char) :
    Except Fault (Text.Round Draft Table × List Char) :=
  match table with
  | some table => (endLine rest).map (.more ⟨table, current⟩, ·)
  | none => .error .malformed

/-- The header of a table, after its opening bracket. -/
def Draft.readHeader (d : Draft) : Reader (Text.Round Draft Table)
  | '[' :: cs =>
    match readKey cs with
    | .error e => .error e
    | .ok (key, ']' :: ']' :: rest) =>
      step (d.table.openItem key) (key.above ++ [key.last]) rest
    | .ok _ => .error .malformed
  | cs =>
    match readKey cs with
    | .error e => .error e
    | .ok (key, ']' :: rest) => step (d.table.openTable key) (key.above ++ [key.last]) rest
    | .ok _ => .error .malformed

/-- One round of reading statements. -/
def Draft.round (d : Draft) : Reader (Text.Round Draft Table) := fun cs =>
  match skipBlanks cs with
  | [] => .ok (.done d.table, [])
  | '[' :: rest => d.readHeader rest
  | cs =>
    if cs.head? = some '#' ∨ (afterBreak? cs).isSome then
      (endLine cs).map (.more d, ·)
    else
      match readMember (readValue deepest) cs with
      | .error e => .error e
      | .ok ((key, v), rest) =>
        step (d.table.within (·.insert key.last v key.above) d.current) d.current rest

/-- The tables that a text holds. A mark of the byte order at its start is passed over. -/
def parse (s : String) : Except Fault Table :=
  let cs := match s.toList with
    | '\ufeff' :: cs => cs
    | cs => cs
  (loop Draft.round ⟨[], []⟩ cs).map (·.1)

end TriggerFlow.Toml
