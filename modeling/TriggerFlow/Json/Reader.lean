import TriggerFlow.Json.Number
import TriggerFlow.Json.Text
import TriggerFlow.Text.Reader

/-!
# Reading JSON

A value is taken off the front of the text in the shape in which it is wanted. There is no tree in
between: what stands in the text is judged at the moment it is reached, so that **of two things
wrong with a text the one further to the left is told**.
-/

set_option autoImplicit false

namespace TriggerFlow.Json

/-- Takes a value off the front of a text. -/
abbrev Reader (α : Type) := Text.Reader Fault α

def isSpace (c : Char) : Bool :=
  c = ' ' || c = '\t' || c = '\n' || c = '\r'

def skipSpace (cs : List Char) : List Char :=
  cs.dropWhile isSpace

/-- Runs rounds until one is done; a round that takes nothing is malformed. -/
def loop {σ α : Type} (round : σ → Reader (Text.Round σ α)) (state : σ) : Reader α :=
  Text.loop .malformed round state

/-- Takes the letters of a literal after its first one. -/
def readLetters : List Char → List Char → Except Fault (List Char)
  | [], cs => .ok cs
  | _ :: _, [] => .error .ended
  | e :: es, c :: cs => if c = e then readLetters es cs else .error .malformed

/-! ## Refusing a value of the wrong kind -/

/-- The fault of a value, without blanks before it, that stands where `expected` belongs. A literal,
a number or a text is read to its end first and may turn out to be broken; of a list or an object
only the bracket is looked at. -/
def refuse (expected : String) (cs : List Char) : Fault :=
  let wrong (met : Met) : Fault := .mismatch (.wrongType met expected)
  let literal (letters : String) (rest : List Char) (met : Met) : Fault :=
    match readLetters letters.toList rest with
    | .error e => e
    | .ok _ => wrong met
  match cs with
  | [] => .ended
  | 'n' :: rest => literal "ull" rest .null
  | 't' :: rest => literal "rue" rest (.bool true)
  | 'f' :: rest => literal "alse" rest (.bool false)
  | '[' :: _ => wrong .list
  | '{' :: _ => wrong .object
  | '"' :: rest =>
    match readText rest with
    | .error e => e
    | .ok (s, _) => wrong (.text s)
  | c :: _ =>
    if c = '-' ∨ Text.isDigit c then
      match readNumber cs with
      | .error e => e
      | .ok (n, _) => wrong n.met
    else .malformed

/-! ## Values without parts -/

/-- A text, where `expected` says what kind of text. -/
def readTextAs (expected : String) : Reader String := fun cs =>
  match skipSpace cs with
  | '"' :: rest => readText rest
  | cs => .error (refuse expected cs)

def readString : Reader String :=
  readTextAs "a string"

/-- A text, or `null` in its place. -/
def readOptionalString : Reader (Option String) := fun cs =>
  match skipSpace cs with
  | 'n' :: rest => (readLetters "ull".toList rest).map (none, ·)
  | cs => (readString cs).map fun (s, rest) => (some s, rest)

def readBool : Reader Bool := fun cs =>
  match skipSpace cs with
  | 't' :: rest => (readLetters "rue".toList rest).map (true, ·)
  | 'f' :: rest => (readLetters "alse".toList rest).map (false, ·)
  | cs => .error (refuse "a boolean" cs)

/-- Any number as a double. -/
def readDouble : Reader Float := fun cs =>
  match skipSpace cs with
  | [] => .error .ended
  | c :: rest =>
    if c = '-' ∨ Text.isDigit c then (readNumber (c :: rest)).map fun (n, rest) => (n.toFloat, rest)
    else .error (refuse "f64" (c :: rest))

def readNull (expected : String) (cs : List Char) : Except Fault (List Char) :=
  match skipSpace cs with
  | 'n' :: rest => readLetters "ull".toList rest
  | cs => .error (refuse expected cs)

/-! ## Between values -/

/-- The colon after a key. -/
def readColon (cs : List Char) : Except Fault (List Char) :=
  match skipSpace cs with
  | ':' :: rest => .ok rest
  | [] => .error .ended
  | _ => .error .malformed

/-- Where the next item of a list starts, `none` at its closing bracket, which is not taken. A comma
stands before every item but the first, and only before an item. -/
def nextItem (isFirst : Bool) (cs : List Char) : Except Fault (Option (List Char)) :=
  match skipSpace cs with
  | [] => .error .ended
  | ']' :: _ => .ok none
  | c :: rest =>
    if isFirst then .ok (some (c :: rest))
    else if c = ',' then
      match skipSpace rest with
      | [] => .error .ended
      | ']' :: _ => .error .malformed
      | cs => .ok (some cs)
    else .error .malformed

/-- The key of the next member of an object, `none` at its closing brace, which is not taken. -/
def nextKey (isFirst : Bool) (cs : List Char) : Except Fault (Option (String × List Char)) :=
  let key : List Char → Except Fault (Option (String × List Char))
    | [] => .error .ended
    | '"' :: rest => (readText rest).map some
    | _ => .error .malformed
  match skipSpace cs with
  | [] => .error .ended
  | '}' :: _ => .ok none
  | c :: rest =>
    if isFirst then key (c :: rest)
    else if c = ',' then key (skipSpace rest)
    else .error .malformed

/-- The closing bracket after the last item that is read: nothing else may follow, not even a
comma. -/
def closeList (cs : List Char) : Except Fault (List Char) :=
  match skipSpace cs with
  | ']' :: rest => .ok rest
  | [] => .error .ended
  | _ => .error .malformed

/-- The closing brace of an object. -/
def closeObject (cs : List Char) : Except Fault (List Char) :=
  match skipSpace cs with
  | '}' :: rest => .ok rest
  | [] => .error .ended
  | _ => .error .malformed

/-- One round of reading a list: the next item is added, or the bracket ends the list. The items
read so far are held last first. -/
def itemRound {α : Type} (item : Reader α) (done : List α) :
    Reader (Text.Round (List α) (List α)) := fun cs =>
  match nextItem done.isEmpty cs with
  | .error e => .error e
  | .ok none => (closeList cs).map (.done done.reverse, ·)
  | .ok (some cs) => (item cs).map fun (a, rest) => (.more (a :: done), rest)

/-- A list of items of one kind. -/
def readList {α : Type} (item : Reader α) : Reader (List α) := fun cs =>
  match skipSpace cs with
  | '[' :: rest => loop (itemRound item) [] rest
  | cs => .error (refuse "a sequence" cs)

/-! ## Whole texts -/

/-- Reads a text that holds one value and nothing but blanks around it. -/
def readAll {α : Type} (reader : Reader α) (s : String) : Except Fault α :=
  match reader s.toList with
  | .error e => .error e
  | .ok (a, rest) => if skipSpace rest = [] then .ok a else .error .malformed

end TriggerFlow.Json
