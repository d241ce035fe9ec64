import TriggerFlow.Host

/-!
# The terminal as a host

Notices and prompts go to the side channel of a terminal, so that the report of a run is alone on
the main one. Answers given with the command are used up first, then lines that are typed. **A line
is used once, and only by the one that asks for it**; after the last line a prompt is cancelled and
a notice does not wait.

A terminal where more may be typed is `starved` when it is asked for a line that has not come yet.
-/

set_option autoImplicit false

namespace TriggerFlow.CommandLine

/-- Cuts a list after each break; what follows the last one is a piece unless it is empty. -/
def splitLines {α : Type} (isBreak : α → Bool) : List α → List (List α)
  | [] => []
  | a :: as =>
    if isBreak a then [] :: splitLines isBreak as
    else match splitLines isBreak as with
      | [] => [[a]]
      | line :: lines => (a :: line) :: lines

/-- The lines of a text without what ends them. -/
def linesOf (s : String) : List (Option String) :=
  (splitLines (· = '\n') s.toList).map fun line =>
    some (String.ofList (if line.getLast? = some '\r' then line.dropLast else line))

/-- The lines of some bytes; one that is no text is none. -/
def linesOfBytes (bytes : List UInt8) : List (Option String) :=
  (splitLines (· = 10) bytes).map fun line =>
    let line := if line.getLast? = some 13 then line.dropLast else line
    String.fromUTF8? ⟨line.toArray⟩

structure Console where
  /-- The answers given with the command that are left. -/
  answers : List String
  /-- Every notice waits for a line. -/
  waits : Bool
  /-- The lines that were typed and not used yet; one that is no text is none. -/
  unread : List (Option String)
  /-- No more lines will come. -/
  ended : Bool
  /-- A line was asked for that has not come yet. -/
  starved : Bool
  /-- What has been written to the side channel. -/
  shown : String
  /-- How the context was asked to end. -/
  requested : Option Ending
  deriving DecidableEq, Repr

namespace Console

/-- A terminal at which nothing has happened. -/
def initial (answers : List String) (waits : Bool) (unread : List (Option String))
    (ended : Bool) : Console :=
  ⟨answers, waits, unread, ended, false, "", none⟩

def write (s : String) (c : Console) : Console :=
  { c with shown := c.shown ++ s }

/-- Takes the next line. -/
def readLine (c : Console) : Option String × Console :=
  match c.unread with
  | line :: lines => (line, { c with unread := lines })
  | [] => (none, { c with starved := c.starved || !c.ended })

def notify (message : String) (c : Console) : Console :=
  let c := c.write ("! " ++ message ++ "\n")
  if c.waits then (c.write "  (press Enter to continue) ").readLine.2 else c

def prompt (message : String) (c : Console) : Option String × Console :=
  let c := c.write ("? " ++ message ++ " ")
  match c.answers with
  | answer :: answers => (some answer, { c with answers }.write (answer ++ "\n"))
  | [] =>
    match c.readLine with
    | (some line, c) => (some line, c)
    | (none, c) => (none, if c.starved then c else c.write "\n")

instance : Host Console where
  notify := notify
  prompt := prompt
  reload c := { c with requested := some .refresh }
  close c := { c with requested := some .close }

end Console

end TriggerFlow.CommandLine
