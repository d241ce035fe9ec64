import TriggerFlow.CommandLine.Console
import TriggerFlow.CommandLine.Listing
import TriggerFlow.Engine

/-!
# A run at the terminal

A session is a run that a command has started: an engine whose only caller is the command, and a
display that **shows each entry of the log at the moment it is added**. Whoever holds the session
decides how long the pauses take and where the lines come from, and lets it go on.
-/

set_option autoImplicit false

namespace TriggerFlow.CommandLine

/-- Shows what a run does as it does it. -/
structure Display where
  shown : Presentation
  /-- Entries of the log are written out. -/
  echoes : Bool
  /-- What has been written. -/
  text : String

namespace Display

def apply (c : Change) (d : Display) : Display :=
  let text := match c with
    | .push item => if d.echoes then d.text ++ contentLine item else d.text
    | _ => d.text
  { d with shown := Presentation.apply c d.shown, text }

instance : Sink Display := ⟨apply⟩

end Display

structure Session where
  engine : Engine Console FileStore RandomColors Display
  /-- What the run is about. -/
  document : Document
  /-- What the command is told at the end. -/
  answer : Option Answer

namespace Session

/-- Lets something happen to the engine. -/
def handle (event : Event) (s : Session) : Session :=
  match s.engine.handle event with
  | (some (_, answer), engine) => { s with engine, answer := some answer }
  | (none, engine) => { s with engine }

/-- Calls a document on a fresh engine. What is shown starts with a header if there is something to
run. -/
def start (c : Context) (document : Option Document) (console : Console) (store : FileStore)
    (colors : RandomColors) : Session :=
  let d := document.getD .empty
  let header := if c.json || !d.isRunnable then "" else runHeader d
  let engine : Engine Console FileStore RandomColors Display :=
    .new c.settings ⟨console, store, colors⟩ [⟨.initial, !c.json, header⟩]
  (⟨engine, d, none⟩ : Session).handle (.call 0 document 0)

/-- The pause is over. -/
def resume (s : Session) : Session :=
  s.handle .pauseEnd

/-- Lets the run go on to its end without waiting. `fuel` bounds how many pauses there are. -/
def resumeAll : Nat → Session → Session
  | 0, s => s
  | fuel + 1, s => if s.answer.isSome then s else resumeAll fuel s.resume

/-- The run is over: after every action there is at most one pause. -/
def finish (s : Session) : Session :=
  s.resumeAll (s.document.size + 1)

def console (s : Session) : Console :=
  s.engine.world.host

/-- A session that has these lines to read, and perhaps no more after them. -/
def supply (lines : List (Option String)) (ended : Bool) (s : Session) : Session :=
  let w := s.engine.world
  let host : Console := { w.host with unread := lines, ended, starved := false }
  { s with engine := { s.engine with world := { w with host } } }

/-- The milliseconds of a pause. -/
def pacing (s : Session) : Nat :=
  s.engine.settings.pacing

def files (s : Session) : FileTree :=
  s.engine.world.store.files

/-- What has been written to the main channel so far. -/
def text (s : Session) : String :=
  s.engine.cells.head?.elim "" (·.text)

/-- What the command ends with. -/
def ending (c : Context) (s : Session) : Except CommandFailure String :=
  match s.answer with
  | some (.ended outcome) =>
    let shown := s.engine.cells.head?.elim .initial (·.shown)
    .ok (if c.json then (outcome.report s.document.label shown).indentedText ++ "\n"
      else joinLines (summaryLines outcome shown s.console.requested))
  | some (.refused .noActions) => .error .nothingToRun
  | some (.refused cause) => .error (.failed cause)
  | none => .ok ""

end Session

end TriggerFlow.CommandLine
