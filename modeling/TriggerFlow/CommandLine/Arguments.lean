import TriggerFlow.CommandLine.Grammar

/-!
# Reading the command line

Arguments are read from left to right. An option that has a value takes the argument after it,
unless that looks like an option itself; after `--` nothing looks like one. **A value is judged
when the next thing is taken at its level, or at the end**, so that a request for the version that
comes before is answered even if a value was wrong. What is wrong is only told as a misuse.

An option of the program given at two levels counts as given at the lower one. The variable of the
environment stands in for the option at every level where it is not given.
-/

set_option autoImplicit false

namespace TriggerFlow.CommandLine

/-- Why there is nothing to do. -/
inductive Halt where
  | misuse
  /-- The version was asked for. -/
  | version (l : Level)
  | help (l : Level)
  deriving DecidableEq, Repr

/-- Something taken of which the value is not judged yet. -/
inductive Pending where
  /-- An option that waits for its value. -/
  | waiting (o : Opt)
  | option (o : Opt) (value : String)
  | position (value : String)
  deriving DecidableEq, Repr

/-- What has been taken at one level. -/
structure Taken where
  /-- Options with their values, the last one first; one without a value has an empty one. -/
  options : List (Opt × String)
  positions : List String
  deriving DecidableEq, Repr

def Taken.has (t : Taken) (o : Opt) : Bool :=
  t.options.any (·.1 = o)

/-- The values of an option, the first one first. -/
def Taken.values (t : Taken) (o : Opt) : List String :=
  ((t.options.filter (·.1 = o)).map (·.2)).reverse

structure State where
  taken : Taken
  pending : Option Pending
  /-- After `--`. -/
  onlyPositions : Bool
  deriving DecidableEq, Repr

namespace State

def initial : State :=
  ⟨⟨[], []⟩, none, false⟩

/-- Adds an option with its value. -/
def addOption (o : Opt) (value : String) (s : State) : Except Halt State :=
  if !o.accepts value || (s.taken.has o && !o.isRepeatable) then .error .misuse
  else .ok { s with taken := { s.taken with options := (o, value) :: s.taken.options } }

/-- Judges what is pending. -/
def settle (l : Level) (s : State) : Except Halt State :=
  let settled := { s with pending := none }
  match s.pending with
  | none => .ok s
  | some (.waiting _) => .error .misuse
  | some (.option o value) => settled.addOption o value
  | some (.position value) =>
    if (l.positions[s.taken.positions.length]?).any (·.accepts value) then
      .ok { settled with
        taken := { s.taken with positions := s.taken.positions ++ [value] } }
    else .error .misuse

/-- Takes an option with the value attached to it, if there is one. -/
def takeOption (l : Level) (o : Opt) (attached : Option String) (s : State) : Except Halt State :=
  if o.takesValue then do
    let s ← s.settle l
    match attached with
    | some value => s.addOption o value
    | none => return { s with pending := some (.waiting o) }
  else if attached.isSome then .error .misuse
  else do
    let s ← s.settle l
    match o with
    | .version => .error (.version l)
    | .help => .error (.help l)
    | _ => s.addOption o ""

/-- Takes a position. -/
def takePosition (l : Level) (value : String) (s : State) : Except Halt State := do
  let s ← s.settle l
  if s.taken.positions.length < l.positions.length then
    return { s with pending := some (.position value) }
  else .error .misuse

/-- Takes the letters after one hyphen. -/
def takeLetters (l : Level) : List Char → State → Except Halt State
  | [], s => .ok s
  | c :: cs, s =>
    match l.options.find? (·.short? = some c) with
    | some o => do takeLetters l cs (← s.takeOption l o none)
    | none => .error .misuse

/-- Takes a long option, which may have its value attached. -/
def takeLong (l : Level) (cs : List Char) (s : State) : Except Halt State :=
  let name := cs.takeWhile (· ≠ '=')
  let attached := match cs.dropWhile (· ≠ '=') with
    | [] => none
    | _ :: value => some (String.ofList value)
  match l.options.find? (·.long = String.ofList name) with
  | some o => s.takeOption l o attached
  | none => .error .misuse

/-- An option waits for its value. -/
def waits (s : State) : Bool :=
  match s.pending with
  | some (.waiting _) => true
  | _ => false

/-- Takes one argument that does not lead to another level. -/
def take (l : Level) (arg : String) (s : State) : Except Halt State :=
  if s.onlyPositions then s.takePosition l arg
  else
    match arg.toList, s.pending with
    | ['-', '-'], _ => .ok { s with onlyPositions := true }
    | '-' :: '-' :: cs, _ => s.takeLong l cs
    | '-' :: c :: cs, _ => s.takeLetters l (c :: cs)
    | _, some (.waiting o) => .ok { s with pending := some (.option o arg) }
    | _, _ => s.takePosition l arg

/-- Ends a level. The variable is judged where the option is not given. -/
def close (l : Level) (fallback? : Option String) (s : State) : Except Halt Taken := do
  let s ← s.settle l
  if (s.taken.has .dataDirectory || fallback?.all (Opt.dataDirectory.accepts ·))
      && l.required ≤ s.taken.positions.length then
    return s.taken
  else .error .misuse

end State

/-- Whether words lead from a level to one below; the word `help` is among those that do. -/
def Level.leadsTo (l : Level) : List String → Bool
  | [] => true
  | word :: words =>
    match l.below.lookup word with
    | some inner => inner.leadsTo words
    | none => word = "help" && !l.below.isEmpty && words.isEmpty

/-- What was taken at each level, the lowest one first. -/
abbrev Levels := List (Level × Taken)

/-- Reads the arguments of a level and of those below it, which are closed before it is. -/
def readLevel (fallback? : Option String) (l : Level) : State → List String → Except Halt Levels
  | s, [] => do return [(l, ← s.close l fallback?)]
  | s, arg :: args =>
    if s.onlyPositions || s.waits then do
      readLevel fallback? l (← s.take l arg) args
    else if arg = "help" && !l.below.isEmpty then
      .error (if l.leadsTo args then .help l else .misuse)
    else
      match l.below.lookup arg with
      | some inner => do
        let lower ← readLevel fallback? inner .initial args
        return lower ++ [(l, ← s.close l fallback?)]
      | none => do readLevel fallback? l (← s.take l arg) args

/-! ## What is asked for -/

inductive Command where
  | actions
  | show (ids : Bool)
  | label (text : String)
  | add (kind param : String)
  | remove (position : Nat)
  | move (source target : Nat)
  | clear
  | run (answers : List String) (waits : Bool)
  | storage (key : Option String)
  | configShow
  | configWhich
  | configInit (isLocal : Bool)
  | configPath
  deriving DecidableEq, Repr

/-- A command and the options of the program. -/
structure Invocation where
  command : Command
  verbose : Bool
  json : Bool
  dataDirectory : Option String
  strictStorage : Bool
  pacing : Option Nat
  deriving DecidableEq, Repr

/-- The command of the lowest level. The program alone is none. -/
def Taken.command? (t : Taken) : Level → Option Command
  | .program => none
  | .actions => some .actions
  | .show => some (.show (t.has .ids))
  | .label => t.positions[0]?.map .label
  | .add => t.positions[0]?.map fun kind => .add kind (t.positions.getD 1 "")
  | .remove => (t.positions[0]?.bind natural?).map .remove
  | .move => do
    let source ← t.positions[0]?.bind natural?
    let target ← t.positions[1]?.bind natural?
    return .move source target
  | .clear => some .clear
  | .run => some (.run (t.values .answer) (!t.has .noWait))
  | .storage => some (.storage t.positions[0]?)
  | .config | .configShow => some .configShow
  | .configWhich => some .configWhich
  | .configInit => some (.configInit (t.has .localFile))
  | .configPath => some .configPath

/-- The value of an option at the lowest level that has it. -/
def Levels.value? (ls : Levels) (o : Opt) : Option String :=
  ls.findSome? fun l => (l.2.values o).head?

def Levels.has (ls : Levels) (o : Opt) : Bool :=
  ls.any (·.2.has o)

/-- Reads a command line. `fallback?` is used for the directory for data where the option is not
given. -/
def parse (args : List String) (fallback? : Option String) : Except Halt Invocation := do
  let ls : Levels ← readLevel fallback? .program .initial args
  match ls.head?.bind fun l => l.2.command? l.1 with
  | none => .error .misuse
  | some command =>
    return {
      command
      verbose := ls.has .verbose
      json := ls.has .json
      dataDirectory := (ls.value? .dataDirectory).or fallback?
      strictStorage := ls.has .strictStorage
      pacing := (ls.value? .pacing).bind natural? }

end TriggerFlow.CommandLine
