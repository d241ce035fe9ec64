import TriggerFlow.Text.Digits

/-!
# What may stand on the command line

A command line is read in levels: the program, a command, and for `config` a command of its own
below it. Each level has its options and positions, and **the options of the program may stand at
every level**. What is known about an option or a level is said here once, in functions of its
name.
-/

set_option autoImplicit false

namespace TriggerFlow.CommandLine

/-! ## Options -/

inductive Opt where
  | help
  | version
  | verbose
  | json
  | dataDirectory
  | strictStorage
  | pacing
  | answer
  | noWait
  | ids
  | localFile
  deriving DecidableEq, Repr

namespace Opt

/-- The name after two hyphens. -/
def long : Opt → String
  | .help => "help"
  | .version => "version"
  | .verbose => "verbose"
  | .json => "json"
  | .dataDirectory => "data-dir"
  | .strictStorage => "strict-storage"
  | .pacing => "pacing-ms"
  | .answer => "answer"
  | .noWait => "no-wait"
  | .ids => "ids"
  | .localFile => "local"

/-- The letter after one hyphen. -/
def short? : Opt → Option Char
  | .help => some 'h'
  | .version => some 'V'
  | .verbose => some 'v'
  | _ => none

/-- The options of the program. -/
def everywhere : List Opt :=
  [.help, .version, .verbose, .json, .dataDirectory, .strictStorage, .pacing]

def takesValue : Opt → Bool
  | .dataDirectory | .pacing | .answer => true
  | _ => false

/-- May be given more than once at one level. -/
def isRepeatable : Opt → Bool
  | .answer => true
  | _ => false

end Opt

/-- A whole number below `2 ^ 64`, perhaps with a plus sign. -/
def natural? (s : String) : Option Nat :=
  let digits := match s.toList with
    | '+' :: cs => cs
    | cs => cs
  if digits ≠ [] ∧ digits.all Text.isDigit ∧ Text.decimalValue digits < 1 <<< 64 then
    some (Text.decimalValue digits)
  else none

/-- A value that an option may have. -/
def Opt.accepts (value : String) : Opt → Bool
  | .dataDirectory => value ≠ ""
  | .pacing => (natural? value).isSome
  | _ => true

/-! ## Levels -/

inductive Level where
  | program
  | actions
  | show
  | label
  | add
  | remove
  | move
  | clear
  | run
  | storage
  | config
  | configShow
  | configWhich
  | configInit
  | configPath
  deriving DecidableEq, Repr

namespace Level

/-- The name that a level gives as its own. -/
def name : Level → String
  | .program => "clickflow"
  | .actions => "clickflow-actions"
  | .show => "clickflow-show"
  | .label => "clickflow-label"
  | .add => "clickflow-add"
  | .remove => "clickflow-remove"
  | .move => "clickflow-move"
  | .clear => "clickflow-clear"
  | .run => "clickflow-run"
  | .storage => "clickflow-storage"
  | .config => "clickflow-config"
  | .configShow => "clickflow-config-show"
  | .configWhich => "clickflow-config-which"
  | .configInit => "clickflow-config-init"
  | .configPath => "clickflow-config-path"

/-- The levels below a level, by the word that leads to each. -/
def below : Level → List (String × Level)
  | .program =>
    [("actions", .actions), ("show", .show), ("label", .label), ("add", .add),
      ("remove", .remove), ("move", .move), ("clear", .clear), ("run", .run),
      ("storage", .storage), ("config", .config)]
  | .config =>
    [("show", .configShow), ("which", .configWhich), ("init", .configInit), ("path", .configPath)]
  | _ => []

/-- The options of a level. -/
def options (l : Level) : List Opt :=
  Opt.everywhere ++ match l with
    | .run => [.answer, .noWait]
    | .show => [.ids]
    | .configInit => [.localFile]
    | _ => []

/-- What a position holds. -/
inductive Position where
  | text
  /-- The place of an action in the document. -/
  | number
  deriving DecidableEq, Repr

/-- The positions of a level, in order. -/
def positions : Level → List Position
  | .label | .storage => [.text]
  | .add => [.text, .text]
  | .remove => [.number]
  | .move => [.number, .number]
  | _ => []

/-- How many of the positions have to be given. -/
def required : Level → Nat
  | .label | .add | .remove => 1
  | .move => 2
  | _ => 0

def Position.accepts (value : String) : Position → Bool
  | .text => true
  | .number => (natural? value).isSome

end Level

end TriggerFlow.CommandLine
