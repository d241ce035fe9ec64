import TriggerFlow.CommandLine.Edit
import TriggerFlow.CommandLine.Log
import TriggerFlow.CommandLine.Session
import TriggerFlow.Config.Template

/-!
# The commands

A command reads files, writes at most a few, and says something on the main channel of the
terminal, on the side channel or on both. **Apart from `run` it does all of this at once**; a run
becomes a session that goes on for as long as its document asks.
-/

set_option autoImplicit false

namespace TriggerFlow.CommandLine

/-- What a command leaves behind. -/
structure Result where
  /-- Zero if all went well, one after a failure, two after a misuse, 101 if the process died. -/
  exit : Nat
  /-- The main channel. -/
  out : String
  /-- The side channel. -/
  err : String
  files : FileTree

namespace Result

/-- All went well. -/
def done (out : String) (files : FileTree) : Result :=
  ⟨0, out, "", files⟩

def failed (f : CommandFailure) (files : FileTree) : Result :=
  ⟨1, "", f.report, files⟩

/-- The process died before there was a command. -/
def died (text : String) (files : FileTree) : Result :=
  ⟨101, "", text, files⟩

/-- With something on the side channel before the rest. -/
def remark (s : String) (r : Result) : Result :=
  { r with err := s ++ r.err }

end Result

/-- What a command works on and where it takes from what it does not decide itself. -/
structure Surroundings where
  environment : Environment
  files : FileTree
  /-- The tokens for new ids. -/
  tokens : Serial
  colors : RandomColors
  /-- The lines that were typed. -/
  lines : List (Option String)
  /-- No more lines will come. -/
  linesEnded : Bool

namespace Surroundings

/-- The files that may hold configuration. -/
def configPaths (e : Environment) : List String :=
  e.configPath?.toList ++ [LoadedConfig.projectFile]

/-- The configuration that is in force. -/
def config (s : Surroundings) : LoadedConfig :=
  .load s.environment.configPath? LoadedConfig.projectFile s.files

/-- Opens the log, unless the configuration says that there is to be none. -/
def openLog (a : Appender) (s : Surroundings) : Except String Unit × FileTree :=
  if s.config.config.logsToFile then a.opens s.environment.logDirectory logName s.files
  else (.ok (), s.files)

/-- The files that a command line may have to do with besides its configuration. -/
def dataPaths (args : List String) (s : Surroundings) : List String :=
  match parse args (s.environment.get? Environment.dataVariable) with
  | .error _ => []
  | .ok i =>
    let c := Context.resolve i s.environment s.config.config
    [c.workflowPath, c.storagePath]

end Surroundings

/-- Saves an edited document and shows it. -/
def commit (c : Context) (e : Edited) (files : FileTree) : Result :=
  match c.saveDocument e.document files with
  | (.ok (), files) =>
    (Result.done (showDocument c e.document ["✓ " ++ e.news, ""] c.verbose) files).remark e.remark
  | (.error f, files) => (Result.failed f files).remark e.remark

/-- Edits the saved document. -/
def editWith (c : Context) (files : FileTree) (edit : Document → Except CommandFailure Edited) :
    Result :=
  match c.documentToEdit files with
  | .error f => .failed f files
  | .ok d =>
    match edit d with
    | .error f => .failed f files
    | .ok e => commit c e files

/-- Writes the configuration template. -/
def initConfig (e : Environment) (isLocal : Bool) (files : FileTree) : Result :=
  match if isLocal then some LoadedConfig.projectFile else e.configPath? with
  | none => .failed .noConfigDirectory files
  | some path =>
    match Config.writeTemplate path files with
    | (.error f, files) => .failed (.config f) files
    | (.ok false, files) => .done ("Config file already exists: " ++ path ++ "\n") files
    | (.ok true, files) =>
      .done (joinLines ["✓ Created config file: " ++ path, "", "Next steps:",
        "  clickflow config show    # verify configuration"]) files

/-- A command that has begun: it is done, or it is a run. -/
inductive Begun where
  | done (r : Result)
  | running (c : Context) (s : Session)

/-- Begins a run: the document is loaded, then the store is opened. -/
def beginRun (c : Context) (answers : List String) (waits : Bool) (s : Surroundings) : Begun :=
  match c.loadDocument s.files with
  | .error f => .done (.failed f s.files)
  | .ok document =>
    match c.openStore s.files with
    | .error f => .done (.failed f s.files)
    | .ok store =>
      .running c
        (.start c document (.initial answers waits s.lines s.linesEnded) store s.colors)

/-- Begins what an invocation asks for, under a configuration that has been loaded. -/
def beginUnder (l : LoadedConfig) (i : Invocation) (s : Surroundings) : Begun :=
  let c := Context.resolve i s.environment l.config
  match i.command with
  | .actions => .done (.done (showCatalog c) s.files)
  | .show ids =>
    .done (match c.documentToEdit s.files with
      | .error f => .failed f s.files
      | .ok d => .done (showDocument c d [] (ids || c.verbose)) s.files)
  | .label text => .done (editWith c s.files (relabel text))
  | .add kind param => .done (editWith c s.files (add s.tokens kind param))
  | .remove position => .done (editWith c s.files (remove position))
  | .move source target => .done (editWith c s.files (move source target))
  | .clear => .done (commit c cleared s.files)
  | .run answers waits => beginRun c answers waits s
  | .storage key =>
    .done (match c.openStore s.files with
      | .error f => .failed f s.files
      | .ok store =>
        .done (match key with
          | some key => showValue c (store.entries.get? key)
          | none => showEntries c store) s.files)
  | .configShow => .done (.done (showConfig c l) s.files)
  | .configWhich => .done (.done (showSources l) s.files)
  | .configInit isLocal => .done (initConfig s.environment isLocal s.files)
  | .configPath =>
    .done (match s.environment.configPath? with
      | some path => .done (path ++ "\n") s.files
      | none => (Result.done "" s.files).remark "Could not determine config directory\n")

/-- Begins what an invocation asks for, under the configuration that is in force. -/
def beginInvocation (i : Invocation) (s : Surroundings) : Begun :=
  beginUnder s.config i s

/-- What a session that is over leaves behind. -/
def resultOf (c : Context) (s : Session) : Result :=
  match s.ending c with
  | .ok text => ⟨0, s.text ++ text, s.console.shown, s.files⟩
  | .error f => ⟨1, s.text, s.console.shown ++ f.report, s.files⟩

/-- The version of the program. -/
def version : String := "0.0.0"

/-- How the program is used. -/
def usage (l : Level) : String :=
  let word (b : String × Level) : String := "  " ++ b.1
  let commands := if l.below.isEmpty then [] else "Commands:" :: l.below.map word ++ [""]
  let option (o : Opt) : String := "  --" ++ o.long ++ if o.takesValue then " <VALUE>" else ""
  joinLines (["Usage: " ++ l.name, ""] ++ commands ++ "Options:" :: l.options.map option)

/-- What a command line that asks for nothing to be done is answered. -/
def haltResult (files : FileTree) : Halt → Result
  | .misuse => ⟨2, "", usage .program, files⟩
  | .version l => .done (l.name ++ " " ++ version ++ "\n") files
  | .help l => .done (usage l) files

/-- What has been begun, taken to its end. -/
def Begun.result : Begun → Result
  | .done r => r
  | .running c s => resultOf c s.finish

/-! ## Processes

A process reads its command line, loads its configuration, opens its log and only then does what it
was asked for. `start` and `execute` are what it does where no log is kept. -/

/-- Begins what a command line asks for. -/
def start (args : List String) (s : Surroundings) : Begun :=
  match parse args (s.environment.get? Environment.dataVariable) with
  | .error halt => .done (haltResult s.files halt)
  | .ok i => beginInvocation i s

/-- Does what a command line asks for, without waiting anywhere. -/
def execute (args : List String) (s : Surroundings) : Result :=
  match start args s with
  | .done r => r
  | .running c session => resultOf c session.finish

/-- Begins what a command line asks for once the log is open. The configuration has been loaded
before that, so it stays what it was whatever files the log has made. -/
def launch (a : Appender) (args : List String) (s : Surroundings) : Begun :=
  match parse args (s.environment.get? Environment.dataVariable) with
  | .error halt => .done (haltResult s.files halt)
  | .ok i =>
    match s.openLog a with
    | (.error text, files) => .done (.died text files)
    | (.ok (), files) => beginUnder s.config i { s with files }

/-- Does all that a process does, without waiting anywhere. -/
def perform (a : Appender) (args : List String) (s : Surroundings) : Result :=
  (launch a args s).result

end TriggerFlow.CommandLine
