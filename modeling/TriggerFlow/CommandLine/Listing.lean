import TriggerFlow.CommandLine.Context
import TriggerFlow.Run.Report

/-!
# What commands show

Everything a command shows it can show for a reader or, as JSON, for a program. **The text for a
reader is made of lines, and every line ends with a line break**; nothing in it depends on the width
or the colors of a terminal.
-/

set_option autoImplicit false

namespace TriggerFlow.CommandLine

/-- Lines as a text. -/
def joinLines (lines : List String) : String :=
  String.join (lines.map (· ++ "\n"))

/-- A line across the page. -/
def rule (width : Nat) : String :=
  String.ofList (List.replicate width '─')

/-- A text followed by blanks up to a width. -/
def padRight (width : Nat) (s : String) : String :=
  s ++ String.ofList (List.replicate (width - s.length) ' ')

/-! ## Documents -/

/-- A document, with the ids of its actions or without. -/
def documentLines (d : Document) (withIds : Bool) : List String :=
  let head := ["Trigger: " ++ (if d.label = "" then "(no label)" else d.label), rule 40]
  if d.actions.isEmpty then head ++ ["No actions configured"]
  else
    let line (preview : String) (a : Action) : String :=
      "  " ++ preview ++ if withIds then "  " ++ a.id else ""
    let duplicates :=
      if d.duplicateIds.isEmpty then []
      else ["", "  ⚠ duplicate instance ids: " ++ ", ".intercalate d.duplicateIds]
    head ++ List.zipWith line d.preview d.actions ++ duplicates

/-- The saved document after a command, or as it is. -/
def showDocument (c : Context) (d : Document) (news : List String) (withIds : Bool) : String :=
  if c.json then d.render ++ "\n" else joinLines (news ++ documentLines d withIds)

/-! ## The catalog -/

def catalogLine (k : Kind) : String :=
  "  " ++ padRight 20 k.id ++ " " ++ padRight 16 k.shortName ++ " " ++ padRight 22 k.label ++ " "
    ++ k.paramPrompt?.getD "-"

def catalogEntry (k : Kind) : Json.Value :=
  .object [("id", .text k.id), ("alias", .text k.shortName), ("label", .text k.label),
    ("param_prompt", .optional k.paramPrompt?), ("terminal", .bool k.ending?.isSome)]

def showCatalog (c : Context) : String :=
  if c.json then (Json.Value.list (Kind.all.map catalogEntry)).indentedText ++ "\n"
  else
    joinLines (["Actions", rule 60] ++ Kind.all.map catalogLine
      ++ ["", "Add one with: clickflow add <ID|ALIAS> [PARAM]"])

/-! ## The store -/

def showValue (c : Context) (value : Option String) : String :=
  if c.json then (Json.Value.optional value).indentedText ++ "\n"
  else value.getD Default.value ++ "\n"

def showEntries (c : Context) (s : FileStore) : String :=
  if c.json then s.entries.render ++ "\n"
  else
    let entries :=
      if s.entries.pairs.isEmpty then ["No entries"]
      else s.entries.pairs.map fun p => "  " ++ p.1 ++ " = " ++ p.2
    joinLines (["Storage", rule 40] ++ entries ++ if c.verbose then ["", s.path] else [])

/-! ## The configuration -/

def effectiveConfig (c : Context) (l : LoadedConfig) : Json.Value :=
  .object [("data_dir", .text c.dataDirectory), ("pacing_ms", .integer c.settings.pacing),
    ("storage_mode", .text c.settings.mode.name), ("log_file", .bool l.config.logsToFile),
    ("sources", .list (l.loadedFrom.map .text)), ("warnings", .list (l.warnings.map .text))]

def configLines (c : Context) (l : LoadedConfig) : List String :=
  let sources :=
    if l.loadedFrom.isEmpty then ["No config files loaded (using defaults)"]
    else "Config files:" :: l.loadedFrom.map ("  " ++ ·)
  let warnings :=
    if l.warnings.isEmpty then [] else "Warnings:" :: l.warnings.map ("  ⚠ " ++ ·) ++ [""]
  let raw :=
    if c.verbose then ["---", "Raw config:", ""] ++ l.config.render?.toList else []
  ["# Clickflow Configuration", ""] ++ sources
    ++ ["", "Engine:", "  pacing: " ++ toString c.settings.pacing ++ " ms",
      "  storage mode: " ++ c.settings.mode.name, "", "Paths:", "  data dir: " ++ c.dataDirectory,
      "  workflow: " ++ c.workflowPath, "  storage:  " ++ c.storagePath, "", "Logging:",
      "  file: " ++ toString l.config.logsToFile, ""]
    ++ warnings ++ raw

def showConfig (c : Context) (l : LoadedConfig) : String :=
  if c.json then (effectiveConfig c l).indentedText ++ "\n" else joinLines (configLines c l)

/-- Which files were looked for. -/
def showSources (l : LoadedConfig) : String :=
  let line (s : Source) : String :=
    "  " ++ (if s.loaded then "✓ loaded" else "· not found") ++ " " ++ s.path
  let sum :=
    if l.loadedFrom.isEmpty then
      "No config files found. Run 'clickflow config init' to create one."
    else toString l.loadedFrom.length ++ " config file(s) loaded."
  joinLines (["Config file search order (later overrides earlier):", ""] ++ l.sources.map line
    ++ ["", sum])

/-! ## Runs -/

/-- The line that a run starts with. -/
def runHeader (d : Document) : String :=
  "▶ " ++ d.label ++ " (" ++ toString d.size ++ " action(s))\n"

/-- How an entry of the log is shown as it comes. -/
def contentLine : Content → String
  | .text s => "  " ++ s ++ "\n"
  | .image url => "  [image] " ++ url ++ "\n"

def statusLine (o : Outcome) : String :=
  match o.status with
  | .completed =>
    "✓ Completed: " ++ toString o.executed ++ " action(s), " ++ toString o.pauses ++ " pause(s)"
  | .terminated ending =>
    "■ Ended by " ++ ending.name ++ " after " ++ toString o.executed ++ " action(s)"
  | .cancelled => "■ Cancelled after " ++ toString o.executed ++ " action(s)"

/-- What is told at the end of a run. -/
def summaryLines (o : Outcome) (shown : Presentation) (requested : Option Ending) : List String :=
  let request := match requested with
    | some .refresh => ["  Host reload requested"]
    | some .close => ["  Host close requested"]
    | none => []
  let trigger := "  Trigger: scale " ++ Decimal.fixed 1 shown.scale ++ ", color " ++ shown.color
    ++ ", " ++ if shown.enabled then "enabled" else "disabled"
  let issue (d : Diagnostic) : String :=
    "  ⚠ #" ++ toString (d.index + 1) ++ " " ++ d.kind ++ ": " ++ d.issue.message
  ["", statusLine o] ++ request ++ [trigger] ++ o.diagnostics.map issue

end TriggerFlow.CommandLine
