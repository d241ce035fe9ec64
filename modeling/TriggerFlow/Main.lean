import Mathlib.Tactic.DeprecateTo
import TriggerFlow.CommandLine

/-!
# The program

Everything is decided elsewhere; here the files that a command may touch are read into a
`FileTree`, and **what has changed in it is written back after every step of a run**, the two
channels are written as they grow, and lines are read when a session is starved of them. A step
that starved is taken again once there is a line: a session is a value, so nothing of the first
attempt remains. Of the log only the file is made; nothing is written to it.
-/

set_option autoImplicit false

namespace TriggerFlow.Main

open CommandLine

/-- The path of a place. -/
def pathOf (place : Place) : String :=
  "/" ++ "/".intercalate place.reverse

/-- The places on the way of a path, the outermost first. -/
def placesOn (start : Place) (path : String) : List Place :=
  let step (acc : Place × List Place) (piece : String) : Place × List Place :=
    if Path.isIdle piece then acc
    else
      let place := if piece = ".." then acc.1.tail else piece :: acc.1
      (place, acc.2 ++ [place])
  ((Path.pieces path).foldl step (if Path.isAbsolute path then [] else start, [])).2

/-- What stands at a path on the disk. -/
def probe (path : String) : IO (Option FileNode) := do
  try
    let bytes ← IO.FS.readBinFile path
    return some (.file (match String.fromUTF8? bytes with
      | some s => .text s
      | none => .binary bytes.toList))
  catch _ =>
    return if ← ((← IO.currentDir) / path).isDir then some .directory else none

/-- Adds what stands on the way of some paths. -/
def look (t : FileTree) (paths : List String) : IO FileTree := do
  let mut t := t
  for path in paths do
    for place in placesOn t.here path do
      if (t.at? place).isNone then
        if let some node ← probe (pathOf place) then t := t.put place node
  return t

/-- Writes to the disk what is different in a later tree. -/
def store (before after : FileTree) : IO Unit := do
  for ((_, place), node) in after.nodes.reverse do
    if before.at? place ≠ some node then
      match node with
      | .directory => IO.FS.createDir (pathOf place)
      | .file (.text s) => IO.FS.writeFile (pathOf place) s
      | .file (.binary bytes) => IO.FS.writeBinFile (pathOf place) ⟨bytes.toArray⟩

/-- What has been written to the two channels, in characters. -/
structure Written where
  out : Nat
  err : Nat

/-- Writes what has been added to the two channels. -/
def flush (w : Written) (out err : String) : IO Written := do
  let stdout ← IO.getStdout
  let stderr ← IO.getStderr
  stdout.putStr (String.ofList (out.toList.drop w.out))
  stdout.flush
  stderr.putStr (String.ofList (err.toList.drop w.err))
  stderr.flush
  return ⟨out.length, err.length⟩

/-- The next line, nothing at the end. A line that is no text is there all the same. -/
def nextLine : IO (List (Option String)) := do
  try
    return linesOf (← (← IO.getStdin).getLine)
  catch _ => return [none]

/-- Takes a step, again with one more line as long as it starves. -/
partial def feed (step : List (Option String) → Bool → Session) (lines : List (Option String))
    (ended : Bool) (w : Written) : IO (Session × Written) := do
  let s := step lines ended
  if s.console.starved then
    let w ← flush w s.text s.console.shown
    match ← nextLine with
    | [] => feed step lines true w
    | more => feed step (lines ++ more) ended w
  else return (s, w)

/-- Lets a session go on to its end. -/
partial def drive (c : Context) (before : FileTree) (s : Session) (w : Written) : IO UInt32 := do
  store before s.files
  let w ← flush w s.text s.console.shown
  if s.answer.isSome then
    let r := resultOf c s
    let _ ← flush w r.out r.err
    return r.exit.toUInt32
  IO.sleep (min s.pacing ((1 <<< 32) - 1)).toUInt32
  let (next, w) ← feed (fun lines ended => (s.supply lines ended).resume) [] s.console.ended w
  drive c s.files next w

/-- The number that some bytes write. -/
def numberOf (bytes : ByteArray) : Nat :=
  bytes.toList.foldl (fun n b => n * 256 + b.toNat) 0

/-- The environment of the process. -/
def environment : IO Environment := do
  let names := [Environment.dataVariable, Environment.configVariable, "XDG_DATA_HOME",
    "XDG_CONFIG_HOME", "HOME"]
  let found ← names.filterMapM fun name => return (← IO.getEnv name).map (name, ·)
  return ⟨found, none⟩

/-- The day that the file of the log is named for. -/
def today : IO String := do
  let now ← Std.Time.Timestamp.now
  return (Std.Time.PlainDate.ofEpochDay now.toDaysSinceUnixEpoch).toLeanDateString

/-- The last words of a process that cannot open its log. -/
def lastWords (e : Obstacle) : String :=
  "initializing rolling file appender failed: " ++ e.message ++ "\n"

def run (args : List String) : IO UInt32 := do
  let e ← environment
  let day ← today
  let log : Appender := .daily day lastWords
  let here := ((Path.pieces (← IO.currentDir).toString).filter (!Path.isIdle ·)).reverse
  let files ← look ⟨[], here⟩ ("." :: Surroundings.configPaths e)
  let files ← look files [pathOf here]
  let s : Surroundings :=
    ⟨e, files, ⟨numberOf (← IO.getRandomBytes 16)⟩,
      .ofSeed (numberOf (← IO.getRandomBytes 8)), [], false⟩
  let logPath := Path.join e.logDirectory (logName ++ "." ++ day)
  let files ← look files (logPath :: s.dataPaths args)
  let s := { s with files }
  match launch log args s with
  | .done r =>
    store files r.files
    let _ ← flush ⟨0, 0⟩ r.out r.err
    return r.exit.toUInt32
  | .running c first =>
    let again (lines : List (Option String)) (ended : Bool) : Session :=
      match launch log args { s with lines, linesEnded := ended } with
      | .running _ session => session
      | .done _ => first
    let (session, w) ← feed again [] false ⟨0, 0⟩
    drive c files session w

end TriggerFlow.Main

/-- Runs the command line of the process. -/
def main (args : List String) : IO UInt32 :=
  TriggerFlow.Main.run args
