import TriggerFlow.FileTree.Saved

/-!
# The log of a process

A process writes down what it does in a file of its own, which is opened before anything is done
that it was asked for. What is written there no command ever reads. But opening it makes
directories, and **a process that cannot open its log dies at that moment**, whatever the command.

How log files are opened is not decided here. An `Appender` is told where they go and how their
names begin, and says what comes of it.
-/

set_option autoImplicit false

namespace TriggerFlow

/-- Opens a file to write at its end, a new one where there is none. -/
def FileTree.openAtEnd (path : String) (t : FileTree) : Except Obstacle FileTree :=
  if t.isFile path then .ok t else t.write path (.text "")

namespace CommandLine

/-- What the names of log files begin with. -/
def logName : String := "clickflow.log"

/-- Opens the files of a log. -/
structure Appender where
  /-- Opens the file that is to be written now, given the directory of the log and what the names of
  its files begin with. If that fails, a text to die with. -/
  opens : String → String → FileTree → Except String Unit × FileTree

namespace Appender

/-- Keeps a file for each day. Directories are made if the file cannot be opened without. -/
def daily (day : String) (dying : Obstacle → String) : Appender where
  opens directory name files :=
    let path := Path.join directory (name ++ "." ++ day)
    match files.openAtEnd path with
    | .ok files => (.ok (), files)
    | .error _ =>
      match files.makeParent path with
      | (.error (_, e), files) => (.error (dying e), files)
      | (.ok (), files) =>
        match files.openAtEnd path with
        | .ok files => (.ok (), files)
        | .error e => (.error (dying e), files)

end Appender
end CommandLine
end TriggerFlow
