/-!
# What files refuse

Everything that can go wrong with a file has one wording, whoever asked for the file. **An obstacle
is found at the first name that cannot be followed**, so a path has at most one.
-/

set_option autoImplicit false

namespace TriggerFlow

inductive Obstacle where
  /-- A name that is not there. -/
  | notFound
  /-- Something stands already where something new was to be made. -/
  | exists
  /-- A name was looked up in something that is not a directory. -/
  | notDirectory
  | isDirectory
  /-- A name of more than 255 bytes, or a path of more than 4095. -/
  | nameTooLong
  /-- The bytes of a file are not a text. -/
  | notText
  /-- A path with the character that no path can hold. -/
  | invalidPath
  deriving DecidableEq, Repr

def Obstacle.message : Obstacle → String
  | .notFound => "No such file or directory (os error 2)"
  | .exists => "File exists (os error 17)"
  | .notDirectory => "Not a directory (os error 20)"
  | .isDirectory => "Is a directory (os error 21)"
  | .nameTooLong => "File name too long (os error 36)"
  | .notText => "stream did not contain valid UTF-8"
  | .invalidPath => "file name contained an unexpected NUL byte"

end TriggerFlow
