import TriggerFlow.Toml.Text

/-!
# Writing TOML

What is written is a list of tables, each a header and its members. A text is put between **the
first quotes in which it needs no escape**: one double quote, one single quote, three double ones,
three single ones. If there are none such it is escaped between double quotes, three of them if it
has a line break, one if not.
-/

set_option autoImplicit false

namespace TriggerFlow.Toml

/-- A value to be written. -/
inductive Written where
  | natural (n : Nat)
  | bool (b : Bool)
  | text (s : String)
  deriving DecidableEq, Repr

/-- The longest run of a character. -/
def longestRun (c : Char) (cs : List Char) : Nat :=
  (cs.foldl (fun (longest, current) d =>
    let current := if d = c then current + 1 else 0
    (max longest current, current)) (0, 0)).1

/-- How a text may be put between quotes. -/
structure Form where
  quote : Char
  isMultiline : Bool
  isEscaped : Bool
  deriving DecidableEq, Repr

/-- A control that no text holds as it is; the tab and the line break are left to the form. -/
def isControl (c : Char) : Bool :=
  (c.toNat < 0x20 || c.toNat = 0x7F) && c ≠ '\t' && c ≠ '\n'

/-- The form in which a text is written. -/
def formOf (cs : List Char) : Form :=
  let isLine := !cs.contains '\n'
  let isPlain := !cs.any isControl
  if isPlain && isLine && !cs.contains '\\' && !cs.contains '"' then ⟨'"', false, false⟩
  else if isPlain && isLine && !cs.contains '\'' then ⟨'\'', false, false⟩
  else if isPlain && !cs.contains '\\' && longestRun '"' cs ≤ 2 then ⟨'"', true, false⟩
  else if isPlain && longestRun '\'' cs ≤ 2 then ⟨'\'', true, false⟩
  else ⟨'"', !isLine, true⟩

/-- A digit of a number below sixteen, in upper case. -/
private def upperHex (n : Nat) : Char :=
  (Nat.digitChar n).toUpper

/-- One character between double quotes. -/
def writtenChar (f : Form) (c : Char) : List Char :=
  if c = '\t' then ['\\', 't']
  else if ¬ f.isEscaped then [c]
  else if c = '\\' then ['\\', '\\']
  else if c = '\x08' then ['\\', 'b']
  else if c = '\x0c' then ['\\', 'f']
  else if c = '\r' then ['\\', 'r']
  else if isControl c then
    ['\\', 'u', '0', '0', upperHex (c.toNat / 16), upperHex (c.toNat % 16)]
  else [c]

/-- The characters between double quotes. A quote is escaped when so many before it were not. -/
def writtenChars (f : Form) (unescaped : Nat) : Nat → List Char → List Char
  | _, [] => []
  | run, c :: cs =>
    if c = '"' then
      if f.isEscaped ∧ run = unescaped then '\\' :: '"' :: writtenChars f unescaped 0 cs
      else '"' :: writtenChars f unescaped (run + 1) cs
    else writtenChar f c ++ writtenChars f unescaped 0 cs

/-- A text between its quotes. A text over several lines starts on a line of its own. -/
def textChars (s : String) : List Char :=
  let f := formOf s.toList
  let quotes := List.replicate (if f.isMultiline then 3 else 1) f.quote
  let body :=
    if f.quote = '"' then writtenChars f (if f.isMultiline then 2 else 0) 0 s.toList else s.toList
  let lead := if f.isMultiline && s.toList.contains '\n' then ['\n'] else []
  quotes ++ lead ++ body ++ quotes

def Written.render : Written → String
  | .natural n => toString n
  | .bool b => toString b
  | .text s => String.ofList (textChars s)

/-- One table: its header and its members, each on a line. -/
def renderTable (name : String) (members : List (String × Written)) : String :=
  "[" ++ name ++ "]\n" ++ String.join (members.map fun m => m.1 ++ " = " ++ m.2.render ++ "\n")

/-- Tables with a blank line between two of them. -/
def render (tables : List (String × List (String × Written))) : String :=
  "\n".intercalate (tables.map fun t => renderTable t.1 t.2)

end TriggerFlow.Toml
