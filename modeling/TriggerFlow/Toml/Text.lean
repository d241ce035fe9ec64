import TriggerFlow.Text.Digits
import TriggerFlow.Text.Reader
import TriggerFlow.Toml.Fault

/-!
# Texts, keys and blanks in TOML

A text comes between single or double quotes, one of each or three. Only double quotes know escapes,
and **only three quotes let a text run over several lines**; there a line break is one character,
however it was written, and none right after the opening quotes. A key is a text on one line, or a
bare word.
-/

set_option autoImplicit false

namespace TriggerFlow.Toml

/-- Takes a value off the front of a text. -/
abbrev Reader (α : Type) := Text.Reader Fault α

/-- Runs rounds until one is done. -/
def loop {σ α : Type} (round : σ → Reader (Text.Round σ α)) (state : σ) : Reader α :=
  Text.loop .malformed round state

/-! ## Between values -/

/-- A blank inside a line. -/
def isBlank (c : Char) : Bool :=
  c = ' ' || c = '\t'

def skipBlanks (cs : List Char) : List Char :=
  cs.dropWhile isBlank

/-- What may stand in a comment or a text: no control but the tab. -/
def isVisible (c : Char) : Bool :=
  c = '\t' || (0x20 ≤ c.toNat && c.toNat ≠ 0x7F)

/-- What is left after a line break, if there is one at the front. -/
def afterBreak? : List Char → Option (List Char)
  | '\n' :: rest => some rest
  | '\r' :: '\n' :: rest => some rest
  | _ => none

/-- Ends a line: blanks, perhaps a comment, and a line break or the end of the text. -/
def endLine (cs : List Char) : Except Fault (List Char) :=
  let cs := match skipBlanks cs with
    | '#' :: rest => rest.dropWhile isVisible
    | cs => cs
  match cs, afterBreak? cs with
  | [], _ => .ok []
  | _, some rest => .ok rest
  | _, none => .error .malformed

/-- Passes over blanks, line breaks and comments. A comment that holds what it must not is stopped
at. -/
def skipLines (inComment : Bool) : List Char → List Char
  | [] => []
  | '\n' :: rest => skipLines false rest
  | '\r' :: '\n' :: rest => skipLines false rest
  | c :: rest =>
    if inComment then
      if isVisible c then skipLines true rest else c :: rest
    else if c = '#' then skipLines true rest
    else if isBlank c then skipLines false rest
    else c :: rest

/-- Passes over blanks and line breaks. -/
def skipBreaks : List Char → List Char
  | '\n' :: rest => skipBreaks rest
  | '\r' :: '\n' :: rest => skipBreaks rest
  | c :: rest => if isBlank c then skipBreaks rest else c :: rest
  | [] => []

/-! ## Texts -/

/-- The character with a number of so many hexadecimal digits. -/
def readNumbered (width : Nat) : Reader Char := fun cs =>
  let digits := (cs.take width).filterMap Text.hexValue?
  let n := digits.foldl (fun n d => n * 16 + d) 0
  if digits.length = width ∧ n.isValidChar then .ok (Char.ofNat n, cs.drop width)
  else .error .malformed

/-- The character that an escape names, after the backslash. -/
def readEscape : Reader Char
  | 'b' :: rest => .ok ('\x08', rest)
  | 't' :: rest => .ok ('\t', rest)
  | 'n' :: rest => .ok ('\n', rest)
  | 'f' :: rest => .ok ('\x0c', rest)
  | 'r' :: rest => .ok ('\r', rest)
  | '"' :: rest => .ok ('"', rest)
  | '\\' :: rest => .ok ('\\', rest)
  | 'u' :: rest => readNumbered 4 rest
  | 'U' :: rest => readNumbered 8 rest
  | _ => .error .malformed

/-- The characters that were read, the last one first, as a text. -/
private def written (last : List Char) : String :=
  String.ofList last.reverse

/-- One round of a text on one line. -/
def lineRound (quote : Char) (read : List Char) : Reader (Text.Round (List Char) String)
  | [] => .error .malformed
  | c :: rest =>
    if c = quote then .ok (.done (written read), rest)
    else if c = '\\' ∧ quote = '"' then
      (readEscape rest).map fun (e, rest) => (.more (e :: read), rest)
    else if isVisible c then .ok (.more (c :: read), rest)
    else .error .malformed

/-- The end of a text over several lines, after the three quotes that end it: of up to five quotes
the last three do, so that a text may end with two. -/
def endLines (quote : Char) (read : List Char) :
    List Char → Text.Round (List Char) String × List Char
  | [] => (.done (written read), [])
  | c :: rest =>
    if c = quote then
      match rest with
      | d :: rest =>
        if d = quote then (.done (written (quote :: quote :: read)), rest)
        else (.done (written (quote :: read)), d :: rest)
      | [] => (.done (written (quote :: read)), [])
    else (.done (written read), c :: rest)

/-- One round of a text over several lines. A backslash at the end of a line takes away the line
break and all blanks and line breaks that follow. -/
def linesRound (quote : Char) (read : List Char) :
    Reader (Text.Round (List Char) String) := fun cs =>
  match cs, afterBreak? cs with
  | _, some rest => .ok (.more ('\n' :: read), rest)
  | [], none => .error .malformed
  | c :: rest, none =>
    if [c] ++ rest.take 2 = [quote, quote, quote] then .ok (endLines quote read (rest.drop 2))
    else if c = '\\' ∧ quote = '"' then
      match afterBreak? (skipBlanks rest) with
      | some rest => .ok (.more read, skipBreaks rest)
      | none => (readEscape rest).map fun (e, rest) => (.more (e :: read), rest)
    else if isVisible c then .ok (.more (c :: read), rest)
    else .error .malformed

/-- A text on one line, from its opening quote on. -/
def readLineText : Reader String
  | '"' :: rest => loop (lineRound '"') [] rest
  | '\'' :: rest => loop (lineRound '\'') [] rest
  | _ => .error .malformed

/-- A text after three opening quotes. A line break right after them is not part of it. -/
def readLinesText (quote : Char) : Reader String := fun cs =>
  loop (linesRound quote) [] ((afterBreak? cs).getD cs)

/-- A text in any quotes. -/
def readText : Reader String
  | '"' :: '"' :: '"' :: rest => readLinesText '"' rest
  | '\'' :: '\'' :: '\'' :: rest => readLinesText '\'' rest
  | cs => readLineText cs

/-! ## Keys -/

/-- What may stand in a key without quotes. -/
def isBare (c : Char) : Bool :=
  c.isAlphanum || c = '_' || c = '-'

/-- One part of a key. -/
def readPart : Reader String := fun cs =>
  match cs with
  | '"' :: _ | '\'' :: _ => readLineText cs
  | _ =>
    if (cs.takeWhile isBare).isEmpty then .error .malformed
    else .ok (String.ofList (cs.takeWhile isBare), cs.dropWhile isBare)

/-- A key: the tables it goes through, and its last part. -/
structure Key where
  above : List String
  last : String
  deriving DecidableEq, Repr

/-- The number of parts that no key has. -/
def tooManyParts : Nat := 80

/-- One round of reading parts with dots between them. -/
def partRound (above : List String) : Reader (Text.Round (List String) Key) := fun cs =>
  match readPart (skipBlanks cs) with
  | .error e => .error e
  | .ok (part, rest) =>
    match skipBlanks rest with
    | '.' :: rest => .ok (.more (above ++ [part]), rest)
    | rest =>
      if above.length + 1 < tooManyParts then .ok (.done ⟨above, part⟩, rest)
      else .error .malformed

/-- A key with the blanks around it. -/
def readKey : Reader Key :=
  loop partRound []

end TriggerFlow.Toml
