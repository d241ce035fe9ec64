import TriggerFlow.Json.Reader

/-!
# Passing over a value

A member with an unknown key may hold anything, and nothing of it is kept. It has to be JSON all the
same, to any depth, so the walk over it keeps **the brackets that are open, innermost first**, and
nothing else.
-/

set_option autoImplicit false

namespace TriggerFlow.Json

/-- What a bracket opened. -/
inductive Bracket where
  | list
  | object
  deriving DecidableEq, Repr

/-- Where the walk stands. -/
inductive SkipState where
  /-- Before a value inside `around`. -/
  | value (around : List Bracket)
  /-- Just inside the bracket `inner`. -/
  | opened (inner : Bracket) (around : List Bracket)
  /-- After a value inside the bracket `inner`. -/
  | after (inner : Bracket) (around : List Bracket)

/-- After a value has ended: the walk is done if no bracket is open. -/
def SkipState.leave : List Bracket → Text.Round SkipState Unit
  | [] => .done ()
  | inner :: around => .more (.after inner around)

/-- Takes a value without parts, or the bracket that opens one with parts. -/
def skipFirst (around : List Bracket) : Reader (Text.Round SkipState Unit) := fun cs =>
  let leaf (rest : Except Fault (List Char)) :
      Except Fault (Text.Round SkipState Unit × List Char) :=
    rest.map (SkipState.leave around, ·)
  match skipSpace cs with
  | [] => .error .ended
  | 'n' :: rest => leaf (readLetters "ull".toList rest)
  | 't' :: rest => leaf (readLetters "rue".toList rest)
  | 'f' :: rest => leaf (readLetters "alse".toList rest)
  | '"' :: rest => leaf (skipText rest)
  | '[' :: rest => .ok (.more (.opened .list around), rest)
  | '{' :: rest => .ok (.more (.opened .object around), rest)
  | c :: rest =>
    if c = '-' ∨ Text.isDigit c then leaf (skipNumber (c :: rest)) else .error .malformed

/-- Takes the key and the colon of a member, or, in a list, nothing; what follows is a value. -/
def skipInto (inner : Bracket) (around : List Bracket) :
    Reader (Text.Round SkipState Unit) := fun cs =>
  match inner with
  | .list => skipFirst (.list :: around) cs
  | .object =>
    match skipSpace cs with
    | [] => .error .ended
    | '"' :: rest =>
      match skipText rest with
      | .error e => .error e
      | .ok rest => (readColon rest).map (.more (.value (.object :: around)), ·)
    | _ => .error .malformed

/-- The character that closes a bracket. -/
def Bracket.closing : Bracket → Char
  | .list => ']'
  | .object => '}'

/-- One step of the walk. -/
def skipRound : SkipState → Reader (Text.Round SkipState Unit)
  | .value around, cs => skipFirst around cs
  | .opened inner around, cs =>
    match skipSpace cs with
    | [] => .error .ended
    | c :: rest =>
      if c = inner.closing then .ok (SkipState.leave around, rest)
      else skipInto inner around (c :: rest)
  | .after inner around, cs =>
    match skipSpace cs with
    | [] => .error .ended
    | c :: rest =>
      if c = inner.closing then .ok (SkipState.leave around, rest)
      else if c = ',' then skipInto inner around rest
      else .error .malformed

/-- Passes over one value of any kind. -/
def skipValue (cs : List Char) : Except Fault (List Char) :=
  (loop skipRound (.value []) cs).map (·.2)

end TriggerFlow.Json
