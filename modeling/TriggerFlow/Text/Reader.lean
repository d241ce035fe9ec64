/-!
# Reading from left to right

A reader takes something off the front of the remaining characters and returns it with what is
left, or says why it cannot. Everything that repeats is a `loop` of rounds. **A round that goes on
takes at least one character**, so a text has no more rounds than characters and one that ends the
loop; that number is where a loop stops, and nothing has to be counted on the way.
-/

set_option autoImplicit false

namespace TriggerFlow.Text

/-- Takes a value off the front of a text. -/
abbrev Reader (ε α : Type) := List Char → Except ε (α × List Char)

/-- What one round of a loop does: it goes on from a new state, or the loop is done. -/
inductive Round (σ α : Type) where
  | more (state : σ)
  | done (value : α)

section Loop

variable {ε σ α : Type}

/-- Runs rounds until one is done, at most one for each character of `spare` and one more. -/
def loopWithin (stuck : ε) (round : σ → Reader ε (Round σ α)) :
    List Char → σ → List Char → Except ε (α × List Char)
  | spare, state, cs =>
    match round state cs, spare with
    | .error e, _ => .error e
    | .ok (.done a, rest), _ => .ok (a, rest)
    | .ok (.more next, rest), _ :: spare => loopWithin stuck round spare next rest
    | .ok (.more _, _), [] => .error stuck

/-- Runs rounds until one is done. Rounds that take nothing are stopped at some time. -/
def loop (stuck : ε) (round : σ → Reader ε (Round σ α)) (state : σ) : Reader ε α := fun cs =>
  loopWithin stuck round cs state cs

end Loop

end TriggerFlow.Text
