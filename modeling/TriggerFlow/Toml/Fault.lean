import TriggerFlow.Mismatch

/-!
# Why a configuration could not be read

A text that is no TOML has nothing more to be told of it than that. One that is may hold something
of the wrong shape, and then **the first such thing in the order of the text is told**.
-/

set_option autoImplicit false

namespace TriggerFlow.Toml

inductive Fault where
  /-- The text is not TOML. -/
  | malformed
  | mismatch (cause : Mismatch)
  /-- Neither a text nor a table where the name of a variant belongs. -/
  | noVariant
  /-- A table in its place with no member, or with more than one. -/
  | noSingleVariant (members : Nat)
  /-- Content where a variant has none. -/
  | variantContent (expected : String)
  deriving Repr

/-- What is told of TOML of the wrong shape. -/
def Fault.message? : Fault → Option String
  | .malformed => none
  | .mismatch cause => some (cause.message Decimal.plain)
  | .noVariant => some "wanted string or table"
  | .noSingleVariant 0 => some "wanted exactly 1 element, found 0 elements"
  | .noSingleVariant _ => some "wanted exactly 1 element, more than 1 element"
  | .variantContent expected => some ("expected " ++ expected)

/-- The class a fault belongs to. -/
def Fault.category : Fault → String
  | .malformed => "syntax"
  | .mismatch _ | .noVariant | .noSingleVariant _ | .variantContent _ => "data"

end TriggerFlow.Toml
