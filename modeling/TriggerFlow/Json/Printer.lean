import TriggerFlow.Json.Text
import TriggerFlow.Json.Value

/-!
# Writing JSON

There are two ways to write a value, on one line or indented by two spaces for each level, and they
differ **in nothing but the blanks between its parts**. An empty list or object has no blanks in
either. A number that is not finite has no form in JSON and becomes `null`.
-/

set_option autoImplicit false

namespace TriggerFlow.Json

/-- The blanks between the parts of a value. -/
structure Spacing where
  /-- Before an item or a closing bracket, inside so many brackets. -/
  gap : Nat → List Char
  /-- Between a key and its value. -/
  colon : List Char

/-- No blanks at all. -/
def compact : Spacing where
  gap := fun _ => []
  colon := [':']

/-- A line for each part. -/
def indented : Spacing where
  gap := fun depth => '\n' :: List.replicate (2 * depth) ' '
  colon := [':', ' ']

/-- A double, or `null` for what is not finite. -/
def numberChars (x : Float) : List Char :=
  match Decimal.magnitude x with
  | .finite _ _ => (numberLayout.render x).toList
  | _ => "null".toList

mutual

/-- The characters of a value inside `depth` brackets. -/
def Value.chars (s : Spacing) (depth : Nat) : Value → List Char
  | .null => "null".toList
  | .bool b => (toString b).toList
  | .integer n => (toString n).toList
  | .number x => numberChars x
  | .text t => textChars t
  | .list [] => ['[', ']']
  | .list (v :: vs) =>
    '[' :: (s.gap (depth + 1) ++ v.chars s (depth + 1) ++ itemChars s (depth + 1) vs
      ++ s.gap depth ++ [']'])
  | .object [] => ['{', '}']
  | .object ((key, v) :: members) =>
    '{' :: (s.gap (depth + 1) ++ textChars key ++ s.colon ++ v.chars s (depth + 1)
      ++ memberChars s (depth + 1) members ++ s.gap depth ++ ['}'])

/-- The items after the first, each with the comma before it. -/
def itemChars (s : Spacing) (depth : Nat) : List Value → List Char
  | [] => []
  | v :: vs => ',' :: (s.gap depth ++ v.chars s depth ++ itemChars s depth vs)

/-- The members after the first, each with the comma before it. -/
def memberChars (s : Spacing) (depth : Nat) : List (String × Value) → List Char
  | [] => []
  | (key, v) :: members =>
    ',' :: (s.gap depth ++ textChars key ++ s.colon ++ v.chars s depth
      ++ memberChars s depth members)

end

/-- A value on one line. -/
def Value.compactText (v : Value) : String :=
  String.ofList (v.chars compact 0)

/-- A value over several lines, without one at the end. -/
def Value.indentedText (v : Value) : String :=
  String.ofList (v.chars indented 0)

end TriggerFlow.Json
