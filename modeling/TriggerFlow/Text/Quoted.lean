import TriggerFlow.Text.Unprintable

/-!
# A text shown between quotes

An error that reports the text it met shows it so that nothing in it can be mistaken: between
double quotes, with the five characters that have a short name (`\0 \t \r \n` and the backslash
before a quote or a backslash) written by it, **every other character without a shape written
`\u{…}` with its number in hexadecimal**, and all else as it stands.
-/

set_option autoImplicit false

namespace TriggerFlow.Text

/-- The digits of a number in lowercase hexadecimal, without leading zeros. -/
def hexDigits (n : Nat) : String :=
  String.ofList (Nat.toDigits 16 n)

/-- How one character stands inside quotes. -/
def quotedChar (c : Char) : String :=
  if c = '\x00' then "\\0"
  else if c = '\t' then "\\t"
  else if c = '\r' then "\\r"
  else if c = '\n' then "\\n"
  else if c = '"' then "\\\""
  else if c = '\\' then "\\\\"
  else if c.toNat < 0x20 || c.toNat = 0x7F || isUnprintable c then
    "\\u\x7b" ++ hexDigits c.toNat ++ "\x7d"
  else c.toString

/-- A text between double quotes. -/
def quoted (s : String) : String :=
  "\"" ++ String.join (s.toList.map quotedChar) ++ "\""

end TriggerFlow.Text
