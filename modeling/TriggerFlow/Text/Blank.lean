/-!
# White space at the ends of a text

A storage key may be written with blanks around it, and a key read back has to be the key that was
saved, so both sides cut the ends of a text by the same rule: **the `White_Space` property of
Unicode**, twenty-five characters. Core's `Char.isWhitespace` knows only four of them, and the
zero-width characters that look blank (`U+200B`, `U+FEFF`, `U+180E`) are not among them.
-/

set_option autoImplicit false

namespace TriggerFlow.Text

/-- The `White_Space` property: the ASCII controls `U+0009`–`U+000D`, the space, and the blanks and
line separators beyond ASCII. -/
def isBlank (c : Char) : Bool :=
  let n := c.toNat
  (9 ≤ n && n ≤ 13) || n = 0x20 || n = 0x85 || n = 0xA0 || n = 0x1680
    || (0x2000 ≤ n && n ≤ 0x200A) || n = 0x2028 || n = 0x2029 || n = 0x202F || n = 0x205F
    || n = 0x3000

/-- Cuts the blanks at both ends of a list of characters; those between two others stay. -/
def trimList (cs : List Char) : List Char :=
  ((cs.dropWhile isBlank).reverse.dropWhile isBlank).reverse

/-- Cuts the blanks at both ends of a text. -/
def trim (s : String) : String :=
  String.ofList (trimList s.toList)

end TriggerFlow.Text
