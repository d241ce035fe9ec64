import TriggerFlow.Json.Fault
import TriggerFlow.Text.Digits

/-!
# Texts inside JSON

Writing escapes as little as it may: the quote, the backslash and the controls below the space.
Reading accepts every escape of the format. **Escapes by number come in UTF-16 units**, so a
character beyond `U+FFFF` takes a pair, and half a pair names no character. A member that is skipped
is not decoded, and there half a pair passes.
-/

set_option autoImplicit false

namespace TriggerFlow.Json

/-! ## Writing -/

/-- The digit of a number below sixteen. -/
def hexDigit (n : Nat) : Char :=
  Nat.digitChar n

/-- How one character is written between the quotes. -/
def escapeChar (c : Char) : List Char :=
  if c = '"' then ['\\', '"']
  else if c = '\\' then ['\\', '\\']
  else if c = '\x08' then ['\\', 'b']
  else if c = '\x0c' then ['\\', 'f']
  else if c = '\n' then ['\\', 'n']
  else if c = '\r' then ['\\', 'r']
  else if c = '\t' then ['\\', 't']
  else if c.toNat < 0x20 then
    ['\\', 'u', '0', '0', hexDigit (c.toNat / 16), hexDigit (c.toNat % 16)]
  else [c]

/-- A text with its quotes. -/
def textChars (s : String) : List Char :=
  '"' :: (s.toList.flatMap escapeChar ++ ['"'])

/-! ## Reading -/

/-- A number of four hexadecimal digits. The text has ended too early only if fewer than four bytes
are left; four bytes that are not all digits are malformed. -/
def readHex : List Char → Except Fault (Nat × List Char)
  | a :: b :: c :: d :: rest =>
    match Text.hexValue? a, Text.hexValue? b, Text.hexValue? c, Text.hexValue? d with
    | some p, some q, some r, some s => .ok (((p * 16 + q) * 16 + r) * 16 + s, rest)
    | _, _, _, _ => .error .malformed
  | few => .error (if (String.ofList few).utf8ByteSize < 4 then .ended else .malformed)

/-- The second half of a pair, of which `first` is the number of the first half. -/
def readTrailing (first : Nat) : List Char → Except Fault (Char × List Char)
  | [] => .error .ended
  | '\\' :: [] => .error .ended
  | '\\' :: 'u' :: rest =>
    match readHex rest with
    | .error e => .error e
    | .ok (second, rest) =>
      if 0xDC00 ≤ second ∧ second ≤ 0xDFFF then
        .ok (Char.ofNat ((first - 0xD800) * 0x400 + (second - 0xDC00) + 0x10000), rest)
      else .error .malformed
  | _ => .error .malformed

/-- The character that an escape by number names, after the `u`. -/
def readUnicode (cs : List Char) : Except Fault (Char × List Char) :=
  match readHex cs with
  | .error e => .error e
  | .ok (n, rest) =>
    if 0xDC00 ≤ n ∧ n ≤ 0xDFFF then .error .malformed
    else if 0xD800 ≤ n ∧ n ≤ 0xDBFF then readTrailing n rest
    else .ok (Char.ofNat n, rest)

/-- The character that an escape names, after the backslash. -/
def readEscape : List Char → Except Fault (Char × List Char)
  | [] => .error .ended
  | '"' :: rest => .ok ('"', rest)
  | '\\' :: rest => .ok ('\\', rest)
  | '/' :: rest => .ok ('/', rest)
  | 'b' :: rest => .ok ('\x08', rest)
  | 'f' :: rest => .ok ('\x0c', rest)
  | 'n' :: rest => .ok ('\n', rest)
  | 'r' :: rest => .ok ('\r', rest)
  | 't' :: rest => .ok ('\t', rest)
  | 'u' :: rest => readUnicode rest
  | _ => .error .malformed

theorem readHex_length {cs rest : List Char} {n : Nat} (h : readHex cs = .ok (n, rest)) :
    rest.length < cs.length := by
  unfold readHex at h
  split at h
  · split at h
    · injection h with h; injection h with _ h; subst h; simp only [List.length_cons]; omega
    · cases h
  · cases h

theorem readTrailing_length {first : Nat} {cs rest : List Char} {c : Char}
    (h : readTrailing first cs = .ok (c, rest)) : rest.length < cs.length := by
  unfold readTrailing at h
  split at h
  · cases h
  · cases h
  · split at h
    · cases h
    · rename_i hread
      have := readHex_length hread
      split at h
      · injection h with h; injection h with _ h; subst h; simp only [List.length_cons]; omega
      · cases h
  · cases h

theorem readUnicode_length {cs rest : List Char} {c : Char}
    (h : readUnicode cs = .ok (c, rest)) : rest.length < cs.length := by
  unfold readUnicode at h
  split at h
  · cases h
  · rename_i hread
    have := readHex_length hread
    split at h
    · cases h
    · split at h
      · have := readTrailing_length h; omega
      · injection h with h; injection h with _ h; subst h; exact this

/-- An escape takes at least one character, so what follows it is shorter. -/
theorem readEscape_length {cs rest : List Char} {c : Char}
    (h : readEscape cs = .ok (c, rest)) : rest.length < cs.length := by
  unfold readEscape at h
  split at h
  all_goals first
    | cases h; done
    | (cases h; simp only [List.length_cons]; omega)
    | (have h2 : rest.length < _ := readUnicode_length h; simp only [List.length_cons]; omega)

/-- The characters of a text up to its closing quote, which is taken too. -/
def readChars : List Char → Except Fault (List Char × List Char)
  | [] => .error .ended
  | c :: cs =>
    if c = '"' then .ok ([], cs)
    else if c = '\\' then
      match _h : readEscape cs with
      | .error e => .error e
      | .ok (named, rest) =>
        match readChars rest with
        | .error e => .error e
        | .ok (more, rest) => .ok (named :: more, rest)
    else if c.toNat < 0x20 then .error .malformed
    else
      match readChars cs with
      | .error e => .error e
      | .ok (more, rest) => .ok (c :: more, rest)
termination_by cs => cs.length
decreasing_by
  · have := readEscape_length _h
    simp only [List.length_cons]; omega
  · simp

/-- A text after its opening quote. -/
def readText (cs : List Char) : Except Fault (String × List Char) :=
  match readChars cs with
  | .error e => .error e
  | .ok (named, rest) => .ok (String.ofList named, rest)

/-- Passes over a text after its opening quote. Its escapes have to be escapes of the format, but
the numbers in them need not name characters. -/
def skipText : List Char → Except Fault (List Char)
  | [] => .error .ended
  | '"' :: rest => .ok rest
  | '\\' :: rest =>
    match rest with
    | [] => .error .ended
    | 'u' :: digits =>
      match _h : readHex digits with
      | .error e => .error e
      | .ok (_, rest) => skipText rest
    | c :: rest => if c ∈ ['"', '\\', '/', 'b', 'f', 'n', 'r', 't'] then skipText rest
      else .error .malformed
  | c :: rest => if c.toNat < 0x20 then .error .malformed else skipText rest
termination_by cs => cs.length
decreasing_by
  · have := readHex_length _h
    simp only [List.length_cons]; omega
  · simp only [List.length_cons]; omega
  · simp

end TriggerFlow.Json
