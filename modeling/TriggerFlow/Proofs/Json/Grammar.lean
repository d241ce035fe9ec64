import TriggerFlow.Proofs.Json.Reads

/-!
# All the ways to write a value

A value can be written in many ways: blanks between its parts, escapes in its texts, digits of its
numbers. `Tree.Written` relates what stands in a text to **every text that the format allows for
it**. A reader has no part in it, so a reader can be held against it.

Texts are made of pieces, and an escape by number is one UTF-16 unit. So a text in a tree may be
`none`: half a pair names no character, although the format allows it to be written.
-/

set_option autoImplicit false

namespace TriggerFlow.Json

/-! ## Pieces of a text -/

/-- A hexadecimal digit of either case, with its value. -/
structure HexDigit where
  char : Char
  value : Nat
  isValue : Text.hexValue? char = some value

/-- The letters after a backslash and the characters that they name. -/
def shortEscapes : List (Char × Char) :=
  [('"', '"'), ('\\', '\\'), ('/', '/'), ('b', '\x08'), ('f', '\x0c'), ('n', '\n'), ('r', '\r'),
    ('t', '\t')]

/-- What can stand between the quotes of a text. -/
inductive Piece where
  | plain (c : Char) (isPlain : c ≠ '"' ∧ c ≠ '\\' ∧ 0x20 ≤ c.toNat)
  | short (letter named : Char) (isEscape : (letter, named) ∈ shortEscapes)
  /-- One UTF-16 unit by its number. -/
  | unit (a b c d : HexDigit)

def Piece.chars : Piece → List Char
  | .plain c _ => [c]
  | .short letter _ _ => ['\\', letter]
  | .unit a b c d => ['\\', 'u', a.char, b.char, c.char, d.char]

/-- The number that four hexadecimal digits write. -/
def unitOf (a b c d : HexDigit) : Nat :=
  ((a.value * 16 + b.value) * 16 + c.value) * 16 + d.value

/-- The first half of a pair. -/
def IsLeading (unit : Nat) : Prop :=
  0xD800 ≤ unit ∧ unit ≤ 0xDBFF

/-- The second half of a pair. -/
def IsTrailing (unit : Nat) : Prop :=
  0xDC00 ≤ unit ∧ unit ≤ 0xDFFF

instance (unit : Nat) : Decidable (IsLeading unit) :=
  inferInstanceAs (Decidable (_ ∧ _))

instance (unit : Nat) : Decidable (IsTrailing unit) :=
  inferInstanceAs (Decidable (_ ∧ _))

/-- **Pieces name characters**: one by one, but for the two halves of a pair, which name one
character together. -/
inductive Names : List Piece → List Char → Prop where
  | nil : Names [] []
  | plain {c : Char} {isPlain : c ≠ '"' ∧ c ≠ '\\' ∧ 0x20 ≤ c.toNat} {pieces : List Piece}
      {cs : List Char} (others : Names pieces cs) : Names (.plain c isPlain :: pieces) (c :: cs)
  | short {letter named : Char} {isEscape : (letter, named) ∈ shortEscapes} {pieces : List Piece}
      {cs : List Char} (others : Names pieces cs) :
      Names (.short letter named isEscape :: pieces) (named :: cs)
  | unit {a b c d : HexDigit} {named : Char} {pieces : List Piece} {cs : List Char}
      (isNumber : unitOf a b c d = named.toNat) (others : Names pieces cs) :
      Names (.unit a b c d :: pieces) (named :: cs)
  | pair {a b c d a' b' c' d' : HexDigit} {named : Char} {pieces : List Piece} {cs : List Char}
      (leading : IsLeading (unitOf a b c d)) (trailing : IsTrailing (unitOf a' b' c' d'))
      (isNumber : (unitOf a b c d - 0xD800) * 0x400 + (unitOf a' b' c' d' - 0xDC00) + 0x10000 =
        named.toNat) (others : Names pieces cs) :
      Names (.unit a b c d :: .unit a' b' c' d' :: pieces) (named :: cs)

/-- The pieces of a text of which nothing is escaped. -/
def plainPieces : (cs : List Char) → (∀ c ∈ cs, c ≠ '"' ∧ c ≠ '\\' ∧ 0x20 ≤ c.toNat) → List Piece
  | [], _ => []
  | c :: cs, h =>
    .plain c (h c List.mem_cons_self) :: plainPieces cs fun d hd => h d (List.mem_cons_of_mem c hd)

theorem names_plainPieces {cs : List Char} : ∀ {h}, Names (plainPieces cs h) cs := by
  induction cs with
  | nil => exact .nil
  | cons c cs ih => exact .plain ih

/-- A text with its quotes. -/
def quoted (pieces : List Piece) : List Char :=
  '"' :: (pieces.flatMap Piece.chars ++ ['"'])

/-! ## Numbers -/

/-- At least one digit. -/
def AreDigits (cs : List Char) : Prop :=
  cs ≠ [] ∧ ∀ c ∈ cs, Text.isDigit c = true

/-- The digits in front of the point: no zero in front of another digit. -/
def IsWholePart (cs : List Char) : Prop :=
  cs = ['0'] ∨ AreDigits cs ∧ cs.head? ≠ some '0'

/-- The point and the digits after it, if there are any. -/
def IsFraction (cs : List Char) : Prop :=
  cs = [] ∨ ∃ digits, cs = '.' :: digits ∧ AreDigits digits

/-- The exponent with its mark, if there is one. -/
def IsExponent (cs : List Char) : Prop :=
  cs = [] ∨ ∃ mark sign digits, cs = mark :: (sign ++ digits) ∧ (mark = 'e' ∨ mark = 'E') ∧
    (sign = [] ∨ sign = ['+'] ∨ sign = ['-']) ∧ AreDigits digits

def IsNumeral (cs : List Char) : Prop :=
  ∃ sign whole fraction exponent, cs = sign ++ (whole ++ (fraction ++ exponent)) ∧
    (sign = [] ∨ sign = ['-']) ∧ IsWholePart whole ∧ IsFraction fraction ∧ IsExponent exponent

/-! ## Values -/

/-- What stands in a text. Which number it is never matters to a document. -/
inductive Tree where
  | null
  | bool (b : Bool)
  | number
  /-- `none` where its escapes name no characters. -/
  | text (s : Option String)
  | list (items : List Tree)
  | object (members : List (Option String × Tree))

/-- What stands for a text that may be missing. -/
def Tree.optional : Option String → Tree
  | none => .null
  | some s => .text (some s)

/-- The text that pieces name, if they name one. -/
inductive IsText : List Piece → Option String → Prop where
  | named {pieces : List Piece} {s : String} (names : Names pieces s.toList) :
      IsText pieces (some s)
  | broken {pieces : List Piece} (noNames : ∀ cs, ¬ Names pieces cs) : IsText pieces none

/-- Parts between brackets, from just inside the opening one (`isFirst`) or from just after a part
on: a comma between two parts, blanks around all of them, and the closing bracket. -/
inductive Inside (closing : Char) : Bool → List (List Char) → List Char → Prop where
  | close {isFirst : Bool} {blanks : List Char} (hblanks : Blank blanks) :
      Inside closing isFirst [] (blanks ++ [closing])
  | first {blanks part cs : List Char} {parts : List (List Char)} (hblanks : Blank blanks)
      (others : Inside closing false parts cs) :
      Inside closing true (part :: parts) (blanks ++ (part ++ cs))
  | next {before after part cs : List Char} {parts : List (List Char)} (hbefore : Blank before)
      (hafter : Blank after) (others : Inside closing false parts cs) :
      Inside closing false (part :: parts) (before ++ ',' :: (after ++ (part ++ cs)))

/-- One member of an object as it is written. -/
structure MemberText where
  pieces : List Piece
  key : Option String
  before : List Char
  after : List Char
  tree : Tree
  value : List Char
  isKey : IsText pieces key
  isBlank : Blank before ∧ Blank after

def MemberText.chars (m : MemberText) : List Char :=
  quoted m.pieces ++ (m.before ++ ':' :: (m.after ++ m.value))

/-- A member with a blank before its value and nothing else that could be left out. -/
def plainMember (key : String) (h : ∀ c ∈ key.toList, c ≠ '"' ∧ c ≠ '\\' ∧ 0x20 ≤ c.toNat)
    (tree : Tree) (value : List Char) : MemberText where
  pieces := plainPieces key.toList h
  key := some key
  before := []
  after := [' ']
  tree := tree
  value := value
  isKey := .named names_plainPieces
  isBlank := ⟨.nil, by simp [Blank, isSpace]⟩

/-- **The texts that the format allows for a value.** -/
inductive Tree.Written : Tree → List Char → Prop where
  | null : Written .null ['n', 'u', 'l', 'l']
  | no : Written (.bool false) ['f', 'a', 'l', 's', 'e']
  | yes : Written (.bool true) ['t', 'r', 'u', 'e']
  | number {cs : List Char} (isNumeral : IsNumeral cs) : Written .number cs
  | text {pieces : List Piece} {s : Option String} (isText : IsText pieces s) :
      Written (.text s) (quoted pieces)
  | list {items : List (Tree × List Char)} {cs : List Char}
      (each : ∀ item ∈ items, Written item.1 item.2)
      (inside : Inside ']' true (items.map (·.2)) cs) :
      Written (.list (items.map (·.1))) ('[' :: cs)
  | object {members : List MemberText} {cs : List Char}
      (each : ∀ m ∈ members, Written m.tree m.value)
      (inside : Inside '}' true (members.map (·.chars)) cs) :
      Written (.object (members.map fun m => (m.key, m.tree))) ('{' :: cs)

/-! ## Where a value begins -/

theorem AreDigits.begins {cs : List Char} (h : AreDigits cs) :
    ∃ c others, cs = c :: others ∧ Text.isDigit c = true := by
  cases cs with
  | nil => exact absurd rfl h.1
  | cons c others => exact ⟨c, others, rfl, h.2 c List.mem_cons_self⟩

theorem IsWholePart.begins {cs : List Char} (h : IsWholePart cs) :
    ∃ c others, cs = c :: others ∧ Text.isDigit c = true := by
  rcases h with rfl | ⟨hdigits, -⟩
  · exact ⟨'0', [], rfl, by decide⟩
  · exact hdigits.begins

theorem IsNumeral.begins {cs : List Char} (h : IsNumeral cs) :
    ∃ c others, cs = c :: others ∧ (c = '-' ∨ Text.isDigit c = true) := by
  obtain ⟨sign, whole, fraction, exponent, rfl, rfl | rfl, hwhole, -, -⟩ := h
  · obtain ⟨c, others, rfl, hc⟩ := hwhole.begins
    exact ⟨c, _, rfl, .inr hc⟩
  · exact ⟨'-', _, rfl, .inl rfl⟩

/-- A number begins with a sign or a digit, and so with nothing else. -/
theorem ne_of_begins {c d : Char} (hc : c = '-' ∨ Text.isDigit c = true)
    (hd : ¬ (d = '-' ∨ Text.isDigit d = true)) : c ≠ d := by
  rintro rfl
  exact hd hc

theorem isSpace_of_begins {c : Char} (hc : c = '-' ∨ Text.isDigit c = true) :
    isSpace c = false := by
  unfold isSpace
  simp [ne_of_begins hc (show ¬ (' ' = '-' ∨ _) by decide),
    ne_of_begins hc (show ¬ ('\t' = '-' ∨ _) by decide),
    ne_of_begins hc (show ¬ ('\n' = '-' ∨ _) by decide),
    ne_of_begins hc (show ¬ ('\r' = '-' ∨ _) by decide)]

/-- The first character says what kind of value it is. -/
def Tree.Opens : Tree → Char → Prop
  | .null, c => c = 'n'
  | .bool false, c => c = 'f'
  | .bool true, c => c = 't'
  | .number, c => c = '-' ∨ Text.isDigit c = true
  | .text _, c => c = '"'
  | .list _, c => c = '['
  | .object _, c => c = '{'

theorem Tree.Written.begins {t : Tree} {cs : List Char} (h : t.Written cs) :
    ∃ c others, cs = c :: others ∧ t.Opens c := by
  cases h with
  | number isNumeral => exact isNumeral.begins
  | null | no | yes | text | list | object => exact ⟨_, _, rfl, rfl⟩

theorem Tree.Opens.isSpace_eq {t : Tree} {c : Char} (h : t.Opens c) : isSpace c = false := by
  cases t with
  | number => exact isSpace_of_begins h
  | bool b => cases b <;> cases h <;> rfl
  | null | text | list | object =>
    cases h
    rfl

/-- These characters begin one kind of value each. -/
theorem Tree.Opens.kind {t : Tree} {c : Char} (h : t.Opens c) :
    (c = 'n' → t = .null) ∧ (c = '[' → ∃ items, t = .list items) ∧
      (c = '{' → ∃ members, t = .object members) := by
  cases t with
  | number =>
    exact ⟨fun hc => absurd hc (ne_of_begins h (by decide)),
      fun hc => absurd hc (ne_of_begins h (by decide)),
      fun hc => absurd hc (ne_of_begins h (by decide))⟩
  | bool b => cases b <;> cases h <;> simp
  | null | text | list | object =>
    cases h
    simp

/-- Where a part begins, its list or object does not end. -/
def StartsPart (closing : Char) (part : List Char) : Prop :=
  ∃ c others, part = c :: others ∧ isSpace c = false ∧ c ≠ closing

theorem Tree.Written.startsPart {t : Tree} {cs : List Char} (h : t.Written cs) :
    StartsPart ']' cs := by
  obtain ⟨c, others, rfl, hc⟩ := h.begins
  refine ⟨c, others, rfl, hc.isSpace_eq, ?_⟩
  cases t with
  | number => exact ne_of_begins hc (by decide)
  | bool b => cases b <;> cases hc <;> decide
  | null | text | list | object =>
    cases hc
    decide

end TriggerFlow.Json
