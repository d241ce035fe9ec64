import Mathlib.Tactic.Choose
import TriggerFlow.Proofs.Json.Grammar

/-!
# What is printed is among what may be written

A printed value is one of the texts that the format allows for its tree. **That holds for every
layout that puts nothing but blanks between the parts**, so what another reader of the format makes
of it does not depend on the layout.
-/

set_option autoImplicit false

namespace TriggerFlow.Json

/-! ## Texts -/

/-- A character is printed as one piece that names it. -/
theorem exists_piece (c : Char) : ∃ piece : Piece, piece.chars = escapeChar c ∧
    ∀ {pieces : List Piece} {cs : List Char}, Names pieces cs →
      Names (piece :: pieces) (c :: cs) := by
  unfold escapeChar
  iterate 7
    split
    · subst c
      exact ⟨.short _ _ (by decide), rfl, .short⟩
  split
  · rename_i hcontrol
    have hhigh : Text.hexValue? (hexDigit (c.toNat / 16)) = some (c.toNat / 16) :=
      Text.hexValue?_digitChar (by omega)
    have hlow : Text.hexValue? (hexDigit (c.toNat % 16)) = some (c.toNat % 16) :=
      Text.hexValue?_digitChar (by omega)
    refine ⟨.unit ⟨'0', 0, rfl⟩ ⟨'0', 0, rfl⟩ ⟨_, _, hhigh⟩ ⟨_, _, hlow⟩, rfl, .unit ?_⟩
    unfold unitOf
    dsimp only
    omega
  · rename_i hquote hbackslash _ _ _ _ _ hcontrol
    exact ⟨.plain c ⟨hquote, hbackslash, by omega⟩, rfl, .plain⟩

theorem exists_pieces (cs : List Char) : ∃ pieces : List Piece,
    pieces.flatMap Piece.chars = cs.flatMap escapeChar ∧ Names pieces cs := by
  induction cs with
  | nil => exact ⟨[], rfl, .nil⟩
  | cons c cs ih =>
    obtain ⟨piece, hpiece, hnames⟩ := exists_piece c
    obtain ⟨pieces, hpieces, hothers⟩ := ih
    exact ⟨piece :: pieces, by rw [List.flatMap_cons, List.flatMap_cons, hpiece, hpieces],
      hnames hothers⟩

theorem exists_isText (s : String) :
    ∃ pieces : List Piece, quoted pieces = textChars s ∧ IsText pieces (some s) := by
  obtain ⟨pieces, hpieces, hnames⟩ := exists_pieces s.toList
  exact ⟨pieces, by rw [quoted, textChars, hpieces], .named hnames⟩

theorem written_text (s : Spacing) (depth : Nat) (t : String) :
    (Tree.text (some t)).Written ((Value.text t).chars s depth) := by
  obtain ⟨pieces, hpieces, isText⟩ := exists_isText t
  rw [Value.chars, ← hpieces]
  exact .text isText

theorem written_optional (s : Spacing) (depth : Nat) (t : Option String) :
    (Tree.optional t).Written ((Value.optional t).chars s depth) := by
  cases t with
  | none => exact .null
  | some t => exact written_text s depth t

/-! ## Lists and objects -/

section Parts

variable {s : Spacing} (hs : s.IsBlank) (depth : Nat)
include hs

theorem inside_itemChars (vs : List Value) {close : List Char} (hclose : Blank close) :
    Inside ']' false (vs.map (·.chars s depth)) (itemChars s depth vs ++ (close ++ [']'])) := by
  induction vs with
  | nil =>
    rw [itemChars]
    exact .close hclose
  | cons v vs ih =>
    have hnext : Inside ']' false ((v :: vs).map (·.chars s depth)) _ :=
      .next .nil (hs.gap depth) ih
    rw [itemChars]
    simpa using hnext

/-- **A list is written if its items are.** -/
theorem written_list {α : Type} {tree : α → Tree} {value : α → Value} {items : List α}
    (each : ∀ a ∈ items, (tree a).Written ((value a).chars s (depth + 1))) :
    (Tree.list (items.map tree)).Written ((Value.list (items.map value)).chars s depth) := by
  obtain ⟨cs, hinside, hchars⟩ : ∃ cs,
      Inside ']' true (items.map fun a => (value a).chars s (depth + 1)) cs ∧
        (Value.list (items.map value)).chars s depth = '[' :: cs := by
    cases items with
    | nil => exact ⟨_, .close .nil, by simp [Value.chars]⟩
    | cons a items =>
      have hothers := inside_itemChars hs (depth + 1) (items.map value) (hs.gap depth)
      rw [List.map_map] at hothers
      exact ⟨_, .first (hs.gap (depth + 1)) hothers, by simp [Value.chars]⟩
  have hlist := @Tree.Written.list (items.map fun a => (tree a, (value a).chars s (depth + 1))) cs
    (List.forall_mem_map.mpr each) (by rwa [List.map_map])
  rw [hchars]
  rwa [List.map_map] at hlist

/-- A member as it is printed. -/
theorem exists_memberText (key : String) (t : Tree) (v : Value) :
    ∃ m : MemberText, m.key = some key ∧ m.tree = t ∧ m.value = v.chars s depth ∧
      m.chars = textChars key ++ s.colon ++ v.chars s depth := by
  obtain ⟨blanks, hcolon, hblanks⟩ := hs.colon
  obtain ⟨pieces, hpieces, isKey⟩ := exists_isText key
  refine ⟨⟨pieces, some key, [], blanks, t, v.chars s depth, isKey, .nil, hblanks⟩,
    rfl, rfl, rfl, ?_⟩
  rw [MemberText.chars, hcolon, ← hpieces]
  simp

theorem inside_memberChars (members : List (String × Value)) {close : List Char}
    (hclose : Blank close) :
    Inside '}' false (members.map fun m => textChars m.1 ++ s.colon ++ m.2.chars s depth)
      (memberChars s depth members ++ (close ++ ['}'])) := by
  induction members with
  | nil =>
    rw [memberChars]
    exact .close hclose
  | cons m members ih =>
    obtain ⟨key, v⟩ := m
    have hnext : Inside '}' false (((key, v) :: members).map fun m =>
      textChars m.1 ++ s.colon ++ m.2.chars s depth) _ := .next .nil (hs.gap depth) ih
    rw [memberChars]
    simpa using hnext

/-- **An object is written if the values of its members are.** -/
theorem written_object {members : List (String × Tree × Value)}
    (each : ∀ m ∈ members, m.2.1.Written (m.2.2.chars s (depth + 1))) :
    (Tree.object (members.map fun m => (some m.1, m.2.1))).Written
      ((Value.object (members.map fun m => (m.1, m.2.2))).chars s depth) := by
  obtain ⟨cs, hinside, hchars⟩ : ∃ cs,
      Inside '}' true
        (members.map fun m => textChars m.1 ++ s.colon ++ m.2.2.chars s (depth + 1)) cs ∧
      (Value.object (members.map fun m => (m.1, m.2.2))).chars s depth = '{' :: cs := by
    cases members with
    | nil => exact ⟨_, .close .nil, by simp [Value.chars]⟩
    | cons m members =>
      have hothers := inside_memberChars hs (depth + 1) (members.map fun m => (m.1, m.2.2))
        (hs.gap depth)
      rw [List.map_map] at hothers
      exact ⟨_, .first (hs.gap (depth + 1)) hothers, by simp [Value.chars]⟩
  choose text hkey htree hvalue htext using fun m : String × Tree × Value =>
    exists_memberText hs (depth + 1) m.1 m.2.1 m.2.2
  have hobject := @Tree.Written.object (members.map text) cs
    (List.forall_mem_map.mpr fun m hm => by rw [htree, hvalue]; exact each m hm)
    (by simpa [Function.comp_def, htext] using hinside)
  rw [hchars]
  simpa [Function.comp_def, hkey, htree] using hobject

end Parts

end TriggerFlow.Json
