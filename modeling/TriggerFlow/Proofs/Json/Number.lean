import TriggerFlow.Proofs.Decimal.Layout
import TriggerFlow.Proofs.Json.Reads

/-!
# Reading a number with a point

The digits on both sides of the point go into one whole number as long as it fits, and the reader
computes with doubles from there on: **the double of the digits, divided by the double of a power of
ten**. What follows a number must not be part of it, so it is read inside another value only.
-/

set_option autoImplicit false

namespace TriggerFlow.Json

open Decimal (Pointed)

/-! ## Digits that fit -/

theorem le_foldl_digits (cs : List Char) :
    ∀ n : Nat, n ≤ cs.foldl (fun n c => n * 10 + Text.digitValue c) n := by
  induction cs with
  | nil =>
    intro n
    exact Nat.le_refl n
  | cons c cs ih =>
    intro n
    have := ih (n * 10 + Text.digitValue c)
    rw [List.foldl_cons]
    omega

/-- Digits that fit in the end fit all the way. -/
theorem absorb_eq (cs : List Char) :
    ∀ n : Nat, cs.foldl (fun n c => n * 10 + Text.digitValue c) n < 2 ^ 64 →
      absorb n cs = (cs.foldl (fun n c => n * 10 + Text.digitValue c) n, []) := by
  induction cs with
  | nil =>
    intro n _
    rfl
  | cons c cs ih =>
    intro n hfits
    have hle := le_foldl_digits cs (n * 10 + Text.digitValue c)
    rw [List.foldl_cons] at hfits ⊢
    unfold absorb
    dsimp only
    rw [if_pos (by rw [Nat.shiftLeft_eq]; omega)]
    exact ih _ hfits

theorem decimalValue_append (cs ds : List Char) :
    Text.decimalValue (cs ++ ds) =
      ds.foldl (fun n c => n * 10 + Text.digitValue c) (Text.decimalValue cs) :=
  List.foldl_append ..

theorem absorb_append {cs ds : List Char} (h : Text.decimalValue (cs ++ ds) < 2 ^ 64) :
    absorb 0 cs = (Text.decimalValue cs, []) ∧
      absorb (Text.decimalValue cs) ds = (Text.decimalValue (cs ++ ds), []) := by
  rw [decimalValue_append] at h ⊢
  exact ⟨absorb_eq cs 0 ((le_foldl_digits ds _).trans_lt h), absorb_eq ds _ h⟩

/-! ## Where the digits end -/

/-- What can stand after a value is no part of a number. -/
theorem Follows.ends {rest : List Char} (h : Follows rest) {c : Char} (hc : c ∈ rest.head?) :
    Text.isDigit c = false ∧ ¬ (c = 'e' ∨ c = 'E') := by
  rcases h c hc with rfl | rfl | rfl | hspace
  · decide
  · decide
  · decide
  · simp only [isSpace, Bool.or_eq_true, decide_eq_true_eq] at hspace
    rcases hspace with ((rfl | rfl) | rfl) | rfl <;> decide

theorem finish_of_follows {rest : List Char} (h : Follows rest) (significand : Nat)
    (exponent : Int) :
    finish false significand exponent rest =
      (toDouble false significand exponent).map (·, rest) := by
  cases rest with
  | nil => rfl
  | cons c rest =>
    have hc := (h.ends (c := c) rfl).2
    unfold finish
    dsimp only
    rw [if_neg hc]

/-! ## The number -/

section

variable {text whole fraction rest : List Char}

theorem readFraction_of_digits (hdigits : ∀ c ∈ fraction, Text.isDigit c = true)
    (hne : fraction ≠ []) (hrest : Follows rest) {n significand : Nat}
    (habsorb : absorb n fraction = (significand, [])) :
    readFraction false n 0 (fraction ++ rest) =
      (toDouble false significand (-fraction.length)).map (·, rest) := by
  obtain ⟨htake, hdrop⟩ := Text.span_append hdigits fun c hc => (hrest.ends hc).1
  unfold readFraction
  dsimp only
  rw [htake, hdrop, habsorb]
  cases fraction with
  | nil => exact absurd rfl hne
  | cons c cs =>
    dsimp only
    rw [finish_of_follows hrest]
    simp

theorem readUnsigned_of_point (hisWhole : isWhole whole = true)
    (hdigits : ∀ c ∈ whole, Text.isDigit c = true) {significand : Nat}
    (habsorb : absorb 0 whole = (significand, [])) :
    readUnsigned false (whole ++ '.' :: rest) = readFraction false significand 0 rest := by
  have hpoint : ∀ c ∈ ('.' :: rest).head?, Text.isDigit c = false := by
    intro c hc
    obtain rfl := Option.some.inj hc
    decide
  obtain ⟨htake, hdrop⟩ := Text.span_append hdigits hpoint
  have hne : whole ≠ [] := by
    rintro rfl
    cases hisWhole
  unfold readUnsigned
  dsimp only
  rw [htake, hdrop, if_neg hne, if_neg (not_not.mpr hisWhole), habsorb]
  rfl

/-- A number is read from its first digit on. -/
theorem readDouble_of_digit {blanks cs : List Char} (hblanks : Blank blanks) {c : Char}
    (hdigit : Text.isDigit c = true) :
    readDouble (blanks ++ c :: cs) =
      (readUnsigned false (c :: cs)).map fun (n, rest) => (n.toFloat, rest) := by
  have hspace : isSpace c = false := by
    by_contra hblank
    rw [Bool.not_eq_false] at hblank
    simp only [isSpace, Bool.or_eq_true, decide_eq_true_eq] at hblank
    rcases hblank with ((rfl | rfl) | rfl) | rfl <;> exact absurd hdigit (by decide)
  have hnumber : readNumber (c :: cs) = readUnsigned false (c :: cs) := by
    unfold readNumber
    split
    · rename_i hminus
      obtain rfl := (List.cons.inj hminus).1
      exact absurd hdigit (by decide)
    · rfl
  unfold readDouble
  rw [skipSpace_blanks hblanks hspace]
  dsimp only
  rw [if_pos (.inr hdigit), hnumber]

theorem toDouble_of_places {places : Nat} (hpos : 0 < places) (hmost : places ≤ 308)
    (significand : Nat) :
    toDouble false significand (-places) =
      .ok (.real (ofSignificand significand / Float.ofScientific 1 false places)) := by
  have hneg : ¬ (0 : Int) ≤ -(places : Int) := by omega
  have habs : (-(places : Int)).natAbs = places := by omega
  unfold toDouble scale
  rw [habs, if_pos hmost, if_neg hneg]
  rfl

/-- **A number with a point is the double of its digits divided by that of a power of ten.** -/
theorem readsInside_pointed (h : Pointed text whole fraction)
    (hfits : Text.decimalValue (whole ++ fraction) < 2 ^ 64) (hplaces : fraction.length ≤ 308) :
    ReadsInside readDouble text
      (ofSignificand (Text.decimalValue (whole ++ fraction)) /
        Float.ofScientific 1 false fraction.length) := by
  intro blanks rest hblanks hrest
  obtain ⟨hwhole, hfraction⟩ := absorb_append hfits
  have hunsigned : readUnsigned false (whole ++ '.' :: (fraction ++ rest)) = _ :=
    readUnsigned_of_point h.isWhole h.before hwhole
  have hpos : 0 < fraction.length := List.length_pos_iff.mpr h.ne_nil
  rw [readFraction_of_digits h.after h.ne_nil hrest hfraction,
    toDouble_of_places hpos hplaces] at hunsigned
  rw [h.eq, List.append_assoc, List.cons_append]
  cases hw : whole with
  | nil =>
    have hsome := h.isWhole
    rw [hw] at hsome
    cases hsome
  | cons c cs =>
    rw [hw] at hunsigned
    have hdigit : Text.isDigit c = true := h.before c (by rw [hw]; exact List.mem_cons_self)
    rw [List.cons_append, readDouble_of_digit hblanks hdigit, ← List.cons_append, hunsigned]
    rfl

end

end TriggerFlow.Json
