import Mathlib.Data.List.DropRight
import TriggerFlow.Proofs.Text.Loops
import TriggerFlow.Text.Blank

/-!
# What is left of a text

Blanks are cut from one end, then from the other, each time up to the first character that stays.
**What is left is the one part of a text that has nothing but blanks around it and none at its
ends.** So cutting it again changes nothing, and neither do blanks that are put around it. Which
characters are blanks is said here by naming them, one by one.
-/

set_option autoImplicit false

namespace TriggerFlow.Text

/-- The characters with the property `White_Space`, in the order of their numbers. -/
def whiteSpace : List Char :=
  ['\t', '\n', '\x0b', '\x0c', '\r', ' ', '\u0085', '\u00a0', '\u1680', '\u2000', '\u2001',
    '\u2002', '\u2003', '\u2004', '\u2005', '\u2006', '\u2007', '\u2008', '\u2009', '\u200a',
    '\u2028', '\u2029', '\u202f', '\u205f', '\u3000']

theorem isBlank_iff {c : Char} : isBlank c = true ↔ c ∈ whiteSpace := by
  simp only [isBlank, whiteSpace, Bool.or_eq_true, Bool.and_eq_true, decide_eq_true_eq,
    List.mem_cons, List.not_mem_nil, or_false, ← Char.toNat_inj, Char.reduceToNat]
  omega

theorem isBlank_eq_false_iff {c : Char} : isBlank c = false ↔ c ∉ whiteSpace := by
  rw [← isBlank_iff, Bool.not_eq_true]

/-! ## Characters -/

/-- A part that begins and ends with characters that stay is what is left of it, whatever blanks
there are around it. -/
theorem trimList_around {before core after : List Char} (hbefore : ∀ c ∈ before, isBlank c = true)
    (hafter : ∀ c ∈ after, isBlank c = true) (hhead : ∀ c ∈ core.head?, isBlank c = false)
    (hlast : ∀ c ∈ core.getLast?, isBlank c = false) :
    trimList (before ++ core ++ after) = core := by
  unfold trimList
  cases core with
  | nil =>
    -- With nothing in between, the first cut takes everything.
    rw [List.append_nil, List.dropWhile_append_of_pos hbefore, List.dropWhile_eq_nil_iff.mpr hafter]
    rfl
  | cons c cs =>
    have hfront : ∀ x ∈ (c :: cs ++ after).head?, isBlank x = false := hhead
    have hback : ∀ x ∈ (c :: cs).reverse.head?, isBlank x = false := by
      rwa [List.head?_reverse]
    have hreversed : ∀ x ∈ after.reverse, isBlank x = true := by
      simpa only [List.mem_reverse] using hafter
    rw [List.append_assoc, (span_append hbefore hfront).2, List.reverse_append,
      (span_append hreversed hback).2, List.reverse_reverse]

theorem head?_dropWhile_isBlank (cs : List Char) :
    ∀ c ∈ (cs.dropWhile isBlank).head?, isBlank c = false := by
  intro c hc
  have hstays := List.head?_dropWhile_not isBlank cs
  rw [Option.mem_def.mp hc] at hstays
  exact hstays

theorem trimList_leaves (cs : List Char) :
    ∃ before after, cs = before ++ trimList cs ++ after ∧ (∀ c ∈ before, isBlank c = true) ∧
      (∀ c ∈ after, isBlank c = true) ∧ (∀ c ∈ (trimList cs).head?, isBlank c = false) ∧
      ∀ c ∈ (trimList cs).getLast?, isBlank c = false := by
  have hboth : trimList cs = (cs.dropWhile isBlank).rdropWhile isBlank := rfl
  refine ⟨cs.takeWhile isBlank, (cs.dropWhile isBlank).rtakeWhile isBlank, ?_,
    fun c hc => List.mem_takeWhile_imp hc, fun c hc => List.mem_rtakeWhile_imp hc, ?_, ?_⟩
  · rw [hboth, List.append_assoc, List.rdropWhile_append_rtakeWhile,
      List.takeWhile_append_dropWhile]
  · -- The second cut leaves the beginning as it was, if it leaves anything.
    intro c hc
    obtain ⟨rest, hrest⟩ := List.rdropWhile_prefix isBlank (cs.dropWhile isBlank)
    refine head?_dropWhile_isBlank cs c ?_
    rw [← hrest, ← hboth, List.head?_append, Option.mem_def.mp hc]
    rfl
  · intro c hc
    rw [trimList, List.getLast?_reverse] at hc
    exact head?_dropWhile_isBlank _ c hc

/-! ## Texts -/

/-- Nothing but blanks. -/
def IsBlankText (s : String) : Prop :=
  ∀ c ∈ s.toList, c ∈ whiteSpace

/-- Neither begins nor ends with a blank. -/
structure IsTrimmed (s : String) : Prop where
  head : ∀ c ∈ s.toList.head?, c ∉ whiteSpace
  last : ∀ c ∈ s.toList.getLast?, c ∉ whiteSpace

theorem all_isBlank_iff {s : String} : s.toList.all isBlank = true ↔ IsBlankText s := by
  simp only [List.all_eq_true, isBlank_iff, IsBlankText]

theorem ends_isBlank_iff {s : String} :
    (s.toList.head?.all (!isBlank ·) && s.toList.getLast?.all (!isBlank ·)) = true ↔
      IsTrimmed s := by
  simp only [Bool.and_eq_true, Option.all_eq_true, Bool.not_eq_true', isBlank_eq_false_iff]
  exact ⟨fun h => ⟨h.1, h.2⟩, fun h => ⟨h.head, h.last⟩⟩

-- Decided on the characters of a text, since otherwise every character there is would be asked.
instance (s : String) : Decidable (IsBlankText s) :=
  decidable_of_iff _ all_isBlank_iff

instance (s : String) : Decidable (IsTrimmed s) :=
  decidable_of_iff _ ends_isBlank_iff

/-- Blanks at both ends are cut, and nothing else is. -/
def TrimsTo (whole core : String) : Prop :=
  ∃ before after, whole = before ++ core ++ after ∧ IsBlankText before ∧ IsBlankText after ∧
    IsTrimmed core

theorem trimsTo_trim (s : String) : TrimsTo s (trim s) := by
  obtain ⟨before, after, hs, hbefore, hafter, hhead, hlast⟩ := trimList_leaves s.toList
  refine ⟨String.ofList before, String.ofList after, ?_, ?_, ?_, ?_, ?_⟩
  · rw [trim, ← String.ofList_append, ← String.ofList_append, ← hs, String.ofList_toList]
  · intro c hc
    rw [String.toList_ofList] at hc
    exact isBlank_iff.mp (hbefore c hc)
  · intro c hc
    rw [String.toList_ofList] at hc
    exact isBlank_iff.mp (hafter c hc)
  · intro c hc
    rw [trim, String.toList_ofList] at hc
    exact isBlank_eq_false_iff.mp (hhead c hc)
  · intro c hc
    rw [trim, String.toList_ofList] at hc
    exact isBlank_eq_false_iff.mp (hlast c hc)

theorem TrimsTo.trim_eq {whole core : String} (h : TrimsTo whole core) : trim whole = core := by
  obtain ⟨before, after, rfl, hbefore, hafter, hhead, hlast⟩ := h
  rw [trim, String.toList_append, String.toList_append, trimList_around, String.ofList_toList]
  · exact fun c hc => isBlank_iff.mpr (hbefore c hc)
  · exact fun c hc => isBlank_iff.mpr (hafter c hc)
  · exact fun c hc => isBlank_eq_false_iff.mpr (hhead c hc)
  · exact fun c hc => isBlank_eq_false_iff.mpr (hlast c hc)

/-- **Trimming gives the one part that has only blanks around it and none at its ends.** -/
theorem trim_eq_iff {whole core : String} : trim whole = core ↔ TrimsTo whole core := by
  constructor
  · rintro rfl
    exact trimsTo_trim whole
  · exact TrimsTo.trim_eq

theorem IsTrimmed.trim_eq {s : String} (h : IsTrimmed s) : trim s = s :=
  TrimsTo.trim_eq ⟨"", "", by simp, by decide, by decide, h⟩

/-- Nothing is left exactly of a text that is all blanks. -/
theorem trim_eq_empty_iff {s : String} : trim s = "" ↔ s.toList.all isBlank = true := by
  rw [trim_eq_iff, all_isBlank_iff]
  constructor
  · rintro ⟨before, after, rfl, hbefore, hafter, -⟩ c hc
    rw [String.append_empty, String.toList_append, List.mem_append] at hc
    exact hc.elim (hbefore c) (hafter c)
  · intro h
    exact ⟨s, "", by simp, h, by decide, by decide⟩

end TriggerFlow.Text
