import TriggerFlow.Proofs.Json.Reads
import TriggerFlow.Storage.Codec

/-!
# Entries come back as they were saved

Reading sets one member after the other. Writing gives the members in the order of their keys, so
each of them goes behind those before it, and **what is read is what was written, key by key**: an
empty key, a control character or a quote among them makes no difference.
-/

set_option autoImplicit false

namespace TriggerFlow.Entries

theorem insertPair_of_lt {key : String} (value : String) {pairs : List (String × String)}
    (h : ∀ p ∈ pairs, p.1 < key) : insertPair key value pairs = pairs ++ [(key, value)] := by
  induction pairs with
  | nil => rfl
  | cons p pairs ih =>
    have hp : p.1 < key := h p List.mem_cons_self
    have hnot : ¬ key < p.1 := String.lt_asymm hp
    have hne : key ≠ p.1 := by
      rintro rfl
      exact String.lt_irrefl _ hp
    rw [insertPair, if_neg hnot, if_neg hne, ih fun q hq => h q (List.mem_cons_of_mem p hq)]
    rfl

/-- Setting sorted pairs behind those that are there puts them there as they stand. -/
theorem pairs_foldl_insert {pairs : List (String × String)} :
    ∀ {e : Entries}, IsSorted (e.pairs ++ pairs) →
      (pairs.foldl (fun e p => e.insert p.1 p.2) e).pairs = e.pairs ++ pairs := by
  induction pairs with
  | nil =>
    intro e _
    rw [List.foldl_nil, List.append_nil]
  | cons p pairs ih =>
    intro e h
    have hbefore : ∀ q ∈ e.pairs, q.1 < p.1 := fun q hq =>
      (List.pairwise_append.mp h).2.2 q hq p List.mem_cons_self
    have hone : (e.insert p.1 p.2).pairs = e.pairs ++ [p] := insertPair_of_lt p.2 hbefore
    have hsorted : IsSorted ((e.insert p.1 p.2).pairs ++ pairs) := by
      rwa [hone, List.append_assoc, List.singleton_append]
    rw [List.foldl_cons, ih hsorted, hone, List.append_assoc, List.singleton_append]

theorem ext {e f : Entries} (h : e.pairs = f.pairs) : e = f := by
  cases e
  cases f
  cases h
  rfl

theorem ofList_pairs (e : Entries) : ofList e.pairs = e :=
  ext (pairs_foldl_insert (e := empty) e.isSorted)

open Json

variable {s : Spacing} {depth : Nat}

theorem memberRound_of_key (hs : s.IsBlank) {isFirst : Bool} {e : Entries} {key value : String}
    {left rest : List Char}
    (hkey : nextKey isFirst left = .ok (some (key, s.colon ++ (textChars value ++ rest)))) :
    memberRound (isFirst, e) left = .ok (.more (false, e.insert key value), rest) := by
  obtain ⟨blanks, hblanks, -, hcolon⟩ := readColon_colon hs (textChars value ++ rest)
  have hvalue := reads_string value blanks rest hblanks
  unfold memberRound
  dsimp only
  rw [hkey]
  dsimp only
  rw [hcolon]
  show (readString (blanks ++ (textChars value ++ rest)) >>= _) = _
  rw [hvalue]
  rfl

theorem memberRound_end {close : List Char} (hclose : Blank close) (isFirst : Bool) (e : Entries)
    (rest : List Char) :
    memberRound (isFirst, e) (close ++ '}' :: rest) = .ok (.done e, rest) := by
  unfold memberRound
  dsimp only
  rw [nextKey_end hclose]
  dsimp only
  rw [closeObject_end hclose]
  rfl

def members (pairs : List (String × String)) : List (String × Value) :=
  pairs.map fun p => (p.1, .text p.2)

theorem rounds_members (hs : s.IsBlank) {close : List Char} (hclose : Blank close)
    (rest : List Char) (pairs : List (String × String)) :
    ∀ e : Entries, Text.Rounds memberRound (false, e)
      (memberChars s depth (members pairs) ++ (close ++ '}' :: rest))
      (pairs.foldl (fun e p => e.insert p.1 p.2) e) rest := by
  induction pairs with
  | nil =>
    intro e
    exact .done (memberRound_end hclose false e rest)
  | cons p pairs ih =>
    intro e
    rw [members, List.map_cons, memberChars]
    simp only [Value.chars, List.cons_append, List.append_assoc]
    refine .more (memberRound_of_key hs (nextKey_later (hs.gap depth) p.1 _)) ?_
      (ih (e.insert p.1 p.2))
    simp only [List.length_cons, List.length_append]
    omega

/-- In any layout with nothing but blanks between the parts, entries are read as written. -/
theorem reads_entries (hs : s.IsBlank) (e : Entries) : Reads read (e.toJson.chars s depth) e := by
  intro blanks rest hblanks
  have hall : e.pairs.foldl (fun e p => e.insert p.1 p.2) empty = e := ofList_pairs e
  unfold read toJson
  cases hpairs : e.pairs with
  | nil =>
    rw [hpairs] at hall
    have hrounds : Text.Rounds memberRound (true, .empty) ('}' :: rest) e rest := by
      rw [← hall]
      exact .done (memberRound_end .nil true .empty rest)
    simp only [List.map_nil, Value.chars, List.cons_append, List.nil_append]
    rw [skipSpace_blanks hblanks (by decide)]
    exact hrounds.loop _
  | cons p pairs =>
    rw [hpairs] at hall
    have hrounds : Text.Rounds memberRound (true, .empty)
        (s.gap (depth + 1) ++ (textChars p.1 ++ (s.colon ++ (textChars p.2 ++
          (memberChars s (depth + 1) (members pairs) ++ (s.gap depth ++ '}' :: rest)))))) e
        rest := by
      rw [← hall]
      refine .more (memberRound_of_key hs (nextKey_first (hs.gap (depth + 1)) p.1 _)) ?_
        (rounds_members hs (hs.gap depth) rest pairs _)
      simp only [List.length_append, textChars, List.length_cons]
      omega
    simp only [List.map_cons, Value.chars, List.append_assoc, List.cons_append, List.nil_append]
    rw [skipSpace_blanks hblanks (by decide)]
    exact hrounds.loop _

/-- **What a store saves is what it reads back.** -/
theorem parse_render (e : Entries) : parse e.render = .ok e :=
  (reads_entries isBlank_indented e).readAll

end TriggerFlow.Entries
