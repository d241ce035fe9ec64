import TriggerFlow.Json.Printer
import TriggerFlow.Json.Record
import TriggerFlow.Proofs.Json.Text
import TriggerFlow.Proofs.Text.Loops

/-!
# Reading what was written

A reader `Reads` a value from some characters if it takes just these off the front of a text,
whatever blanks stand before them and whatever follows. That is the form in which round trips go
together: a list is read if its items are, a record if its fields are. **The layout does not
matter**, as long as nothing but blanks stands between the parts of a value.

Lists and records are loops, and they are followed round by round (`Text.Rounds`).
-/

set_option autoImplicit false

namespace TriggerFlow

namespace Json

/-! ## Blanks -/

def Blank (cs : List Char) : Prop :=
  ∀ c ∈ cs, isSpace c = true

theorem Blank.nil : Blank [] := by
  intro c hc
  cases hc

theorem skipSpace_append {blanks : List Char} (h : Blank blanks) (cs : List Char) :
    skipSpace (blanks ++ cs) = skipSpace cs := by
  induction blanks with
  | nil => rfl
  | cons b blanks ih =>
    have hb : isSpace b = true := h b List.mem_cons_self
    have hrest : Blank blanks := fun c hc => h c (List.mem_cons_of_mem b hc)
    rw [List.cons_append, skipSpace, List.dropWhile_cons_of_pos hb]
    exact ih hrest

theorem skipSpace_cons {c : Char} (h : isSpace c = false) (cs : List Char) :
    skipSpace (c :: cs) = c :: cs := by
  rw [skipSpace, List.dropWhile_cons_of_neg (by rw [h]; simp)]

/-- Blanks before a character that is none. -/
theorem skipSpace_blanks {blanks : List Char} (h : Blank blanks) {c : Char}
    (hc : isSpace c = false) (cs : List Char) : skipSpace (blanks ++ c :: cs) = c :: cs := by
  rw [skipSpace_append h, skipSpace_cons hc]

/-- A layout that puts nothing but blanks between the parts of a value. -/
structure Spacing.IsBlank (s : Spacing) : Prop where
  gap : ∀ depth, Blank (s.gap depth)
  colon : ∃ blanks, s.colon = ':' :: blanks ∧ Blank blanks

theorem isBlank_indented : indented.IsBlank where
  gap := by
    intro depth c hc
    rcases List.mem_cons.mp hc with rfl | hc
    · decide
    · rw [List.eq_of_mem_replicate hc]
      decide
  colon := by
    refine ⟨[' '], rfl, fun c hc => ?_⟩
    obtain rfl := List.mem_singleton.mp hc
    decide

theorem isBlank_compact : compact.IsBlank where
  gap := by
    intro depth
    exact .nil
  colon := ⟨[], rfl, .nil⟩

/-! ## Values -/

/-- The reader takes these characters for this value, and leaves what follows. -/
def Reads {α : Type} (reader : Reader α) (cs : List Char) (a : α) : Prop :=
  ∀ blanks rest, Blank blanks → reader (blanks ++ (cs ++ rest)) = .ok (a, rest)

variable {α σ : Type}

theorem Reads.map {β : Type} {reader : Reader α} {cs : List Char} {a : α}
    (h : Reads reader cs a) (f : α → β) :
    Reads (fun cs => (reader cs).map fun (a, rest) => (f a, rest)) cs (f a) := by
  intro blanks rest hblanks
  dsimp only
  rw [h blanks rest hblanks]
  rfl

/-- What can stand after a value that is inside another one. -/
def Follows (rest : List Char) : Prop :=
  ∀ c ∈ rest.head?, c = ',' ∨ c = ']' ∨ c = '}' ∨ isSpace c = true

/-- The reader takes these characters for this value inside another one. A number needs this: where
it ends is told only by what follows. -/
def ReadsInside {α : Type} (reader : Reader α) (cs : List Char) (a : α) : Prop :=
  ∀ blanks rest, Blank blanks → Follows rest → reader (blanks ++ (cs ++ rest)) = .ok (a, rest)

theorem Reads.inside {reader : Reader α} {cs : List Char} {a : α} (h : Reads reader cs a) :
    ReadsInside reader cs a :=
  fun blanks rest hblanks _ => h blanks rest hblanks

theorem ReadsInside.map {β : Type} {reader : Reader α} {cs : List Char} {a : α}
    (h : ReadsInside reader cs a) (f : α → β) :
    ReadsInside (fun cs => (reader cs).map fun (a, rest) => (f a, rest)) cs (f a) := by
  intro blanks rest hblanks hrest
  dsimp only
  rw [h blanks rest hblanks hrest]
  rfl

/-- A text that was written as a whole is read as a whole. -/
theorem Reads.readAll {reader : Reader α} {cs : List Char} {a : α} (h : Reads reader cs a) :
    Json.readAll reader (String.ofList cs) = .ok a := by
  have hread := h [] [] .nil
  rw [List.nil_append, List.append_nil] at hread
  unfold Json.readAll
  rw [String.toList_ofList, hread]
  rfl

theorem reads_string (s : String) : Reads readString (textChars s) s := by
  intro blanks rest hblanks
  have htext := readText_textChars s rest
  unfold readString readTextAs
  rw [show textChars s = '"' :: (textChars s).tail from rfl, List.cons_append,
    skipSpace_blanks hblanks (by decide)]
  exact htext

theorem reads_optional (s : Spacing) (depth : Nat) (text : Option String) :
    Reads readOptionalString ((Value.optional text).chars s depth) text := by
  intro blanks rest hblanks
  cases text with
  | none =>
    show readOptionalString (blanks ++ 'n' :: ('u' :: 'l' :: 'l' :: rest)) = _
    unfold readOptionalString
    rw [skipSpace_blanks hblanks (by decide)]
    rfl
  | some t =>
    have hread := reads_string t [] rest .nil
    rw [List.nil_append] at hread
    have hquote : textChars t ++ rest = '"' :: ((textChars t).tail ++ rest) := rfl
    show readOptionalString (blanks ++ (textChars t ++ rest)) = _
    unfold readOptionalString
    rw [hquote] at hread ⊢
    rw [skipSpace_blanks hblanks (by decide)]
    show (readString _).map _ = _
    rw [hread]
    rfl

theorem reads_bool (s : Spacing) (depth : Nat) (b : Bool) :
    Reads readBool ((Value.bool b).chars s depth) b := by
  intro blanks rest hblanks
  cases b with
  | false =>
    show readBool (blanks ++ 'f' :: ('a' :: 'l' :: 's' :: 'e' :: rest)) = _
    unfold readBool
    rw [skipSpace_blanks hblanks (by decide)]
    rfl
  | true =>
    show readBool (blanks ++ 't' :: ('r' :: 'u' :: 'e' :: rest)) = _
    unfold readBool
    rw [skipSpace_blanks hblanks (by decide)]
    rfl

/-! ## Lists -/

theorem nextItem_end {blanks : List Char} (h : Blank blanks) (isFirst : Bool) (rest : List Char) :
    nextItem isFirst (blanks ++ ']' :: rest) = .ok none := by
  unfold nextItem
  rw [skipSpace_blanks h (by decide)]
  rfl

theorem closeList_end {blanks : List Char} (h : Blank blanks) (rest : List Char) :
    closeList (blanks ++ ']' :: rest) = .ok rest := by
  unfold closeList
  rw [skipSpace_blanks h (by decide)]
  rfl

/-- Characters that an item of a list can begin with. -/
def Opens (cs : List Char) : Prop :=
  ∃ c rest, cs = c :: rest ∧ isSpace c = false ∧ c ≠ ']'

theorem nextItem_first {blanks cs : List Char} (h : Blank blanks) (hcs : Opens cs)
    (rest : List Char) : nextItem true (blanks ++ (cs ++ rest)) = .ok (some (cs ++ rest)) := by
  obtain ⟨c, tail, rfl, hspace, hclose⟩ := hcs
  unfold nextItem
  rw [List.cons_append, skipSpace_blanks h hspace]
  simp

theorem nextItem_later {blanks cs : List Char} (h : Blank blanks) (hcs : Opens cs)
    (rest : List Char) :
    nextItem false (',' :: (blanks ++ (cs ++ rest))) = .ok (some (cs ++ rest)) := by
  obtain ⟨c, tail, rfl, hspace, hclose⟩ := hcs
  unfold nextItem
  rw [skipSpace_cons (by decide), List.cons_append]
  simp [skipSpace_blanks h hspace, hclose]

section Lists

variable {reader : Reader α} {s : Spacing} {depth : Nat} {write : α → Value}

/-- One item, read where it was found. -/
theorem itemRound_of_reads {cs rest left : List Char} {a : α} {done : List α}
    (hnext : nextItem done.isEmpty left = .ok (some (cs ++ rest))) (hread : Reads reader cs a) :
    itemRound reader done left = .ok (.more (a :: done), rest) := by
  have hitem := hread [] rest .nil
  rw [List.nil_append] at hitem
  unfold itemRound
  rw [hnext]
  dsimp only
  rw [hitem]
  rfl

theorem rounds_items (hs : s.IsBlank) {close : List Char} (hclose : Blank close)
    {items : List α}
    (hitems : ∀ a ∈ items,
      Reads reader ((write a).chars s depth) a ∧ Opens ((write a).chars s depth))
    (rest : List Char) :
    ∀ done : List α, done ≠ [] →
      Text.Rounds (itemRound reader) done
        (itemChars s depth (items.map write) ++ (close ++ ']' :: rest)) (done.reverse ++ items)
        rest := by
  induction items with
  | nil =>
    intro done hdone
    refine .done ?_
    rw [List.map_nil, itemChars, List.nil_append]
    unfold itemRound
    rw [nextItem_end hclose]
    dsimp only
    rw [closeList_end hclose, List.append_nil]
    rfl
  | cons a items ih =>
    intro done hdone
    obtain ⟨hread, hopens⟩ := hitems a List.mem_cons_self
    have hmore := ih (fun b hb => hitems b (List.mem_cons_of_mem a hb)) (a :: done)
      (List.cons_ne_nil a done)
    rw [List.reverse_cons, List.append_assoc, List.singleton_append] at hmore
    have hfirst : done.isEmpty = false := by
      cases done with
      | nil => exact absurd rfl hdone
      | cons => rfl
    rw [List.map_cons, itemChars, List.cons_append, List.append_assoc, List.append_assoc]
    refine .more (itemRound_of_reads ?_ hread) ?_ hmore
    · rw [hfirst]
      exact nextItem_later (hs.gap depth) hopens _
    · simp only [List.length_cons, List.length_append]
      omega

/-- **A list is read if its items are.** -/
theorem reads_list (hs : s.IsBlank) {items : List α}
    (hitems : ∀ a ∈ items,
      Reads reader ((write a).chars s (depth + 1)) a ∧ Opens ((write a).chars s (depth + 1))) :
    Reads (readList reader) ((Value.list (items.map write)).chars s depth) items := by
  intro blanks rest hblanks
  cases items with
  | nil =>
    have hrounds : Text.Rounds (itemRound reader) [] (']' :: rest) [] rest := by
      refine .done ?_
      have hend := nextItem_end .nil ([] : List α).isEmpty rest
      have hclose := closeList_end .nil rest
      rw [List.nil_append] at hend hclose
      unfold itemRound
      rw [hend]
      dsimp only
      rw [hclose]
      rfl
    show readList reader (blanks ++ '[' :: (']' :: rest)) = _
    unfold readList
    rw [skipSpace_blanks hblanks (by decide)]
    exact hrounds.loop _
  | cons a items =>
    obtain ⟨hread, hopens⟩ := hitems a List.mem_cons_self
    have hmore := rounds_items hs (hs.gap depth)
      (fun b hb => hitems b (List.mem_cons_of_mem a hb)) rest [a] (List.cons_ne_nil a [])
    have hrounds : Text.Rounds (itemRound reader) []
        (s.gap (depth + 1) ++ ((write a).chars s (depth + 1) ++
          (itemChars s (depth + 1) (items.map write) ++ (s.gap depth ++ ']' :: rest))))
        (a :: items) rest := by
      refine .more (itemRound_of_reads (nextItem_first (hs.gap (depth + 1)) hopens _) hread) ?_
        hmore
      obtain ⟨c, tail, heq, -, -⟩ := hopens
      rw [heq]
      simp only [List.length_append, List.length_cons]
      omega
    unfold readList
    simp only [List.map_cons, Value.chars, List.append_assoc, List.cons_append, List.nil_append]
    rw [skipSpace_blanks hblanks (by decide)]
    exact hrounds.loop _

end Lists

/-! ## Members -/

theorem nextKey_end {blanks : List Char} (h : Blank blanks) (isFirst : Bool) (rest : List Char) :
    nextKey isFirst (blanks ++ '}' :: rest) = .ok none := by
  unfold nextKey
  rw [skipSpace_blanks h (by decide)]
  rfl

theorem closeObject_end {blanks : List Char} (h : Blank blanks) (rest : List Char) :
    closeObject (blanks ++ '}' :: rest) = .ok rest := by
  unfold closeObject
  rw [skipSpace_blanks h (by decide)]
  rfl

theorem nextKey_first {blanks : List Char} (h : Blank blanks) (key : String) (rest : List Char) :
    nextKey true (blanks ++ (textChars key ++ rest)) = .ok (some (key, rest)) := by
  have htext := readText_textChars key rest
  unfold nextKey
  rw [show textChars key ++ rest = '"' :: ((textChars key).tail ++ rest) from rfl,
    skipSpace_blanks h (by decide)]
  show (readText _).map some = _
  rw [htext]
  rfl

theorem nextKey_later {blanks : List Char} (h : Blank blanks) (key : String) (rest : List Char) :
    nextKey false (',' :: (blanks ++ (textChars key ++ rest))) = .ok (some (key, rest)) := by
  have htext := readText_textChars key rest
  have hquote : textChars key ++ rest = '"' :: ((textChars key).tail ++ rest) := rfl
  have hskip := skipSpace_blanks h (show isSpace '"' = false by decide)
    ((textChars key).tail ++ rest)
  unfold nextKey
  rw [skipSpace_cons (by decide), hquote]
  simp [hskip, htext, Except.map]

theorem readColon_colon {s : Spacing} (hs : s.IsBlank) (rest : List Char) :
    ∃ blanks, Blank blanks ∧ s.colon.length = blanks.length + 1 ∧
      readColon (s.colon ++ rest) = .ok (blanks ++ rest) := by
  obtain ⟨blanks, heq, hblanks⟩ := hs.colon
  refine ⟨blanks, hblanks, by rw [heq, List.length_cons], ?_⟩
  unfold readColon
  rw [heq, List.cons_append, skipSpace_cons (by decide)]
  rfl

/-! ## Records -/

namespace Record

variable {r : Record σ} {s : Spacing} {depth : Nat}

/-- Members fill a record, one after the other, if each of them belongs to a field that is not set
and has a value that the field can read, and if nothing is missing in the end. -/
inductive Fills (r : Record σ) (s : Spacing) (depth : Nat) :
    σ → List (String × Value) → σ → Prop where
  | complete {state : σ} (whole : r.missing? state = none) : Fills r s depth state [] state
  | member {state next final : σ} {key : String} {v : Value} {members : List (String × Value)}
      {field : Field σ} (belongs : r.fields.find? (·.key = key) = some field)
      (unset : field.isSet state = false)
      (reads : ReadsInside (field.read state) (v.chars s depth) next)
      (others : Fills r s depth next members final) :
      Fills r s depth state ((key, v) :: members) final

theorem readMember_of_reads (hs : s.IsBlank) {state next : σ} {key : String} {v : Value}
    {field : Field σ} (belongs : r.fields.find? (·.key = key) = some field)
    (unset : field.isSet state = false)
    (reads : ReadsInside (field.read state) (v.chars s depth) next) {rest : List Char}
    (hrest : Follows rest) :
    r.readMember state key (s.colon ++ (v.chars s depth ++ rest)) = .ok (next, rest) := by
  obtain ⟨blanks, hblanks, -, hcolon⟩ := readColon_colon hs (v.chars s depth ++ rest)
  unfold readMember
  rw [belongs]
  dsimp only
  rw [unset, if_neg (by simp), hcolon]
  exact reads blanks rest hblanks hrest

/-- One member, read where its key was found. -/
theorem memberRound_of_reads {isFirst : Bool} {state next : σ} {key : String}
    {left value rest : List Char} (hkey : nextKey isFirst left = .ok (some (key, value)))
    (hmember : r.readMember state key value = .ok (next, rest)) :
    r.memberRound (isFirst, state) left = .ok (.more (false, next), rest) := by
  unfold memberRound
  dsimp only
  rw [hkey]
  dsimp only
  rw [hmember]
  rfl

theorem memberRound_end {close : List Char} (hclose : Blank close) (isFirst : Bool) {state : σ}
    (whole : r.missing? state = none) (rest : List Char) :
    r.memberRound (isFirst, state) (close ++ '}' :: rest) = .ok (.done state, rest) := by
  unfold memberRound
  dsimp only
  rw [nextKey_end hclose]
  dsimp only
  rw [whole, closeObject_end hclose]
  rfl

/-- After a member there is a comma, or what closes the object. -/
theorem follows_members {close : List Char} (hclose : Blank close)
    (members : List (String × Value)) (rest : List Char) :
    Follows (memberChars s depth members ++ (close ++ '}' :: rest)) := by
  intro c hc
  cases members with
  | cons m members =>
    rw [memberChars, List.cons_append, List.head?_cons] at hc
    exact .inl (Option.some.inj hc).symm
  | nil =>
    cases close with
    | nil => exact .inr (.inr (.inl (Option.some.inj hc).symm))
    | cons b close =>
      obtain rfl := Option.some.inj hc
      exact .inr (.inr (.inr (hclose _ List.mem_cons_self)))

theorem Fills.rounds (hs : s.IsBlank) {close : List Char} (hclose : Blank close)
    {state final : σ} {members : List (String × Value)} (h : r.Fills s depth state members final)
    (rest : List Char) :
    Text.Rounds r.memberRound (false, state)
      (memberChars s depth members ++ (close ++ '}' :: rest)) final rest := by
  induction h with
  | complete whole =>
    rw [memberChars, List.nil_append]
    exact .done (memberRound_end hclose false whole rest)
  | member belongs unset reads others ih =>
    rw [memberChars]
    simp only [List.cons_append, List.append_assoc]
    refine .more (memberRound_of_reads (nextKey_later (hs.gap depth) _ _)
      (readMember_of_reads hs belongs unset reads (follows_members hclose _ _))) ?_ ih
    simp only [List.length_cons, List.length_append]
    omega

/-- **A record is read from any members that fill it**, in whatever order they stand. -/
theorem Fills.reads (hs : s.IsBlank) {final : σ} {members : List (String × Value)}
    (h : r.Fills s (depth + 1) r.blank members final) :
    Reads r.read ((Value.object members).chars s depth) final := by
  intro blanks rest hblanks
  cases h with
  | complete whole =>
    have hrounds : Text.Rounds r.memberRound (true, r.blank) ('}' :: rest) r.blank rest :=
      .done (memberRound_end .nil true whole rest)
    show r.read (blanks ++ '{' :: ('}' :: rest)) = _
    unfold Record.read
    rw [skipSpace_blanks hblanks (by decide)]
    exact hrounds.loop _
  | @member _ next _ key v members field belongs unset reads others =>
    have hrounds : Text.Rounds r.memberRound (true, r.blank)
        (s.gap (depth + 1) ++ (textChars key ++ (s.colon ++ (v.chars s (depth + 1) ++
          (memberChars s (depth + 1) members ++ (s.gap depth ++ '}' :: rest)))))) final rest := by
      refine .more (memberRound_of_reads (nextKey_first (hs.gap (depth + 1)) key _)
        (readMember_of_reads hs belongs unset reads (follows_members (hs.gap depth) _ _))) ?_
        (others.rounds hs (hs.gap depth) rest)
      simp only [List.length_append, textChars, List.length_cons]
      omega
    unfold Record.read
    simp only [Value.chars, List.append_assoc, List.cons_append, List.nil_append]
    rw [skipSpace_blanks hblanks (by decide)]
    exact hrounds.loop _

end Record

theorem opens_object (s : Spacing) (depth : Nat) (members : List (String × Value)) :
    Opens ((Value.object members).chars s depth) := by
  cases members with
  | nil => exact ⟨'{', ['}'], rfl, by decide, by decide⟩
  | cons m members => exact ⟨'{', _, by rw [Value.chars], by decide, by decide⟩

end Json
end TriggerFlow
