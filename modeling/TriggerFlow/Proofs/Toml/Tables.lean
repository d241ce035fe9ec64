import TriggerFlow.Proofs.Decimal.Layout
import TriggerFlow.Proofs.Toml.Bounds
import TriggerFlow.Proofs.Toml.Text

/-!
# Tables come back as they were written

Tables with bare names are read again in their order, each with its members in their order: **a
header opens a table that is not there yet, and every member under it is added at its end**. Whole
numbers are the only values that the reader may refuse, and only where they have more than
sixty-three bits.
-/

set_option autoImplicit false

namespace TriggerFlow.Toml

/-! ## Values -/

/-- The value that is read where this one was written. -/
def Written.value : Written → Value
  | .natural n => .integer n
  | .bool b => .bool b
  | .text s => .text s

/-- The reader knows whole numbers up to this one. -/
def Written.IsReadable : Written → Prop
  | .natural n => n ≤ 2 ^ 63 - 1
  | .bool _ | .text _ => True

theorem digits?_of_digits {cs : List Char} (h : ∀ c ∈ cs, Text.isDigit c = true) (hne : cs ≠ []) :
    digits? Text.isDigit cs = some cs := by
  induction cs with
  | nil => exact absurd rfl hne
  | cons c cs ih =>
    have hc := h c List.mem_cons_self
    have hcs : ∀ d ∈ cs, Text.isDigit d = true := fun d hd => h d (List.mem_cons_of_mem c hd)
    cases cs with
    | nil =>
      unfold digits?
      rw [if_pos hc]
    | cons d cs =>
      have hd : d ≠ '_' := by
        rintro rfl
        exact absurd (hcs '_' List.mem_cons_self) (by decide)
      have hothers := ih hcs (List.cons_ne_nil d cs)
      rw [digits?, if_pos hc, hothers]
      · rfl
      · exact List.cons_ne_nil d cs
      · exact fun _ h => hd (List.cons.inj h).1

theorem toDigits_eq_zero_or (n : Nat) :
    Nat.toDigits 10 n = ['0'] ∨ ∃ c cs, Nat.toDigits 10 n = c :: cs ∧ c ≠ '0' := by
  rcases Nat.eq_zero_or_pos n with rfl | hpos
  · exact .inl rfl
  · exact .inr (Decimal.toDigits_eq_cons hpos)

theorem wholeDigits?_toDigits (n : Nat) :
    wholeDigits? (Nat.toDigits 10 n) = some (Nat.toDigits 10 n) := by
  have hdigits := digits?_of_digits (fun c => Decimal.isDigit_of_mem_toDigits (n := n))
    Nat.toDigits_ne_nil
  unfold wholeDigits?
  rw [hdigits]
  rcases toDigits_eq_zero_or n with h | ⟨c, cs, h, hc⟩
  · rw [h]
    rfl
  · rw [h]
    split
    · rename_i heq
      exact absurd (List.cons.inj (Option.some.inj heq)).1 hc
    · rfl

/-- **A whole number is read as itself**, up to the largest one that has a sign of its own. -/
theorem integer?_toDigits {n : Nat} (h : n ≤ 2 ^ 63 - 1) :
    integer? (Nat.toDigits 10 n) = some (.integer n) := by
  have hbounded : bounded? (n : Int) = some (.integer n) := by
    rw [bounded?_eq, if_pos (by omega)]
  have hsign : splitSign (Nat.toDigits 10 n) = (false, Nat.toDigits 10 n) := by
    cases hdigits : Nat.toDigits 10 n with
    | nil => rfl
    | cons c cs =>
      have hc : Text.isDigit c = true :=
        Decimal.isDigit_of_mem_toDigits (n := n) (hdigits ▸ List.mem_cons_self)
      unfold splitSign
      split
      · rename_i heq
        cases heq
        exact absurd hc (by decide)
      · rename_i heq
        cases heq
        exact absurd hc (by decide)
      · rfl
  have hplain : ∀ cs : List Char, (∀ c rest, cs ≠ '0' :: c :: rest) → integer? cs =
      (wholeDigits? (splitSign cs).2).bind fun ds =>
        bounded? (if (splitSign cs).1 then -(Text.decimalValue ds : Int)
          else Text.decimalValue ds) := by
    intro cs hcs
    unfold integer?
    split
    · exact absurd rfl (hcs _ _)
    · exact absurd rfl (hcs _ _)
    · exact absurd rfl (hcs _ _)
    · rfl
  have hzero : ∀ c rest, Nat.toDigits 10 n ≠ '0' :: c :: rest := by
    intro c rest heq
    rcases toDigits_eq_zero_or n with h | ⟨d, ds, h, hd⟩
    · rw [h] at heq
      cases heq
    · rw [h] at heq
      exact hd (List.cons.inj heq).1
  rw [hplain _ hzero, hsign, wholeDigits?_toDigits]
  rw [Option.bind_some, Decimal.decimalValue_toDigits, if_neg Bool.false_ne_true, hbounded]

/-- Digits alone are no date and no time. -/
theorem not_isMoment_of_digits {cs : List Char} (h : ∀ c ∈ cs, Text.isDigit c = true) :
    isDate cs = false ∧ isMoment cs = false := by
  have hdate : ∀ ds : List Char, (∀ c ∈ ds, Text.isDigit c = true) → isDate ds = false := by
    intro ds hds
    unfold isDate
    split
    · exact absurd (hds '-' (by simp)) (by decide)
    · rfl
  have htime : isTime cs = false := by
    unfold isTime
    split
    · exact absurd (h ':' (by simp)) (by decide)
    · rfl
  refine ⟨hdate cs h, ?_⟩
  unfold isMoment
  rw [htime, hdate cs h, hdate (cs.take 10) fun c hc => h c (List.mem_of_mem_take hc)]
  rfl

theorem readWord_toDigits {n : Nat} (h : n ≤ 2 ^ 63 - 1) (rest : List Char) :
    readWord (Nat.toDigits 10 n ++ '\n' :: rest) = .ok (.integer n, '\n' :: rest) := by
  have hdigits : ∀ c ∈ Nat.toDigits 10 n, Text.isDigit c = true :=
    fun c => Decimal.isDigit_of_mem_toDigits
  have hword : ∀ c ∈ Nat.toDigits 10 n, isWordPart c = true := by
    intro c hc
    have hdigit : c.isDigit = true := Nat.isDigit_of_mem_toDigits (by decide) (by decide) hc
    unfold isWordPart Char.isAlphanum
    rw [hdigit]
    simp
  obtain ⟨hdate, hmoment⟩ := not_isMoment_of_digits hdigits
  unfold readWord
  rw [List.takeWhile_append_of_pos hword, List.dropWhile_append_of_pos hword,
    List.takeWhile_cons_of_neg (by decide), List.dropWhile_cons_of_neg (by decide), List.append_nil]
  dsimp only
  rw [hdate]
  unfold word?
  rw [hmoment, integer?_toDigits h]
  rfl

theorem readValue_digit {c : Char} (hc : Text.isDigit c = true) (depth : Nat) (cs : List Char) :
    readValue depth (c :: cs) = readWord (c :: cs) := by
  have hother : ∀ d : Char, Text.isDigit d = false → c ≠ d := by
    rintro d hd rfl
    rw [hc] at hd
    cases hd
  unfold readValue
  split <;> rename_i heq <;> first
    | rfl
    | exact absurd (List.cons.inj heq).1 (hother _ (by decide))

theorem readValue_quote {quote : Char} (hquote : quote = '"' ∨ quote = '\'') (depth : Nat)
    (cs : List Char) : readValue depth (quote :: cs) =
      (readText (quote :: cs)).map fun (s, rest) => (.text s, rest) := by
  rcases hquote with rfl | rfl <;> cases depth <;> rfl

theorem toDigits_begins (n : Nat) :
    ∃ c cs, Nat.toDigits 10 n = c :: cs ∧ Text.isDigit c = true := by
  cases hcs : Nat.toDigits 10 n with
  | nil => exact absurd hcs Nat.toDigits_ne_nil
  | cons c cs =>
    exact ⟨c, cs, rfl, Decimal.isDigit_of_mem_toDigits (n := n) (hcs ▸ List.mem_cons_self)⟩

theorem textChars_begins (s : String) :
    ∃ quote cs, textChars s = quote :: cs ∧ (quote = '"' ∨ quote = '\'') := by
  have hquote := (fits_formOf s.toList).quote_eq
  unfold textChars
  dsimp only
  split <;> exact ⟨_, _, rfl, hquote⟩

/-- **A value is read as it was written** at the end of a line, after any blanks. -/
theorem readValue_render {w : Written} (h : w.IsReadable) (rest : List Char) :
    readValue deepest (skipBlanks (' ' :: (w.render.toList ++ '\n' :: rest))) =
      .ok (w.value, '\n' :: rest) := by
  have hblank : skipBlanks (' ' :: (w.render.toList ++ '\n' :: rest)) =
      skipBlanks (w.render.toList ++ '\n' :: rest) := rfl
  rw [hblank]
  cases w with
  | natural n =>
    have hread := readWord_toDigits h rest
    have hdigits : (Written.natural n).render.toList = Nat.toDigits 10 n := Nat.toList_repr
    obtain ⟨c, cs, hcs, hc⟩ := toDigits_begins n
    have hskip : isBlank c = false := by
      unfold isBlank
      simp only [Bool.or_eq_false_iff, decide_eq_false_iff_not]
      constructor <;> rintro rfl <;> exact absurd hc (by decide)
    rw [hcs, List.cons_append] at hread
    rw [hdigits, hcs, List.cons_append, skipBlanks, List.dropWhile_cons_of_neg (by simp [hskip]),
      readValue_digit hc, hread]
    rfl
  | bool b => cases b <;> rfl
  | text s =>
    have hread := readText_textChars s rest
    have htext : (Written.text s).render.toList = textChars s := String.toList_ofList
    obtain ⟨quote, cs, hcs, hquote⟩ := textChars_begins s
    have hskip : isBlank quote = false := by
      rcases hquote with rfl | rfl <;> rfl
    rw [hcs, List.cons_append] at hread
    rw [htext, hcs, List.cons_append, skipBlanks, List.dropWhile_cons_of_neg (by simp [hskip]),
      readValue_quote hquote, hread]
    rfl

/-! ## Keys -/

/-- A key that is written without quotes. -/
def IsBareKey (key : String) : Prop :=
  key ≠ "" ∧ ∀ c ∈ key.toList, isBare c = true

instance (key : String) : Decidable (IsBareKey key) :=
  decidable_of_iff (key ≠ "" ∧ key.toList.all isBare = true) (by simp [IsBareKey])

theorem IsBareKey.begins {key : String} (h : IsBareKey key) :
    ∃ c cs, key.toList = c :: cs ∧ isBare c = true := by
  cases hkey : key.toList with
  | nil => exact absurd (String.toList_eq_nil_iff.mp hkey) h.1
  | cons c cs => exact ⟨c, cs, rfl, h.2 c (hkey ▸ List.mem_cons_self)⟩

/-- What is no part of a bare key. -/
theorem ne_of_isBare {c d : Char} (hc : isBare c = true) (hd : isBare d = false) : c ≠ d := by
  rintro rfl
  rw [hc] at hd
  cases hd

theorem skipBlanks_of_bare {key : String} (h : IsBareKey key) (rest : List Char) :
    skipBlanks (key.toList ++ rest) = key.toList ++ rest := by
  obtain ⟨c, cs, hkey, hc⟩ := h.begins
  have hblank : isBlank c = false := by
    unfold isBlank
    simp only [Bool.or_eq_false_iff, decide_eq_false_iff_not]
    exact ⟨ne_of_isBare hc (by decide), ne_of_isBare hc (by decide)⟩
  rw [hkey, List.cons_append, skipBlanks, List.dropWhile_cons_of_neg (by simp [hblank])]

theorem readKey_bare {key : String} (h : IsBareKey key) {rest : List Char}
    (hends : ∀ c ∈ rest.head?, isBare c = false) (hdot : (skipBlanks rest).head? ≠ some '.') :
    readKey (key.toList ++ rest) = .ok (⟨[], key⟩, skipBlanks rest) := by
  obtain ⟨c, cs, hkey, hc⟩ := h.begins
  have hpart : readPart (skipBlanks (key.toList ++ rest)) = .ok (key, rest) := by
    obtain ⟨htake, hdrop⟩ := Text.span_append h.2 hends
    rw [skipBlanks_of_bare h]
    unfold readPart
    split
    · rename_i heq
      rw [hkey] at heq
      exact absurd (List.cons.inj heq).1 (ne_of_isBare hc (by decide))
    · rename_i heq
      rw [hkey] at heq
      exact absurd (List.cons.inj heq).1 (ne_of_isBare hc (by decide))
    · rw [htake, hdrop, hkey, if_neg (by simp), ← hkey, String.ofList_toList]
  have hround : partRound [] (key.toList ++ rest) = .ok (.done ⟨[], key⟩, skipBlanks rest) := by
    unfold partRound
    rw [hpart]
    dsimp only
    split
    · rename_i heq
      exact absurd (congrArg List.head? heq) hdot
    · rfl
  exact (Text.Rounds.done hround).loop _

/-! ## Statements -/

/-- The characters of a member on its line. -/
def memberChars (m : String × Written) : List Char :=
  m.1.toList ++ (' ' :: '=' :: ' ' :: (m.2.render.toList ++ ['\n']))

/-- The characters of a table without its last line break. -/
def tableChars (t : String × List (String × Written)) : List Char :=
  '[' :: (t.1.toList ++ (']' :: '\n' :: t.2.flatMap memberChars))

theorem toList_renderTable (t : String × List (String × Written)) :
    (renderTable t.1 t.2).toList = tableChars t := by
  have hmember : ∀ m : String × Written,
      (m.1 ++ " = " ++ m.2.render ++ "\n").toList = memberChars m := by
    intro m
    simp [memberChars]
  unfold renderTable tableChars
  simp only [String.toList_append, String.toList_join, List.flatMap_map, hmember]
  simp

theorem toList_render_cons (t : String × List (String × Written))
    (ts : List (String × List (String × Written))) :
    (render (t :: ts)).toList =
      tableChars t ++ if ts.isEmpty then [] else '\n' :: (render ts).toList := by
  have htable := toList_renderTable t
  cases ts with
  | nil => simp [render, htable]
  | cons u us => simp [render, htable]

variable {done members : Table} {name key : String}

theorem get?_append_of_absent (h : ∀ m ∈ done, m.1 ≠ key) (others : Table) :
    Table.get? (done ++ others) key = Table.get? others key := by
  have hdone : done.lookup key = none :=
    List.lookup_eq_none_iff.mpr fun m hm => by simpa using (h m hm).symm
  unfold Table.get?
  rw [List.lookup_append, hdone, Option.none_or]

theorem set_append_of_absent (h : ∀ m ∈ done, m.1 ≠ key) (v : Value) (others : Table) :
    Table.set key v (done ++ others) = done ++ Table.set key v others := by
  induction done with
  | nil => rfl
  | cons m done ih =>
    rw [List.cons_append, Table.set, if_neg (h m List.mem_cons_self),
      ih fun n hn => h n (List.mem_cons_of_mem m hn)]
    rfl

/-- A member with a new key is added at the end. -/
theorem set_of_absent (h : ∀ m ∈ done, m.1 ≠ key) (v : Value) :
    Table.get? done key = none ∧ Table.set key v done = done ++ [(key, v)] := by
  have hget := get?_append_of_absent h []
  have hset := set_append_of_absent h v []
  rw [List.append_nil] at hget hset
  exact ⟨hget, hset⟩

/-- A table with its name, as its header opens it. -/
def titled (name : String) (members : Table) : String × Value :=
  (name, .table .header members)

theorem insert_of_absent (h : ∀ m ∈ done, m.1 ≠ key) (v : Value) :
    Table.insert key v [] done = some (done ++ [(key, v)]) := by
  obtain ⟨hget, hset⟩ := set_of_absent h v
  unfold Table.insert
  rw [hget, hset]
  rfl

/-- The table of the last header is the one that changes. -/
theorem within_last {f : Table → Option Table} {changed : Table}
    (h : ∀ m ∈ done, m.1 ≠ name) (hf : f members = some changed) :
    Table.within f [name] (done ++ [titled name members]) =
      some (done ++ [titled name changed]) := by
  have hget : Table.get? (done ++ [titled name members]) name =
      some (.table .header members) := by
    rw [get?_append_of_absent h]
    simp [Table.get?, titled]
  have hset : Table.set name (.table .header changed) (done ++ [titled name members]) =
      done ++ [titled name changed] := by
    rw [set_append_of_absent h]
    simp [Table.set, titled]
  simp only [Table.within, hget, hf, Option.map_some, hset]

/-- **A header opens a table that is not there yet.** -/
theorem round_header (hname : IsBareKey name) (habsent : ∀ m ∈ done, m.1 ≠ name)
    (current : List String) (rest : List Char) :
    Draft.round ⟨done, current⟩ ('[' :: (name.toList ++ (']' :: '\n' :: rest))) =
      .ok (.more ⟨done ++ [titled name []], [name]⟩, rest) := by
  have hkey : readKey (name.toList ++ (']' :: '\n' :: rest)) =
      .ok (⟨[], name⟩, ']' :: '\n' :: rest) :=
    readKey_bare hname (by simp [isBare]) (by simp [skipBlanks, isBlank])
  have hopen : Table.openTable ⟨[], name⟩ done = some (done ++ [titled name []]) := by
    obtain ⟨hget, hset⟩ := set_of_absent habsent (.table .header [])
    simp only [Table.openTable, Table.within, hget, hset, titled]
  have hround : Draft.round ⟨done, current⟩ ('[' :: (name.toList ++ (']' :: '\n' :: rest))) =
      Draft.readHeader ⟨done, current⟩ (name.toList ++ (']' :: '\n' :: rest)) := rfl
  rw [hround]
  obtain ⟨c, cs, hcs, hc⟩ := hname.begins
  unfold Draft.readHeader
  split
  · rename_i heq
    rw [hcs] at heq
    exact absurd (List.cons.inj heq).1 (ne_of_isBare hc (by decide))
  · rw [hkey]
    show Draft.step (Table.openTable ⟨[], name⟩ done) [name] ('\n' :: rest) = _
    rw [hopen]
    rfl

/-- **A member is added to the table of the last header.** -/
theorem round_member {w : Written} (hkey : IsBareKey key) (hw : w.IsReadable)
    (habsent : ∀ m ∈ done, m.1 ≠ name) (hnew : ∀ m ∈ members, m.1 ≠ key) (rest : List Char) :
    Draft.round ⟨done ++ [titled name members], [name]⟩ (memberChars (key, w) ++ rest) =
      .ok (.more ⟨done ++ [titled name (members ++ [(key, w.value)])], [name]⟩, rest) := by
  have hchars : memberChars (key, w) ++ rest =
      key.toList ++ (' ' :: '=' :: ' ' :: (w.render.toList ++ '\n' :: rest)) := by
    simp [memberChars]
  have hmember : readMember (readValue deepest) (memberChars (key, w) ++ rest) =
      .ok ((⟨[], key⟩, w.value), '\n' :: rest) := by
    have hread : readKey (memberChars (key, w) ++ rest) =
        .ok (⟨[], key⟩, '=' :: ' ' :: (w.render.toList ++ '\n' :: rest)) := by
      rw [hchars]
      exact readKey_bare hkey (by simp [isBare]) (by simp [skipBlanks, isBlank])
    unfold readMember
    rw [hread]
    simp only [readValue_render hw]
    rfl
  have hskip : skipBlanks (memberChars (key, w) ++ rest) = memberChars (key, w) ++ rest := by
    rw [hchars]
    exact skipBlanks_of_bare hkey _
  obtain ⟨c, cs, hcs, hc⟩ := hkey.begins
  have hbegins : memberChars (key, w) ++ rest =
      c :: (cs ++ (' ' :: '=' :: ' ' :: (w.render.toList ++ '\n' :: rest))) := by
    rw [hchars, hcs]
    rfl
  unfold Draft.round
  rw [hskip]
  split
  · rename_i heq
    rw [hbegins] at heq
    cases heq
  · rename_i heq
    rw [hbegins] at heq
    exact absurd (List.cons.inj heq).1 (ne_of_isBare hc (by decide))
  · rw [if_neg, hmember]
    · show Draft.step (Table.within (Table.insert key w.value []) [name]
        (done ++ [titled name members])) [name] ('\n' :: rest) = _
      rw [within_last habsent (insert_of_absent hnew w.value)]
      rfl
    · rw [hbegins]
      rintro (hcomment | hbreak)
      · exact ne_of_isBare hc (by decide) (Option.some.inj hcomment)
      · unfold afterBreak? at hbreak
        split at hbreak
        · rename_i heq
          exact ne_of_isBare hc (by decide) (List.cons.inj heq).1
        · rename_i heq
          exact ne_of_isBare hc (by decide) (List.cons.inj heq).1
        · cases hbreak

theorem round_blank (d : Draft) (rest : List Char) :
    Draft.round d ('\n' :: rest) = .ok (.more d, rest) := rfl

/-! ## Whole texts -/

/-- The members that are read where these were written. -/
def readMembers (members : List (String × Written)) : Table :=
  members.map fun m => (m.1, m.2.value)

/-- The tables that are read where these were written. -/
def readTables (tables : List (String × List (String × Written))) : Table :=
  tables.map fun t => titled t.1 (readMembers t.2)

/-- Bare names, none of them twice in one place, and values that the reader knows. -/
structure AreReadable (tables : List (String × List (String × Written))) : Prop where
  names : (tables.map (·.1)).Nodup
  bare : ∀ t ∈ tables, IsBareKey t.1
  keys : ∀ t ∈ tables, (t.2.map (·.1)).Nodup
  members : ∀ t ∈ tables, ∀ m ∈ t.2, IsBareKey m.1 ∧ m.2.IsReadable

theorem rounds_members {written : List (String × Written)}
    (hwritten : ∀ m ∈ written, IsBareKey m.1 ∧ m.2.IsReadable)
    (habsent : ∀ m ∈ done, m.1 ≠ name) {left rest : List Char} {t : Table} :
    ∀ members : Table, (members.map (·.1) ++ written.map (·.1)).Nodup →
      Text.Rounds Draft.round
        ⟨done ++ [titled name (members ++ readMembers written)], [name]⟩ left t rest →
      Text.Rounds Draft.round ⟨done ++ [titled name members], [name]⟩
        (written.flatMap memberChars ++ left) t rest := by
  induction written with
  | nil =>
    intro members _ hothers
    simpa [readMembers] using hothers
  | cons m written ih =>
    intro members hnodup hothers
    obtain ⟨hkey, hvalue⟩ := hwritten m List.mem_cons_self
    have hnew : ∀ n ∈ members, n.1 ≠ m.1 := by
      intro n hn heq
      have hdisjoint := (List.nodup_append.mp hnodup).2.2 n.1 (List.mem_map_of_mem hn)
      exact hdisjoint m.1 (by simp) heq
    have hmore := ih (fun n hn => hwritten n (List.mem_cons_of_mem m hn))
      (members ++ [(m.1, m.2.value)]) (by simpa using hnodup)
      (by simpa [readMembers] using hothers)
    rw [List.flatMap_cons, List.append_assoc]
    refine .more (round_member hkey hvalue habsent hnew _) ?_ hmore
    simp [memberChars]
    omega

theorem rounds_tables {tables : List (String × List (String × Written))}
    (h : AreReadable tables) :
    ∀ (done : Table) (current : List String),
      (∀ m ∈ done, ∀ t ∈ tables, m.1 ≠ t.1) →
      Text.Rounds Draft.round ⟨done, current⟩ (render tables).toList (done ++ readTables tables)
        [] := by
  induction tables with
  | nil =>
    intro done current _
    refine .done ?_
    rw [readTables, List.map_nil, List.append_nil]
    rfl
  | cons t tables ih =>
    intro done current habsent
    have hothers : AreReadable tables := {
      names := (List.nodup_cons.mp h.names).2
      bare := fun u hu => h.bare u (List.mem_cons_of_mem t hu)
      keys := fun u hu => h.keys u (List.mem_cons_of_mem t hu)
      members := fun u hu => h.members u (List.mem_cons_of_mem t hu) }
    have hdone : ∀ m ∈ done, m.1 ≠ t.1 := fun m hm => habsent m hm t List.mem_cons_self
    have hmore := ih hothers (done ++ [titled t.1 (readMembers t.2)]) [t.1] (by
      intro m hm u hu
      rcases List.mem_append.mp hm with hm | hm
      · exact habsent m hm u (List.mem_cons_of_mem t hu)
      · rw [List.mem_singleton.mp hm]
        intro heq
        exact (List.nodup_cons.mp h.names).1 (List.mem_map.mpr ⟨u, hu, heq.symm⟩))
    have hall : done ++ [titled t.1 (readMembers t.2)] ++ readTables tables =
        done ++ readTables (t :: tables) := by
      simp [readTables]
    rw [hall] at hmore
    rw [toList_render_cons, tableChars]
    have hheader := round_header (h.bare t List.mem_cons_self) hdone current
      (t.2.flatMap memberChars ++ if tables.isEmpty then [] else '\n' :: (render tables).toList)
    refine .more (by simpa using hheader) ?_ ?_
    · simp
      omega
    · refine rounds_members (h.members t List.mem_cons_self) hdone []
        (by simpa using h.keys t List.mem_cons_self) ?_
      rw [List.nil_append]
      cases tables with
      | nil => exact hmore
      | cons u us => exact .more (round_blank _ _) (Nat.lt_succ_self _) hmore

theorem head?_render (tables : List (String × List (String × Written))) :
    (render tables).toList.head? ≠ some '\ufeff' := by
  cases tables with
  | nil => simp [render]
  | cons t tables =>
    rw [toList_render_cons, tableChars]
    simp

/-- **Tables are read as they were written.** -/
theorem parse_render {tables : List (String × List (String × Written))} (h : AreReadable tables) :
    parse (render tables) = .ok (readTables tables) := by
  have hloop : loop Draft.round ⟨[], []⟩ (render tables).toList = .ok (readTables tables, []) :=
    (rounds_tables h [] [] (by simp)).loop Fault.malformed
  have hmark := head?_render tables
  unfold parse
  split
  · rename_i heq
    exact absurd (congrArg List.head? heq) hmark
  · dsimp only
    rw [hloop]
    rfl

end TriggerFlow.Toml
