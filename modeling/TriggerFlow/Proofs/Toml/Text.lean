import TriggerFlow.Proofs.Text.Loops
import TriggerFlow.Toml.Printer

/-!
# A text survives any quotes

The writer chooses between five ways to put a text between quotes. Each is undone by the same
reader, because **what is between the quotes is never taken for the end of the text**: on one line
there is no bare quote at all, and over several lines no three of them in a row.
-/

set_option autoImplicit false

namespace TriggerFlow.Toml

/-! ## One character -/

theorem hexValue?_upper {n : Nat} (h : n < 16) :
    Text.hexValue? (Nat.digitChar n).toUpper = some n := by
  have hall : ∀ i : Fin 16, Text.hexValue? (Nat.digitChar i).toUpper = some i.val := by decide
  exact hall ⟨n, h⟩

theorem readEscape_control {c : Char} (h : c.toNat < 0x80) (rest : List Char) :
    readEscape ('u' :: '0' :: '0' :: (Nat.digitChar (c.toNat / 16)).toUpper ::
      (Nat.digitChar (c.toNat % 16)).toUpper :: rest) = .ok (c, rest) := by
  have hhigh := hexValue?_upper (n := c.toNat / 16) (by omega)
  have hlow := hexValue?_upper (n := c.toNat % 16) (by omega)
  have hzero : Text.hexValue? '0' = some 0 := by decide
  have hnumber : (((0 * 16 + 0) * 16 + 0) * 16 + c.toNat / 16) * 16 + c.toNat % 16 = c.toNat := by
    omega
  have hvalid : c.toNat.isValidChar := c.valid
  simp only [readEscape, readNumbered, List.take_succ_cons, List.take_zero, List.filterMap_cons,
    hzero, hhigh, hlow, List.filterMap_nil, List.foldl_cons, List.foldl_nil, hnumber]
  simp [hvalid]

/-- No escape is the backslash at the end of a line. -/
theorem afterBreak?_of_readEscape {cs rest : List Char} {c : Char}
    (h : readEscape cs = .ok (c, rest)) : afterBreak? (skipBlanks cs) = none := by
  unfold readEscape at h
  split at h <;> first | rfl | cases h

theorem isVisible_of_not_control {c : Char} (hcontrol : isControl c = false) (hbreak : c ≠ '\n') :
    isVisible c = true := by
  unfold isControl at hcontrol
  unfold isVisible
  by_cases htab : c = '\t'
  · simp [htab]
  · simp only [htab, hbreak, ne_eq, not_false_eq_true, decide_true, Bool.and_true,
      Bool.or_eq_false_iff, decide_eq_false_iff_not] at hcontrol
    simp [hcontrol.2]
    exact .inr (Nat.le_of_not_lt hcontrol.1)

/-- A character other than the quote stands between double quotes as it is, or it is escaped and the
escape names it. -/
theorem writtenChar_cases (f : Form) (c : Char)
    (h : f.isEscaped = true ∨ isControl c = false ∧ c ≠ '\\') :
    (writtenChar f c = [c] ∧ c ≠ '\\' ∧ isControl c = false) ∨
      ∃ escape, writtenChar f c = '\\' :: escape ∧
        ∀ rest, readEscape (escape ++ rest) = .ok (c, rest) := by
  unfold writtenChar
  split
  · subst c
    exact .inr ⟨_, rfl, fun _ => rfl⟩
  split
  · rename_i hplain
    obtain ⟨hcontrol, hbackslash⟩ := h.resolve_left hplain
    exact .inl ⟨rfl, hbackslash, hcontrol⟩
  split
  · subst c
    exact .inr ⟨_, rfl, fun _ => rfl⟩
  split
  · subst c
    exact .inr ⟨_, rfl, fun _ => rfl⟩
  split
  · subst c
    exact .inr ⟨_, rfl, fun _ => rfl⟩
  split
  · subst c
    exact .inr ⟨_, rfl, fun _ => rfl⟩
  split
  · rename_i hcontrol
    have hlow : c.toNat < 0x80 := by
      simp only [isControl, Bool.and_eq_true, Bool.or_eq_true, decide_eq_true_eq] at hcontrol
      omega
    exact .inr ⟨_, rfl, fun rest => readEscape_control hlow rest⟩
  · rename_i hbackslash _ _ _ hcontrol
    exact .inl ⟨rfl, hbackslash, Bool.eq_false_iff.mpr hcontrol⟩

/-! ## Rounds -/

/-- A round of reading a text, after what was read before. -/
abbrev TextRound := List Char → Reader (Text.Round (List Char) String)

/-- One round takes these characters for this one, and they do not begin with a quote. -/
structure Spells (round : TextRound) (quote : Char) (w : List Char) (c : Char) : Prop where
  begins : ∃ first others, w = first :: others ∧ first ≠ quote
  reads : ∀ read rest, round read (w ++ rest) = .ok (.more (c :: read), rest)

theorem lineRound_escaped {cs rest : List Char} {c : Char} (h : readEscape cs = .ok (c, rest))
    (read : List Char) : lineRound '"' read ('\\' :: cs) = .ok (.more (c :: read), rest) := by
  simp [lineRound, h, Except.map]

theorem linesRound_escaped {cs rest : List Char} {c : Char} (h : readEscape cs = .ok (c, rest))
    (read : List Char) : linesRound '"' read ('\\' :: cs) = .ok (.more (c :: read), rest) := by
  have hbackslash : afterBreak? ('\\' :: cs) = none := rfl
  simp [linesRound, hbackslash, afterBreak?_of_readEscape h, h, Except.map]

theorem lineRound_plain {quote c : Char} (hquote : c ≠ quote) (hbackslash : c ≠ '\\' ∨ quote ≠ '"')
    (hvisible : isVisible c = true) (read rest : List Char) :
    lineRound quote read (c :: rest) = .ok (.more (c :: read), rest) := by
  unfold lineRound
  dsimp only
  rw [if_neg hquote, if_neg fun h => hbackslash.elim (· h.1) (· h.2), if_pos hvisible]

theorem afterBreak?_cons {c : Char} (hcontrol : isControl c = false) (hbreak : c ≠ '\n')
    (rest : List Char) : afterBreak? (c :: rest) = none := by
  unfold afterBreak?
  split
  · rename_i heq
    cases heq
    exact absurd rfl hbreak
  · rename_i heq
    cases heq
    cases hcontrol
  · rfl

theorem linesRound_plain {quote c : Char} (hquote : c ≠ quote)
    (hbackslash : c ≠ '\\' ∨ quote ≠ '"') (hcontrol : isControl c = false)
    (read rest : List Char) :
    linesRound quote read (c :: rest) = .ok (.more (c :: read), rest) := by
  by_cases hbreak : c = '\n'
  · subst c
    simp [linesRound, afterBreak?]
  · unfold linesRound
    rw [afterBreak?_cons hcontrol hbreak]
    dsimp only
    rw [if_neg (by simp [hquote]), if_neg fun h => hbackslash.elim (· h.1) (· h.2),
      if_pos (isVisible_of_not_control hcontrol hbreak)]

theorem spells_lineRound {f : Form} {c : Char} (hquote : c ≠ '"') (hbreak : c ≠ '\n')
    (h : f.isEscaped = true ∨ isControl c = false ∧ c ≠ '\\') :
    Spells (lineRound '"') '"' (writtenChar f c) c := by
  rcases writtenChar_cases f c h with ⟨heq, hbackslash, hcontrol⟩ | ⟨escape, heq, hread⟩
  · rw [heq]
    exact ⟨⟨c, [], rfl, hquote⟩,
      lineRound_plain hquote (.inl hbackslash) (isVisible_of_not_control hcontrol hbreak)⟩
  · rw [heq]
    exact ⟨⟨_, _, rfl, by decide⟩, fun read rest => lineRound_escaped (hread rest) read⟩

theorem spells_linesRound {f : Form} {c : Char} (hquote : c ≠ '"')
    (h : f.isEscaped = true ∨ isControl c = false ∧ c ≠ '\\') :
    Spells (linesRound '"') '"' (writtenChar f c) c := by
  rcases writtenChar_cases f c h with ⟨heq, hbackslash, hcontrol⟩ | ⟨escape, heq, hread⟩
  · rw [heq]
    exact ⟨⟨c, [], rfl, hquote⟩, linesRound_plain hquote (.inl hbackslash) hcontrol⟩
  · rw [heq]
    exact ⟨⟨_, _, rfl, by decide⟩, fun read rest => linesRound_escaped (hread rest) read⟩

/-! ## Between the quotes -/

/-- What stands between the quotes for some characters: each is spelled, or it is a bare quote, of
which no more than `most` come in a row and no more than `left` at the start. -/
inductive Body (round : TextRound) (quote : Char) (most : Nat) :
    Nat → List Char → List Char → Prop where
  | nil (left : Nat) : Body round quote most left [] []
  | spelled {left : Nat} {c : Char} {w cs body : List Char} (first : Spells round quote w c)
      (others : Body round quote most most cs body) :
      Body round quote most left (c :: cs) (w ++ body)
  | bare {left : Nat} {cs body : List Char} (others : Body round quote most left cs body) :
      Body round quote most (left + 1) (quote :: cs) (quote :: body)

variable {quote : Char} {cs body rest : List Char}

theorem Spells.shorter {round : TextRound} {w : List Char} {c : Char}
    (h : Spells round quote w c) (rest : List Char) : rest.length < (w ++ rest).length := by
  obtain ⟨first, others, rfl, -⟩ := h.begins
  simp only [List.cons_append, List.length_cons, List.length_append]
  omega

/-- On one line there is no bare quote but the last one. -/
theorem Body.rounds_line {left : Nat} (h : Body (lineRound quote) quote 0 left cs body)
    (hleft : left = 0) (read rest : List Char) :
    Text.Rounds (lineRound quote) read (body ++ quote :: rest) (String.ofList (read.reverse ++ cs))
      rest := by
  induction h generalizing read with
  | nil left =>
    refine .done ?_
    rw [List.append_nil, List.nil_append]
    unfold lineRound
    dsimp only
    rw [if_pos rfl]
    rfl
  | @spelled left c w cs body first others ih =>
    have hmore := ih rfl (c :: read)
    rw [List.reverse_cons, List.append_assoc, List.singleton_append] at hmore
    rw [List.append_assoc]
    exact .more (first.reads read _) (first.shorter _) hmore
  | bare => cases hleft

theorem linesRound_quote (hquote : quote = '"' ∨ quote = '\'') (read cs : List Char) :
    linesRound quote read (quote :: cs) =
      if cs.take 2 = [quote, quote] then .ok (endLines quote read (cs.drop 2))
      else .ok (.more (quote :: read), cs) := by
  rcases hquote with rfl | rfl <;> simp [linesRound, afterBreak?, isVisible]

/-- Up to two quotes after the three that were met belong to the text. -/
theorem endLines_quotes (hrest : rest.head? ≠ some quote) (read : List Char) :
    endLines quote read rest = (.done (String.ofList read.reverse), rest) ∧
      endLines quote read (quote :: rest) =
        (.done (String.ofList (read.reverse ++ [quote])), rest) ∧
      endLines quote read (quote :: quote :: rest) =
        (.done (String.ofList (read.reverse ++ [quote, quote])), rest) := by
  have hone : read.reverse ++ [quote] = (quote :: read).reverse := by simp
  have htwo : read.reverse ++ [quote, quote] = (quote :: quote :: read).reverse := by simp
  rw [hone, htwo]
  cases rest with
  | nil => exact ⟨rfl, by simp only [endLines, if_pos]; rfl, by simp only [endLines, if_pos]; rfl⟩
  | cons c rest =>
    have hc : c ≠ quote := fun h => hrest (congrArg some h)
    refine ⟨?_, ?_, ?_⟩ <;> simp only [endLines, if_pos, if_neg hc] <;> rfl

/-- **Two quotes before the three last ones belong to the text.** -/
theorem Body.rounds_lines (hquote : quote = '"' ∨ quote = '\'') (hrest : rest.head? ≠ some quote)
    {left : Nat} (h : Body (linesRound quote) quote 2 left cs body) (hleft : left ≤ 2)
    (read : List Char) :
    Text.Rounds (linesRound quote) read (body ++ quote :: quote :: quote :: rest)
      (String.ofList (read.reverse ++ cs)) rest := by
  induction h generalizing read with
  | nil left =>
    refine .done ?_
    rw [List.nil_append, linesRound_quote hquote, List.append_nil]
    exact (if_pos rfl).trans (congrArg Except.ok (endLines_quotes hrest read).1)
  | @spelled left c w cs body first others ih =>
    have hmore := ih (Nat.le_refl 2) (c :: read)
    rw [List.reverse_cons, List.append_assoc, List.singleton_append] at hmore
    rw [List.append_assoc]
    exact .more (first.reads read _) (first.shorter _) hmore
  | @bare left cs body others ih =>
    by_cases hlast : (body ++ quote :: quote :: quote :: rest).take 2 = [quote, quote]
    · refine .done ?_
      rw [List.cons_append, linesRound_quote hquote, if_pos hlast]
      cases others with
      | nil => exact congrArg Except.ok (endLines_quotes hrest read).2.1
      | spelled first others =>
        obtain ⟨c, w, rfl, hc⟩ := first.begins
        exact absurd (List.cons.inj hlast).1 hc
      | bare others =>
        cases others with
        | nil => exact congrArg Except.ok (endLines_quotes hrest read).2.2
        | spelled first others =>
          obtain ⟨c, w, rfl, hc⟩ := first.begins
          exact absurd (List.cons.inj (List.cons.inj hlast).2).1 hc
        | bare others => omega
    · have hmore := ih (by omega) (quote :: read)
      rw [List.reverse_cons, List.append_assoc, List.singleton_append] at hmore
      refine .more ?_ (Nat.lt_succ_self _) hmore
      rw [List.cons_append, linesRound_quote hquote, if_neg hlast]
      rfl

/-! ## What is written between the quotes -/

/-- Without a quote among the characters, each is spelled. -/
theorem body_of_spelled {round : TextRound} {most : Nat} {w : Char → List Char}
    (hw : ∀ c ∈ cs, Spells round quote (w c) c) (left : Nat) :
    Body round quote most left cs (cs.flatMap w) := by
  induction cs generalizing left with
  | nil => exact .nil _
  | cons c cs ih =>
    exact .spelled (hw c List.mem_cons_self) (ih (fun d hd => hw d (List.mem_cons_of_mem c hd)) _)

/-- Counting the run that a character ends, and the longest run so far. -/
def runStep (quote : Char) : Nat × Nat → Char → Nat × Nat := fun (longest, current) c =>
  let current := if c = quote then current + 1 else 0
  (max longest current, current)

theorem le_longest (quote : Char) (cs : List Char) :
    ∀ counts : Nat × Nat, counts.1 ≤ (cs.foldl (runStep quote) counts).1 := by
  induction cs with
  | nil => exact fun counts => Nat.le_refl _
  | cons c cs ih =>
    intro counts
    exact Nat.le_trans (Nat.le_max_left _ _) (ih (runStep quote counts c))

/-- **Without a long run of quotes, every quote can stand bare.** -/
theorem body_of_runs {round : TextRound} {most : Nat} {w : Char → List Char}
    (hw : ∀ c ∈ cs, c ≠ quote → Spells round quote (w c) c) :
    ∀ longest current : Nat, (cs.foldl (runStep quote) (longest, current)).1 ≤ most →
      Body round quote most (most - current) cs
        (cs.flatMap fun c => if c = quote then [quote] else w c) := by
  induction cs with
  | nil => exact fun _ _ _ => .nil _
  | cons c cs ih =>
    intro longest current hruns
    have hothers := ih fun d hd => hw d (List.mem_cons_of_mem c hd)
    rw [List.flatMap_cons]
    by_cases hc : c = quote
    · subst c
      have hnext : runStep quote (longest, current) quote =
          (max longest (current + 1), current + 1) := by
        simp [runStep]
      rw [List.foldl_cons, hnext] at hruns
      have hle : max longest (current + 1) ≤ most :=
        Nat.le_trans (le_longest quote cs (max longest (current + 1), current + 1)) hruns
      rw [if_pos rfl, show most - current = most - (current + 1) + 1 by omega]
      exact .bare (hothers _ _ hruns)
    · have hnext : runStep quote (longest, current) c = (max longest 0, 0) := by
        simp [runStep, hc]
      rw [List.foldl_cons, hnext] at hruns
      rw [if_neg hc]
      exact .spelled (hw c List.mem_cons_self hc) (hothers _ _ hruns)

theorem writtenChars_unescaped {f : Form} (hf : f.isEscaped = false) (most : Nat) :
    ∀ run : Nat, writtenChars f most run cs =
      cs.flatMap fun c => if c = '"' then ['"'] else writtenChar f c := by
  induction cs with
  | nil => exact fun _ => rfl
  | cons c cs ih =>
    intro run
    rw [List.flatMap_cons]
    unfold writtenChars
    split
    · rw [if_neg (by simp [hf]), ih]
      rfl
    · rw [ih]

/-- **Where a quote is escaped after so many bare ones, any text can be written.** -/
theorem body_of_escaped {round : TextRound} {f : Form} {most : Nat} (hf : f.isEscaped = true)
    (hescape : Spells round '"' ['\\', '"'] '"')
    (hw : ∀ c ∈ cs, c ≠ '"' → Spells round '"' (writtenChar f c) c) :
    ∀ run : Nat, run ≤ most →
      Body round '"' most (most - run) cs (writtenChars f most run cs) := by
  induction cs with
  | nil => exact fun _ _ => .nil _
  | cons c cs ih =>
    intro run hrun
    have hothers := ih fun d hd => hw d (List.mem_cons_of_mem c hd)
    unfold writtenChars
    split
    · rename_i hc
      subst c
      by_cases hfull : run = most
      · rw [if_pos ⟨hf, hfull⟩]
        exact .spelled hescape (hothers 0 (Nat.zero_le most))
      · rw [if_neg fun h => hfull h.2, show most - run = most - (run + 1) + 1 by omega]
        exact .bare (hothers _ (by omega))
    · rename_i hc
      exact .spelled (hw c List.mem_cons_self hc) (hothers 0 (Nat.zero_le most))

/-! ## The five forms -/

/-- In which cases a text is written in a form. -/
inductive Fits (cs : List Char) : Form → Prop where
  | line (plain : ∀ c ∈ cs, isControl c = false ∧ c ≠ '\n' ∧ c ≠ '\\' ∧ c ≠ '"') :
      Fits cs ⟨'"', false, false⟩
  | literal (plain : ∀ c ∈ cs, isControl c = false ∧ c ≠ '\n' ∧ c ≠ '\'') :
      Fits cs ⟨'\'', false, false⟩
  | lines (plain : ∀ c ∈ cs, isControl c = false ∧ c ≠ '\\') (runs : longestRun '"' cs ≤ 2) :
      Fits cs ⟨'"', true, false⟩
  | literals (plain : ∀ c ∈ cs, isControl c = false) (runs : longestRun '\'' cs ≤ 2) :
      Fits cs ⟨'\'', true, false⟩
  | escaped (line : '\n' ∉ cs) : Fits cs ⟨'"', false, true⟩
  | escapedLines (lines : '\n' ∈ cs) : Fits cs ⟨'"', true, true⟩

theorem fits_formOf (cs : List Char) : Fits cs (formOf cs) := by
  unfold formOf
  simp only [List.contains_eq_mem, Bool.and_eq_true, Bool.not_eq_true', List.any_eq_false,
    Bool.not_eq_true, decide_eq_false_iff_not, decide_eq_true_eq]
  split
  · rename_i h
    obtain ⟨⟨⟨plain, line⟩, backslash⟩, quote⟩ := h
    exact .line fun c hc => ⟨plain c hc, by grind, by grind, by grind⟩
  split
  · rename_i h
    obtain ⟨⟨plain, line⟩, quote⟩ := h
    exact .literal fun c hc => ⟨plain c hc, by grind, by grind⟩
  split
  · rename_i h
    obtain ⟨⟨plain, backslash⟩, runs⟩ := h
    exact .lines (fun c hc => ⟨plain c hc, by grind⟩) runs
  split
  · rename_i h
    exact .literals h.1 h.2
  · by_cases hline : '\n' ∈ cs
    · simpa [hline] using Fits.escapedLines hline
    · simpa [hline] using Fits.escaped hline

theorem Fits.quote_eq {f : Form} (h : Fits cs f) : f.quote = '"' ∨ f.quote = '\'' := by
  cases h <;> first | exact .inl rfl | exact .inr rfl

/-- The round in which a text of a form is read. -/
def Form.round (f : Form) : TextRound :=
  if f.isMultiline then linesRound f.quote else lineRound f.quote

/-- The number of bare quotes in a row that a form allows. -/
def Form.bareQuotes (f : Form) : Nat :=
  if f.isMultiline then 2 else 0

/-- **A form is chosen only for texts that can be written in it.** -/
theorem body_of_fits {f : Form} (h : Fits cs f) :
    Body f.round f.quote f.bareQuotes f.bareQuotes cs
      (if f.quote = '"' then writtenChars f f.bareQuotes 0 cs else cs) := by
  cases h with
  | line plain =>
    rw [if_pos rfl, writtenChars_unescaped rfl]
    refine body_of_spelled (fun c hc => ?_) 0
    obtain ⟨hcontrol, hbreak, hbackslash, hquote⟩ := plain c hc
    rw [if_neg hquote]
    exact spells_lineRound hquote hbreak (.inr ⟨hcontrol, hbackslash⟩)
  | literal plain =>
    have hbody : Body (lineRound '\'') '\'' 0 0 cs (cs.flatMap fun c => [c]) := by
      refine body_of_spelled (fun c hc => ?_) 0
      obtain ⟨hcontrol, hbreak, hquote⟩ := plain c hc
      exact ⟨⟨c, [], rfl, hquote⟩, lineRound_plain hquote (.inr (by decide))
        (isVisible_of_not_control hcontrol hbreak)⟩
    rw [List.flatMap_singleton'] at hbody
    rw [if_neg (by decide)]
    exact hbody
  | lines plain runs =>
    rw [if_pos rfl, writtenChars_unescaped rfl]
    exact body_of_runs (fun c hc hquote => spells_linesRound hquote (.inr (plain c hc))) 0 0 runs
  | literals plain runs =>
    have hbody : Body (linesRound '\'') '\'' 2 2 cs
        (cs.flatMap fun c => if c = '\'' then ['\''] else [c]) :=
      body_of_runs (fun c hc hquote =>
        ⟨⟨c, [], rfl, hquote⟩, linesRound_plain hquote (.inr (by decide)) (plain c hc)⟩) 0 0 runs
    have heach : (fun c => if c = '\'' then ['\''] else [c]) = fun c => [c] := by
      funext c
      by_cases hc : c = '\'' <;> simp [hc]
    rw [heach, List.flatMap_singleton'] at hbody
    rw [if_neg (by decide)]
    exact hbody
  | escaped line =>
    rw [if_pos rfl]
    refine body_of_escaped rfl ⟨⟨_, _, rfl, by decide⟩, fun read rest => lineRound_escaped rfl read⟩
      (fun c hc hquote => spells_lineRound hquote ?_ (.inl rfl)) 0 (Nat.zero_le _)
    rintro rfl
    exact line hc
  | escapedLines lines =>
    rw [if_pos rfl]
    exact body_of_escaped rfl ⟨⟨_, _, rfl, by decide⟩, fun read rest => linesRound_escaped rfl read⟩
      (fun c hc hquote => spells_linesRound hquote (.inl rfl)) 0 (Nat.zero_le _)

/-! ## Around the quotes -/

theorem readText_line (hquote : quote = '"' ∨ quote = '\'')
    (h : Body (lineRound quote) quote 0 0 cs body) (hrest : rest.head? ≠ some quote) :
    readText (quote :: (body ++ quote :: rest)) = .ok (String.ofList cs, rest) := by
  have hloop := (h.rounds_line rfl [] rest).loop Fault.malformed
  -- An empty text is two quotes, and they must not be taken for the first two of three.
  have hline : readText (quote :: (body ++ quote :: rest)) =
      readLineText (quote :: (body ++ quote :: rest)) := by
    cases h with
    | nil =>
      cases rest with
      | nil => rcases hquote with rfl | rfl <;> rfl
      | cons c rest =>
        have hc : c ≠ quote := fun h => hrest (congrArg some h)
        rcases hquote with rfl | rfl <;> simp [readText, hc]
    | spelled first others =>
      obtain ⟨c, w, rfl, hc⟩ := first.begins
      rcases hquote with rfl | rfl <;> simp [readText, hc]
  rw [hline]
  rcases hquote with rfl | rfl <;> exact hloop

theorem Body.afterBreak?_eq_none {left : Nat} (h : Body (linesRound quote) quote 2 left cs body)
    (hquote : quote = '"' ∨ quote = '\'') (hcs : '\n' ∉ cs) (rest : List Char) :
    afterBreak? (body ++ quote :: rest) = none := by
  cases h with
  | nil => rcases hquote with rfl | rfl <;> rfl
  | @spelled _ c w cs body first others =>
    cases hbreak : afterBreak? (w ++ body ++ quote :: rest) with
    | none => rfl
    | some left =>
      -- A line break at the front would be read as one.
      have hreads := first.reads [] (body ++ quote :: rest)
      rw [← List.append_assoc] at hreads
      unfold linesRound at hreads
      rw [hbreak] at hreads
      injection hreads with hreads
      injection hreads with hmore
      injection hmore with hchars
      exact absurd (List.cons.inj hchars).1 fun h => hcs (h ▸ List.mem_cons_self)
  | bare => rcases hquote with rfl | rfl <;> rfl

theorem readText_lines (hquote : quote = '"' ∨ quote = '\'')
    (h : Body (linesRound quote) quote 2 2 cs body) (hrest : rest.head? ≠ some quote) :
    readText (quote :: quote :: quote :: ((if '\n' ∈ cs then ['\n'] else []) ++
      (body ++ quote :: quote :: quote :: rest))) = .ok (String.ofList cs, rest) := by
  have hloop := (h.rounds_lines hquote hrest (Nat.le_refl 2) []).loop Fault.malformed
  have hlead : ((afterBreak? ((if '\n' ∈ cs then ['\n'] else []) ++
      (body ++ quote :: quote :: quote :: rest))).getD ((if '\n' ∈ cs then ['\n'] else []) ++
      (body ++ quote :: quote :: quote :: rest))) = body ++ quote :: quote :: quote :: rest := by
    split
    · rfl
    · rename_i hcs
      rw [List.nil_append, h.afterBreak?_eq_none hquote hcs]
      rfl
  rcases hquote with rfl | rfl
  · show readLinesText '"' _ = _
    unfold readLinesText
    rw [hlead]
    exact hloop
  · show readLinesText '\'' _ = _
    unfold readLinesText
    rw [hlead]
    exact hloop

/-- **Every text is read as it was written**, whatever its quotes. -/
theorem readText_textChars (s : String) (rest : List Char) :
    readText (textChars s ++ '\n' :: rest) = .ok (s, '\n' :: rest) := by
  have hfits := fits_formOf s.toList
  have hbody := body_of_fits hfits
  have hquote := hfits.quote_eq
  have hrest : ('\n' :: rest).head? ≠ some (formOf s.toList).quote := by
    rcases hquote with hquote | hquote <;> rw [hquote] <;> simp
  unfold textChars
  dsimp only
  unfold Form.round Form.bareQuotes at hbody
  cases hmultiline : (formOf s.toList).isMultiline <;> rw [hmultiline] at hbody
  · have hread := readText_line hquote hbody hrest
    rw [String.ofList_toList] at hread
    simpa using hread
  · have hread := readText_lines hquote hbody hrest
    rw [String.ofList_toList] at hread
    simpa using hread

end TriggerFlow.Toml
