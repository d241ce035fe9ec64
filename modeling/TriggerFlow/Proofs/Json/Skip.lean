import TriggerFlow.Proofs.Json.Number
import TriggerFlow.Proofs.Json.Pieces

/-!
# Passing over any value

A member that nobody asked for is passed over to the character behind it, **whatever the format
allows in its place**, in any number of lists and objects inside one another. The walk keeps only
the open brackets, so it is followed by what is still to come: from the end of a value it goes on as
the innermost bracket says.
-/

set_option autoImplicit false

namespace TriggerFlow.Json

/-! ## Numbers -/

/-- What can stand after the digits of a number is no digit. -/
theorem readExponent_of_digits {sign digits rest : List Char}
    (hsign : sign = [] ∨ sign = ['+'] ∨ sign = ['-']) (hdigits : AreDigits digits)
    (hrest : Follows rest) : ∃ n, readExponent (sign ++ (digits ++ rest)) = .ok (n, rest) := by
  obtain ⟨htake, hdrop⟩ := Text.span_append hdigits.2 fun c hc => (hrest.ends hc).1
  obtain ⟨c, others, rfl, hc⟩ := hdigits.begins
  have hplain : ∀ d : Char, Text.isDigit d = false → c ≠ d := by
    rintro d hd rfl
    rw [hc] at hd
    cases hd
  rcases hsign with rfl | rfl | rfl
  · unfold readExponent
    split
    rename_i negative left hsplit
    split at hsplit
    · rename_i heq
      exact absurd (List.cons.inj heq).1 (hplain '+' (by decide))
    · rename_i heq
      exact absurd (List.cons.inj heq).1 (hplain '-' (by decide))
    · cases hsplit
      simp only [List.nil_append, htake, hdrop]
      exact ⟨_, rfl⟩
  · simp only [readExponent, List.cons_append, List.nil_append] at htake hdrop ⊢
    rw [htake, hdrop]
    exact ⟨_, rfl⟩
  · simp only [readExponent, List.cons_append, List.nil_append] at htake hdrop ⊢
    rw [htake, hdrop]
    exact ⟨_, rfl⟩

theorem skipExponent_of_follows {rest : List Char} (h : Follows rest) :
    skipExponent rest = .ok rest := by
  cases rest with
  | nil => rfl
  | cons c rest =>
    unfold skipExponent
    dsimp only
    rw [if_neg (h.ends rfl).2]

theorem skipExponent_of_isExponent {exponent rest : List Char} (h : IsExponent exponent)
    (hrest : Follows rest) : skipExponent (exponent ++ rest) = .ok rest := by
  rcases h with rfl | ⟨mark, sign, digits, rfl, hmark, hsign, hdigits⟩
  · exact skipExponent_of_follows hrest
  · obtain ⟨n, hread⟩ := readExponent_of_digits hsign hdigits hrest
    rw [List.cons_append, List.append_assoc]
    unfold skipExponent
    dsimp only
    rw [if_pos hmark, hread]

/-- Where the digits in front of an exponent end. -/
theorem ends_of_isExponent {exponent rest : List Char} (h : IsExponent exponent)
    (hrest : Follows rest) : ∀ c ∈ (exponent ++ rest).head?, Text.isDigit c = false ∧ c ≠ '.' := by
  intro c hc
  rcases h with rfl | ⟨mark, sign, digits, rfl, hmark, -, -⟩
  · refine ⟨(hrest.ends hc).1, ?_⟩
    rintro rfl
    exact absurd (hrest '.' hc) (by decide)
  · obtain rfl := Option.some.inj hc
    rcases hmark with rfl | rfl <;> decide

theorem isWhole_of_isWholePart {whole : List Char} (h : IsWholePart whole) :
    isWhole whole = true ∧ ∀ c ∈ whole, Text.isDigit c = true := by
  rcases h with rfl | ⟨hdigits, hzero⟩
  · exact ⟨rfl, List.forall_mem_singleton.mpr rfl⟩
  · refine ⟨?_, hdigits.2⟩
    unfold isWhole
    split
    · exact absurd rfl hdigits.1
    · exact absurd rfl hzero
    · rfl

/-- **A number is passed over to its end**, however many digits it has. -/
theorem skipNumber_of_isNumeral {cs rest : List Char} (h : IsNumeral cs) (hrest : Follows rest) :
    skipNumber (cs ++ rest) = .ok rest := by
  obtain ⟨sign, whole, fraction, exponent, rfl, hsign, hwhole, hfraction, hexponent⟩ := h
  obtain ⟨hisWhole, hdigits⟩ := isWhole_of_isWholePart hwhole
  have hends := ends_of_isExponent hexponent hrest
  have hskip := skipExponent_of_isExponent hexponent hrest
  -- What is left of the text once the sign is taken off.
  have hleft : ∀ cs : List Char,
      (if (sign ++ (whole ++ cs)).head? = some '-' then (sign ++ (whole ++ cs)).tail
        else sign ++ (whole ++ cs)) = whole ++ cs := by
    intro cs
    rcases hsign with rfl | rfl
    · obtain ⟨c, others, rfl, hc⟩ := hwhole.begins
      refine if_neg fun h => ?_
      rw [Option.some.inj h] at hc
      cases hc
    · rfl
  simp only [List.append_assoc]
  unfold skipNumber
  simp only [hleft]
  rcases hfraction with rfl | ⟨digits, rfl, hfraction⟩
  · obtain ⟨htake, hdrop⟩ := Text.span_append hdigits fun c hc => (hends c hc).1
    rw [List.nil_append, htake, hdrop, if_pos hisWhole]
    split
    · rename_i heq
      exact absurd rfl (hends '.' (by rw [heq]; rfl)).2
    · exact hskip
  · have hpoint : ∀ c ∈ ('.' :: digits ++ (exponent ++ rest)).head?, Text.isDigit c = false := by
      intro c hc
      obtain rfl := Option.some.inj hc
      decide
    obtain ⟨htake, hdrop⟩ := Text.span_append hdigits hpoint
    obtain ⟨htake', hdrop'⟩ := Text.span_append hfraction.2 fun c hc => (hends c hc).1
    rw [htake, hdrop, if_pos hisWhole]
    simp only [List.cons_append]
    rw [htake', hdrop', if_neg hfraction.1]
    exact hskip

/-! ## The walk -/

/-- From what a round came to, the walk goes on to its end and leaves `last`. -/
def WalkEnds (step : Text.Round SkipState Unit) (left last : List Char) : Prop :=
  match step with
  | .done () => left = last
  | .more state => Text.Rounds skipRound state left () last

theorem WalkEnds.rounds {state : SkipState} {cs left last : List Char}
    {step : Text.Round SkipState Unit} (h : WalkEnds step left last)
    (hround : skipRound state cs = .ok (step, left)) (hshorter : left.length < cs.length) :
    Text.Rounds skipRound state cs () last := by
  cases step with
  | done =>
    cases h
    exact .done hround
  | more next => exact .more hround hshorter h

/-- From before these characters the walk gets behind them, and goes on as it does from there. -/
def Passes (cs : List Char) : Prop :=
  ∀ around blanks rest last, Blank blanks → Follows rest →
    WalkEnds (SkipState.leave around) rest last →
    ∃ step left, skipFirst around (blanks ++ (cs ++ rest)) = .ok (step, left) ∧
      left.length < (blanks ++ (cs ++ rest)).length ∧ WalkEnds step left last

theorem skipFirst_blanks {blanks : List Char} (h : Blank blanks) (around : List Bracket)
    (cs : List Char) : skipFirst around (blanks ++ cs) = skipFirst around cs := by
  unfold skipFirst
  rw [skipSpace_append h]

/-- A value without parts is passed over in one round. -/
theorem passes_leaf {cs : List Char} (hne : cs ≠ [])
    (h : ∀ around rest, Follows rest →
      skipFirst around (cs ++ rest) = .ok (SkipState.leave around, rest)) : Passes cs := by
  intro around blanks rest last hblanks hrest hends
  refine ⟨_, rest, (skipFirst_blanks hblanks around _).trans (h around rest hrest), ?_, hends⟩
  have := List.length_pos_of_ne_nil hne
  simp only [List.length_append]
  omega

/-- Just inside a bracket, or after a part: the walk gets behind the next part. -/
def Enters (inner : Bracket) (part : List Char) : Prop :=
  ∀ around blanks rest last, Blank blanks → Follows rest →
    Text.Rounds skipRound (.after inner around) rest () last →
    ∃ step left, skipInto inner around (blanks ++ (part ++ rest)) = .ok (step, left) ∧
      left.length < (blanks ++ (part ++ rest)).length ∧ WalkEnds step left last

theorem Bracket.closing_eq (inner : Bracket) : inner.closing = ']' ∨ inner.closing = '}' := by
  cases inner <;> simp [closing]

theorem Bracket.isSpace_closing (inner : Bracket) : isSpace inner.closing = false := by
  cases inner <;> rfl

/-- Blanks and then a comma or a closing bracket. -/
theorem follows_blanks {blanks : List Char} (h : Blank blanks) {c : Char}
    (hc : c = ',' ∨ c = ']' ∨ c = '}') (rest : List Char) : Follows (blanks ++ c :: rest) := by
  intro d hd
  cases blanks with
  | nil =>
    obtain rfl := Option.some.inj hd
    rcases hc with hc | hc | hc
    · exact .inl hc
    · exact .inr (.inl hc)
    · exact .inr (.inr (.inl hc))
  | cons b blanks =>
    obtain rfl := Option.some.inj hd
    exact .inr (.inr (.inr (h _ List.mem_cons_self)))

/-- After a part there is a comma, or what closes the list or object. -/
theorem Inside.follows {closing : Char} {parts : List (List Char)} {cs : List Char}
    (h : Inside closing false parts cs) (hclosing : closing = ']' ∨ closing = '}')
    (rest : List Char) : Follows (cs ++ rest) := by
  cases h with
  | close hblanks =>
    rw [List.append_assoc]
    exact follows_blanks hblanks (.inr hclosing) rest
  | next hbefore hafter others =>
    rw [List.append_assoc]
    exact follows_blanks hbefore (.inl rfl) _

/-- Where the walk is inside a bracket. -/
def SkipState.inside (isFirst : Bool) (inner : Bracket) (around : List Bracket) : SkipState :=
  if isFirst then .opened inner around else .after inner around

/-- **The walk gets behind the closing bracket**, part by part. -/
theorem Inside.rounds {inner : Bracket} {isFirst : Bool} {parts : List (List Char)}
    {cs : List Char} (h : Inside inner.closing isFirst parts cs)
    (hparts : ∀ part ∈ parts, Enters inner part ∧ StartsPart inner.closing part)
    {around : List Bracket} {rest last : List Char}
    (hends : WalkEnds (SkipState.leave around) rest last) :
    Text.Rounds skipRound (.inside isFirst inner around) (cs ++ rest) () last := by
  have hspace := inner.isSpace_closing
  induction h with
  | @close isFirst blanks hblanks =>
    have hround : skipRound (.inside isFirst inner around) (blanks ++ [inner.closing] ++ rest) =
        .ok (SkipState.leave around, rest) := by
      rw [List.append_assoc]
      cases isFirst <;> simp [skipRound, SkipState.inside, skipSpace_blanks hblanks hspace]
    refine hends.rounds hround ?_
    simp only [List.length_append, List.length_singleton]
    omega
  | @first blanks part cs parts hblanks others ih =>
    obtain ⟨henters, c, tail, rfl, hc, hclosing⟩ := hparts _ List.mem_cons_self
    have hmore := ih fun part hpart => hparts part (List.mem_cons_of_mem _ hpart)
    obtain ⟨step, left, hinto, hshorter, hwalk⟩ :=
      henters around [] (cs ++ rest) last .nil (others.follows inner.closing_eq rest) hmore
    have hround : skipRound (.inside true inner around)
        (blanks ++ (c :: tail ++ cs) ++ rest) = .ok (step, left) := by
      rw [← hinto]
      simp [skipRound, SkipState.inside, skipSpace_blanks hblanks hc, hclosing]
    refine hwalk.rounds hround ?_
    simp only [List.length_append, List.length_nil] at hshorter ⊢
    omega
  | @next before after part cs parts hbefore hafter others ih =>
    obtain ⟨henters, -⟩ := hparts _ List.mem_cons_self
    have hmore := ih fun part hpart => hparts part (List.mem_cons_of_mem _ hpart)
    obtain ⟨step, left, hinto, hshorter, hwalk⟩ :=
      henters around after (cs ++ rest) last hafter (others.follows inner.closing_eq rest) hmore
    have hcomma : ',' ≠ inner.closing := by
      cases inner <;> decide
    have hround : skipRound (.inside false inner around)
        (before ++ ',' :: (after ++ (part ++ cs)) ++ rest) = .ok (step, left) := by
      rw [← hinto, List.append_assoc]
      simp [skipRound, SkipState.inside, skipSpace_blanks hbefore, isSpace, hcomma]
    refine hwalk.rounds hround ?_
    simp only [List.length_append, List.length_cons] at hshorter ⊢
    omega

/-! ## Every value -/

/-- In a list the parts are values. -/
theorem Passes.enters {cs : List Char} (h : Passes cs) : Enters .list cs := by
  intro around blanks rest last hblanks hrest hrounds
  exact h (.list :: around) blanks rest last hblanks hrest hrounds

/-- A list or an object is passed over if its parts are. -/
theorem Inside.passes (inner : Bracket) {opening : Char} {parts : List (List Char)}
    {cs : List Char} (hopening : ∀ around cs, skipFirst around (opening :: cs) =
      .ok (.more (.opened inner around), cs))
    (h : Inside inner.closing true parts cs)
    (hparts : ∀ part ∈ parts, Enters inner part ∧ StartsPart inner.closing part) :
    Passes (opening :: cs) := by
  intro around blanks rest last hblanks hrest hends
  refine ⟨_, cs ++ rest, (skipFirst_blanks hblanks around _).trans (hopening around _), ?_,
    h.rounds hparts hends⟩
  simp only [List.length_append, List.length_cons]
  omega

theorem skipFirst_number {c : Char} (hc : c = '-' ∨ Text.isDigit c = true)
    (around : List Bracket) (cs : List Char) :
    skipFirst around (c :: cs) = (skipNumber (c :: cs)).map (SkipState.leave around, ·) := by
  unfold skipFirst
  rw [skipSpace_cons (isSpace_of_begins hc)]
  dsimp only
  split <;> rename_i heq
  · cases heq
  iterate 6 exact absurd (List.cons.inj heq).1 (ne_of_begins hc (by decide))
  · cases heq
    exact if_pos hc

/-- A member is its key, a colon and its value. -/
theorem MemberText.enters (m : MemberText) (h : Passes m.value) : Enters .object m.chars := by
  intro around blanks rest last hblanks hrest hrounds
  obtain ⟨step, left, hfirst, hshorter, hends⟩ :=
    h (.object :: around) m.after rest last m.isBlank.2 hrest hrounds
  have hinto : skipInto .object around (blanks ++ (m.chars ++ rest)) =
      .ok (.more (.value (.object :: around)), m.after ++ (m.value ++ rest)) := by
    unfold skipInto
    dsimp only
    rw [m.chars_append, skipSpace_blanks hblanks (by decide)]
    simp only [skipText_pieces, m.readColon_chars]
    rfl
  refine ⟨_, _, hinto, ?_, hends.rounds hfirst hshorter⟩
  simp only [MemberText.chars, List.length_append, List.length_cons]
  omega

/-- **Every value is passed over**, as it may be written. -/
theorem Tree.Written.passes {t : Tree} {cs : List Char} (h : t.Written cs) : Passes cs := by
  induction h with
  | null => exact passes_leaf (by simp) fun _ _ _ => rfl
  | no => exact passes_leaf (by simp) fun _ _ _ => rfl
  | yes => exact passes_leaf (by simp) fun _ _ _ => rfl
  | number isNumeral =>
    obtain ⟨c, others, rfl, hc⟩ := isNumeral.begins
    refine passes_leaf (List.cons_ne_nil c others) fun around rest hrest => ?_
    rw [List.cons_append, skipFirst_number hc around, ← List.cons_append,
      skipNumber_of_isNumeral isNumeral hrest]
    rfl
  | text isText =>
    refine passes_leaf (List.cons_ne_nil _ _) fun around rest _ => ?_
    rw [quoted_append]
    show (skipText _).map _ = _
    rw [skipText_pieces]
    rfl
  | list each inside ih =>
    refine Inside.passes .list (fun _ _ => rfl) inside fun part hpart => ?_
    obtain ⟨item, hitem, rfl⟩ := List.mem_map.mp hpart
    exact ⟨(ih item hitem).enters, (each item hitem).startsPart⟩
  | object each inside ih =>
    refine Inside.passes .object (fun _ _ => rfl) inside fun part hpart => ?_
    obtain ⟨m, hm, rfl⟩ := List.mem_map.mp hpart
    exact ⟨m.enters (ih m hm), _, _, rfl, by decide, by decide⟩

/-- What is passed over is the value. -/
theorem Tree.Written.skipValue {t : Tree} {cs : List Char} (h : t.Written cs)
    {blanks rest : List Char} (hblanks : Blank blanks) (hrest : Follows rest) :
    Json.skipValue (blanks ++ (cs ++ rest)) = .ok rest := by
  obtain ⟨step, left, hfirst, hshorter, hends⟩ := h.passes [] blanks rest rest hblanks hrest rfl
  have hrounds : Text.Rounds skipRound (.value []) (blanks ++ (cs ++ rest)) () rest :=
    hends.rounds hfirst hshorter
  unfold Json.skipValue Json.loop
  rw [hrounds.loop]
  rfl

end TriggerFlow.Json
