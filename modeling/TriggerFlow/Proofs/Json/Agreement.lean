import TriggerFlow.Json.Record
import TriggerFlow.Proofs.Json.Skip

/-!
# Readers and trees

A reader agrees with a function on trees if it finds in every text what the function makes of the
tree that is written there, and fails where the function does. **Agreement goes together as readers
do**: a list agrees if its items do, a record if its fields do, in whichever of its forms it stands
and whatever else stands in it.
-/

set_option autoImplicit false

namespace TriggerFlow.Json

variable {α σ : Type}

/-- The reader finds what the function makes of the tree, however it is written, and leaves what
follows; it fails where the function gives nothing. -/
def Agrees (reader : Reader α) (ofTree : Tree → Option α) : Prop :=
  ∀ ⦃t cs⦄, t.Written cs → ∀ blanks rest, Blank blanks → Follows rest →
    (reader (blanks ++ (cs ++ rest))).toOption = (ofTree t).map (·, rest)

theorem Agrees.map {β : Type} {reader : Reader α} {ofTree : Tree → Option α}
    (h : Agrees reader ofTree) (f : α → β) :
    Agrees (fun cs => (reader cs).map fun (a, rest) => (f a, rest))
      (fun t => (ofTree t).map f) := by
  intro t cs ht blanks rest hblanks hrest
  have hread := h ht blanks rest hblanks hrest
  dsimp only
  cases hread' : reader (blanks ++ (cs ++ rest)) <;> rw [hread'] at hread <;>
    cases hof : ofTree t <;> rw [hof] at hread <;> cases hread
  · rfl
  · rfl

/-- What is read from a whole text is what its tree is, with blanks around it or not. -/
theorem Agrees.readAll {reader : Reader α} {ofTree : Tree → Option α} (h : Agrees reader ofTree)
    {t : Tree} {cs before after : List Char} (ht : t.Written cs) (hbefore : Blank before)
    (hafter : Blank after) :
    (Json.readAll reader (String.ofList (before ++ (cs ++ after)))).toOption = ofTree t := by
  have hfollows : Follows after :=
    fun c hc => .inr (.inr (.inr (hafter c (List.mem_of_mem_head? hc))))
  have hread := h ht before after hbefore hfollows
  have hskip : skipSpace after = [] := by
    have happend := skipSpace_append hafter []
    rwa [List.append_nil] at happend
  unfold Json.readAll
  rw [String.toList_ofList]
  cases hof : ofTree t with
  | none =>
    rw [hof] at hread
    obtain ⟨e, he⟩ := Text.eq_error_of_toOption hread
    rw [he]
    rfl
  | some a =>
    rw [hof] at hread
    rw [Text.eq_ok_of_toOption hread]
    dsimp only
    rw [if_pos hskip]
    rfl

/-! ## Values without parts -/

/-- The text of a tree that is one. -/
def Tree.text? : Tree → Option String
  | .text s => s
  | _ => none

/-- The text of a tree that is one, or `null` in its place. -/
def Tree.optionalText? : Tree → Option (Option String)
  | .null => some none
  | .text s => s.map some
  | _ => none

theorem Tree.Opens.skipSpace {t : Tree} {c : Char} (h : t.Opens c) {blanks : List Char}
    (hblanks : Blank blanks) (cs : List Char) : skipSpace (blanks ++ c :: cs) = c :: cs :=
  skipSpace_blanks hblanks h.isSpace_eq cs

theorem readTextAs_eq {c : Char} (hc : isSpace c = false) {blanks : List Char}
    (hblanks : Blank blanks) (expected : String) (cs : List Char) :
    (readTextAs expected (blanks ++ c :: cs)).toOption =
      if c = '"' then (readText cs).toOption else none := by
  unfold readTextAs
  rw [skipSpace_blanks hblanks hc]
  split
  · rename_i heq
    cases heq
    rfl
  · rename_i hquote
    rw [if_neg fun h => hquote cs (by rw [h])]
    rfl

theorem agrees_string : Agrees readString Tree.text? := by
  intro t cs ht blanks rest hblanks hrest
  cases ht with
  | text isText =>
    have hread := readText_of_isText isText rest
    rw [quoted_append]
    unfold readString
    rw [readTextAs_eq (by decide) hblanks, if_pos rfl, hread]
    rfl
  | number isNumeral =>
    obtain ⟨c, others, rfl, hc⟩ := isNumeral.begins
    unfold readString
    rw [List.cons_append, readTextAs_eq (isSpace_of_begins hc) hblanks,
      if_neg (ne_of_begins hc (by decide))]
    rfl
  | null | no | yes | list | object =>
    unfold readString
    rw [List.cons_append, readTextAs_eq (by decide) hblanks, if_neg (by decide)]
    rfl

theorem agrees_optional : Agrees readOptionalString Tree.optionalText? := by
  intro t cs ht blanks rest hblanks hrest
  obtain ⟨c, others, rfl, hc⟩ := ht.begins
  have hstring := agrees_string.map some ht [] rest .nil hrest
  cases t with
  | null =>
    cases ht
    unfold readOptionalString
    rw [List.cons_append, hc.skipSpace hblanks]
    rfl
  | text | bool | number | list | object =>
    -- Anything but `null` is read as a text would be.
    rw [List.nil_append, List.cons_append] at hstring
    unfold readOptionalString
    rw [List.cons_append, hc.skipSpace hblanks]
    split
    · rename_i heq
      cases hc.kind.1 (List.cons.inj heq).1
    · exact hstring

/-! ## Between parts -/

variable {isFirst : Bool} {part cs : List Char} {parts : List (List Char)}

/-- No part is left, so it does not matter whether there was one. -/
theorem Inside.close_anywhere {closing : Char} (h : Inside closing isFirst [] cs)
    {isFirst' : Bool} : Inside closing isFirst' [] cs := by
  cases h with
  | close hblanks => exact .close hblanks

theorem nextItem_blanks {blanks : List Char} (h : Blank blanks) (cs : List Char) :
    nextItem isFirst (blanks ++ cs) = nextItem isFirst cs := by
  unfold nextItem
  rw [skipSpace_append h]

theorem nextItem_close (h : Inside ']' isFirst [] cs) (rest : List Char) :
    nextItem isFirst (cs ++ rest) = .ok none ∧ closeList (cs ++ rest) = .ok rest := by
  cases h with
  | close hblanks =>
    rw [List.append_assoc]
    exact ⟨nextItem_end hblanks isFirst rest, closeList_end hblanks rest⟩

theorem nextItem_part (h : Inside ']' isFirst (part :: parts) cs) (hpart : StartsPart ']' part)
    (rest : List Char) : ∃ left, Inside ']' false parts left ∧
      nextItem isFirst (cs ++ rest) = .ok (some (part ++ (left ++ rest))) ∧
      (left ++ rest).length < (cs ++ rest).length ∧ ∃ e, closeList (cs ++ rest) = .error e := by
  obtain ⟨c, tail, rfl, hspace, hclosing⟩ := hpart
  cases h with
  | @first blanks _ left _ hblanks others =>
    refine ⟨left, others, ?_, ?_, ?_⟩
    · rw [List.append_assoc, List.append_assoc]
      exact nextItem_first hblanks ⟨c, tail, rfl, hspace, hclosing⟩ _
    · simp only [List.length_append, List.length_cons]
      omega
    · refine ⟨.malformed, ?_⟩
      unfold closeList
      rw [List.append_assoc, List.append_assoc, List.cons_append, skipSpace_blanks hblanks hspace]
      split
      · rename_i heq
        exact absurd (List.cons.inj heq).1 hclosing
      · rename_i heq
        cases heq
      · rfl
  | @next before after _ left _ hbefore hafter others =>
    refine ⟨left, others, ?_, ?_, ?_⟩
    · rw [List.append_assoc, nextItem_blanks hbefore, List.cons_append, List.append_assoc,
        List.append_assoc]
      exact nextItem_later hafter ⟨c, tail, rfl, hspace, hclosing⟩ _
    · simp only [List.length_append, List.length_cons]
      omega
    · refine ⟨.malformed, ?_⟩
      unfold closeList
      rw [List.append_assoc, List.cons_append, skipSpace_blanks hbefore (by decide)]
      rfl

/-! ## Lists -/

/-- What a function makes of the items of a tree that is a list. -/
def Tree.items? (ofTree : Tree → Option α) : Tree → Option (List α)
  | .list items => items.mapM ofTree
  | _ => none

theorem ends_items {reader : Reader α} {ofTree : Tree → Option α} (h : Agrees reader ofTree)
    {items : List (Tree × List Char)} (hitems : ∀ item ∈ items, item.1.Written item.2)
    (rest : List Char) : ∀ (done : List α) {cs : List Char},
      Inside ']' done.isEmpty (items.map (·.2)) cs →
      Text.Ends (itemRound reader) done (cs ++ rest)
        (((items.map (·.1)).mapM ofTree).map fun as => (done.reverse ++ as, rest)) := by
  induction items with
  | nil =>
    intro done cs hinside
    obtain ⟨hnext, hclose⟩ := nextItem_close hinside rest
    have hround : itemRound reader done (cs ++ rest) = .ok (.done done.reverse, rest) := by
      unfold itemRound
      rw [hnext]
      dsimp only
      rw [hclose]
      rfl
    simpa using Text.Ends.done hround
  | cons item items ih =>
    intro done cs hinside
    have hitem := hitems item List.mem_cons_self
    obtain ⟨left, hothers, hnext, hshorter, -⟩ := nextItem_part hinside hitem.startsPart rest
    have hread := h hitem [] (left ++ rest) .nil (hothers.follows (.inl rfl) rest)
    rw [List.nil_append] at hread
    cases hof : ofTree item.1 with
    | none =>
      rw [hof] at hread
      obtain ⟨e, he⟩ := Text.eq_error_of_toOption hread
      have hround : itemRound reader done (cs ++ rest) = .error e := by
        unfold itemRound
        rw [hnext]
        dsimp only
        rw [he]
        rfl
      simpa [hof] using Text.Ends.broken hround
    | some a =>
      rw [hof] at hread
      have hok := Text.eq_ok_of_toOption hread
      have hround : itemRound reader done (cs ++ rest) = .ok (.more (a :: done), left ++ rest) := by
        unfold itemRound
        rw [hnext]
        dsimp only
        rw [hok]
        rfl
      have hmore := ih (fun i hi => hitems i (List.mem_cons_of_mem item hi)) (a :: done) hothers
      have hall : (((item :: items).map (·.1)).mapM ofTree).map (fun as =>
          (done.reverse ++ as, rest)) =
          (((items.map (·.1)).mapM ofTree).map fun as => ((a :: done).reverse ++ as, rest)) := by
        rw [List.map_cons, List.mapM_cons, hof]
        cases (items.map (·.1)).mapM ofTree <;> simp
      rw [hall]
      exact .more hround hshorter hmore

/-- **A list agrees if its items do.** -/
theorem agrees_list {reader : Reader α} {ofTree : Tree → Option α} (h : Agrees reader ofTree) :
    Agrees (readList reader) (Tree.items? ofTree) := by
  intro t cs ht blanks rest hblanks hrest
  obtain ⟨c, others, rfl, hc⟩ := ht.begins
  unfold readList
  rw [List.cons_append, hc.skipSpace hblanks]
  cases t with
  | list items =>
    cases ht with
    | list each inside => exact (ends_items h each rest [] inside).loop _
  | null | bool | number | text | object =>
    split
    · rename_i heq
      obtain ⟨items, hitems⟩ := hc.kind.2.1 (List.cons.inj heq).1
      cases hitems
    · rfl

/-! ## Records -/

namespace Record

/-- What a record makes of one member. The value of a known key is decoded into the state, and a
second one is refused; any other changes nothing. -/
def ofMember (r : Record σ) (decode : String → σ → Tree → Option σ) (state : σ) (key : String)
    (t : Tree) : Option σ :=
  match r.fields.find? (·.key = key) with
  | some field => if field.isSet state then none else decode field.key state t
  | none => some state

/-- What a record makes of members one after the other, from a state on. No key may be half a
pair, and nothing may be missing in the end. -/
def ofMembers (r : Record σ) (decode : String → σ → Tree → Option σ) :
    σ → List (Option String × Tree) → Option σ
  | state, [] => if (r.missing? state).isSome then none else some state
  | _, (none, _) :: _ => none
  | state, (some key, t) :: members =>
    (r.ofMember decode state key t).bind fun next => ofMembers r decode next members

/-- What a record makes of a list, item by item for the fields in their order. -/
def ofItems (decode : String → σ → Tree → Option σ) :
    List (Field σ) → σ → List Tree → Option σ
  | [], state, [] => some state
  | [], _, _ :: _ => none
  | field :: fields, state, [] =>
    if field.isRequired then none else ofItems decode fields state []
  | field :: fields, state, t :: items =>
    (decode field.key state t).bind fun next => ofItems decode fields next items

/-- What a record makes of a tree, in either form. -/
def ofTree (r : Record σ) (decode : String → σ → Tree → Option σ) : Tree → Option σ
  | .object members => r.ofMembers decode r.blank members
  | .list items => ofItems decode r.fields r.blank items
  | _ => none

variable {r : Record σ} {decode : String → σ → Tree → Option σ}

theorem nextKey_blanks {isFirst : Bool} {blanks : List Char} (h : Blank blanks) (cs : List Char) :
    nextKey isFirst (blanks ++ cs) = nextKey isFirst cs := by
  unfold nextKey
  rw [skipSpace_append h]

/-- The key of the next member is read where a member is written. -/
theorem nextKey_member {isFirst : Bool} {m : MemberText} {parts : List (List Char)}
    {cs : List Char} (h : Inside '}' isFirst (m.chars :: parts) cs) (rest : List Char) :
    ∃ left, Inside '}' false parts left ∧ (left ++ rest).length < (cs ++ rest).length ∧
      (nextKey isFirst (cs ++ rest)).toOption = m.key.map fun key =>
        some (key, m.before ++ ':' :: (m.after ++ (m.value ++ (left ++ rest)))) := by
  have hkey : ∀ left : List Char, ((readText (piecesChars m.pieces left)).map some).toOption =
      m.key.map fun key => some (key, left) := by
    intro left
    have hread := readText_of_isText m.isKey left
    cases hkey : m.key <;> rw [hkey] at hread
    · obtain ⟨e, he⟩ := Text.eq_error_of_toOption hread
      rw [he]
      rfl
    · rw [Text.eq_ok_of_toOption hread]
      rfl
  cases h with
  | @first blanks _ left _ hblanks others =>
    refine ⟨left, others, ?_, ?_⟩
    · simp only [MemberText.chars, List.length_append, List.length_cons]
      omega
    · rw [List.append_assoc, nextKey_blanks hblanks, List.append_assoc, m.chars_append, ← hkey]
      unfold nextKey
      rw [skipSpace_cons (by decide)]
      rfl
  | @next before after _ left _ hbefore hafter others =>
    refine ⟨left, others, ?_, ?_⟩
    · simp only [List.length_append, List.length_cons]
      omega
    · rw [List.append_assoc, nextKey_blanks hbefore, List.cons_append, List.append_assoc,
        List.append_assoc, m.chars_append, ← hkey]
      have hskip := skipSpace_blanks hafter (show isSpace '"' = false by decide)
        (piecesChars m.pieces (m.before ++ ':' :: (m.after ++ (m.value ++ (left ++ rest)))))
      unfold nextKey
      rw [skipSpace_cons (by decide)]
      simp [hskip]

theorem readMember_agrees (h : ∀ field ∈ r.fields, ∀ state,
    Agrees (field.read state) (decode field.key state)) (m : MemberText)
    (hm : m.tree.Written m.value) (state : σ) (key : String) {rest : List Char}
    (hrest : Follows rest) :
    (r.readMember state key (m.before ++ ':' :: (m.after ++ (m.value ++ rest)))).toOption =
      (r.ofMember decode state key m.tree).map (·, rest) := by
  unfold readMember ofMember
  cases hfind : r.fields.find? (·.key = key) with
  | some field =>
    dsimp only
    split
    · rfl
    · rw [m.readColon_chars]
      exact h field (List.mem_of_find?_eq_some hfind) state hm _ _ m.isBlank.2 hrest
  | none =>
    dsimp only
    rw [m.readColon_chars]
    dsimp only
    rw [hm.skipValue m.isBlank.2 hrest]
    rfl

theorem ends_members (h : ∀ field ∈ r.fields, ∀ state,
    Agrees (field.read state) (decode field.key state)) {members : List MemberText}
    (hmembers : ∀ m ∈ members, m.tree.Written m.value) (rest : List Char) :
    ∀ (isFirst : Bool) (state : σ) {cs : List Char},
      Inside '}' isFirst (members.map (·.chars)) cs →
      Text.Ends r.memberRound (isFirst, state) (cs ++ rest)
        ((r.ofMembers decode state (members.map fun m => (m.key, m.tree))).map (·, rest)) := by
  induction members with
  | nil =>
    intro isFirst state cs hinside
    cases hinside with
    | close hblanks =>
      rw [List.append_assoc, List.map_nil, ofMembers]
      cases hmissing : r.missing? state with
      | none => exact .done (memberRound_end hblanks isFirst hmissing rest)
      | some field =>
        have hnext := nextKey_end hblanks isFirst rest
        refine .broken (e := .mismatch (.missingField field.key)) ?_
        unfold memberRound
        dsimp only
        rw [List.singleton_append, hnext]
        dsimp only
        rw [hmissing]
  | cons m members ih =>
    intro isFirst state cs hinside
    obtain ⟨left, hothers, hshorter, hkey⟩ := nextKey_member hinside rest
    have hm := hmembers m List.mem_cons_self
    rw [List.map_cons]
    cases hname : m.key with
    | none =>
      rw [hname] at hkey
      obtain ⟨e, he⟩ := Text.eq_error_of_toOption hkey
      refine .broken (e := e) ?_
      unfold memberRound
      dsimp only
      rw [he]
    | some key =>
      rw [hname] at hkey
      have hnext := Text.eq_ok_of_toOption hkey
      have hmember := readMember_agrees h m hm state key (hothers.follows (.inr rfl) rest)
      rw [ofMembers]
      cases hof : r.ofMember decode state key m.tree with
      | none =>
        rw [hof] at hmember
        obtain ⟨e, he⟩ := Text.eq_error_of_toOption hmember
        refine .broken (e := e) ?_
        unfold memberRound
        dsimp only
        rw [hnext]
        dsimp only
        rw [he]
        rfl
      | some next =>
        rw [hof] at hmember
        exact .more (memberRound_of_reads hnext (Text.eq_ok_of_toOption hmember)) hshorter
          (ih (fun n hn => hmembers n (List.mem_cons_of_mem m hn)) false next hothers)

theorem readItems_agrees (rest : List Char) {fields : List (Field σ)}
    (h : ∀ field ∈ fields, ∀ state, Agrees (field.read state) (decode field.key state)) :
    ∀ (items : List (Tree × List Char)) (index : Nat) (state : σ) {cs : List Char},
      (∀ item ∈ items, item.1.Written item.2) →
      Inside ']' (index = 0) (items.map (·.2)) cs →
      (r.readItems fields index state (cs ++ rest)).toOption =
        (ofItems decode fields state (items.map (·.1))).map (·, rest) := by
  induction fields with
  | nil =>
    intro items index state cs hitems hinside
    unfold readItems
    cases items with
    | nil =>
      rw [(nextItem_close hinside rest).2]
      rfl
    | cons item items =>
      have hitem := hitems item List.mem_cons_self
      obtain ⟨-, -, -, -, e, he⟩ := nextItem_part hinside hitem.startsPart rest
      rw [he]
      rfl
  | cons field fields ih =>
    intro items index state cs hitems hinside
    have hfields := ih fun f hf => h f (List.mem_cons_of_mem field hf)
    unfold readItems
    cases items with
    | nil =>
      rw [(nextItem_close hinside rest).1]
      dsimp only
      rw [List.map_nil, ofItems]
      split
      · rfl
      · exact hfields [] (index + 1) state hitems hinside.close_anywhere
    | cons item items =>
      have hitem := hitems item List.mem_cons_self
      obtain ⟨left, hothers, hnext, -, -⟩ := nextItem_part hinside hitem.startsPart rest
      have hread := h field List.mem_cons_self state hitem [] (left ++ rest) .nil
        (hothers.follows (.inl rfl) rest)
      rw [List.nil_append] at hread
      rw [hnext, List.map_cons, ofItems]
      dsimp only
      cases hof : decode field.key state item.1 with
      | none =>
        rw [hof] at hread
        obtain ⟨e, he⟩ := Text.eq_error_of_toOption hread
        rw [he]
        rfl
      | some next =>
        rw [hof] at hread
        rw [Text.eq_ok_of_toOption hread]
        exact hfields items (index + 1) next (fun i hi => hitems i (List.mem_cons_of_mem item hi))
          (by simpa using hothers)

/-- **A record agrees if its fields do**, in whichever form it is written. -/
theorem agrees_read (h : ∀ field ∈ r.fields, ∀ state,
    Agrees (field.read state) (decode field.key state)) : Agrees r.read (r.ofTree decode) := by
  intro t cs ht blanks rest hblanks hrest
  obtain ⟨c, others, rfl, hc⟩ := ht.begins
  unfold Record.read
  rw [List.cons_append, hc.skipSpace hblanks]
  cases t with
  | object members =>
    cases ht with
    | object each inside => exact (ends_members h each rest true r.blank inside).loop _
  | list items =>
    cases ht with
    | list each inside => exact readItems_agrees rest h _ 0 r.blank each inside
  | null | bool | number | text =>
    split
    · rename_i heq
      obtain ⟨members, hmembers⟩ := hc.kind.2.2 (List.cons.inj heq).1
      cases hmembers
    · rename_i heq
      obtain ⟨items, hitems⟩ := hc.kind.2.1 (List.cons.inj heq).1
      cases hitems
    · rfl

end Record

end TriggerFlow.Json
