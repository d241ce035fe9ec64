import Mathlib.Data.List.Basic
import TriggerFlow.CommandLine

/-!
# What a run is given to read

There are answers on the command line and lines at the terminal. **Both come in as they were put
there**: the answers are the values that are written for them, from left to right, and the lines are
what stands between line breaks. Nothing else is taken off them than what ends a line.
-/

set_option autoImplicit false

namespace TriggerFlow.CommandLine

/-! ## Lines -/

/-- Takes a character off the end, once. -/
def chomp (c : Char) (cs : List Char) : List Char :=
  if cs.getLast? = some c then cs.dropLast else cs

/-- A text in pieces, each but the last with its line break, and the last one not empty. -/
structure IsCut (text : List Char) (pieces : List (List Char)) : Prop where
  whole : pieces.flatten = text
  filled : ∀ piece ∈ pieces, piece ≠ []
  broken : ∀ piece ∈ pieces.dropLast, piece.getLast? = some '\n'
  unbroken : ∀ piece ∈ pieces, '\n' ∉ piece.dropLast

namespace IsCut

variable {text piece : List Char} {pieces : List (List Char)}

theorem nil : IsCut [] [] where
  whole := rfl
  filled := by simp
  broken := by simp
  unbroken := by simp

/-- A break at the front is a piece. -/
theorem break_cons (h : IsCut text pieces) : IsCut ('\n' :: text) (['\n'] :: pieces) where
  whole := by rw [List.flatten_cons, h.whole]; rfl
  filled := by
    intro q hq
    rcases List.mem_cons.mp hq with rfl | hq
    · simp
    · exact h.filled q hq
  broken := by
    intro q hq
    cases pieces with
    | nil => simp at hq
    | cons p ps =>
      rw [List.dropLast_cons_of_ne_nil (List.cons_ne_nil p ps)] at hq
      rcases List.mem_cons.mp hq with rfl | hq
      · rfl
      · exact h.broken q hq
  unbroken := by
    intro q hq
    rcases List.mem_cons.mp hq with rfl | hq
    · simp
    · exact h.unbroken q hq

theorem singleton (c : Char) : IsCut [c] [[c]] where
  whole := rfl
  filled := by simp
  broken := by simp
  unbroken := by simp

/-- Any other character belongs to the piece that begins there. -/
theorem char_cons {c : Char} (hc : c ≠ '\n') (h : IsCut text (piece :: pieces)) :
    IsCut (c :: text) ((c :: piece) :: pieces) where
  whole := by
    rw [← h.whole]
    rfl
  filled := by
    intro q hq
    rcases List.mem_cons.mp hq with rfl | hq
    · simp
    · exact h.filled q (List.mem_cons_of_mem _ hq)
  broken := by
    intro q hq
    cases pieces with
    | nil => simp at hq
    | cons p ps =>
      have hbroken := h.broken
      rw [List.dropLast_cons_of_ne_nil (List.cons_ne_nil p ps)] at hq hbroken
      rcases List.mem_cons.mp hq with rfl | hq
      · have hne := h.filled piece List.mem_cons_self
        rw [List.getLast?_cons_of_ne_nil hne]
        exact hbroken piece List.mem_cons_self
      · exact hbroken q (List.mem_cons_of_mem _ hq)
  unbroken := by
    intro q hq
    rcases List.mem_cons.mp hq with rfl | hq
    · have hne := h.filled piece List.mem_cons_self
      rw [List.dropLast_cons_of_ne_nil hne]
      intro hmem
      rcases List.mem_cons.mp hmem with heq | hmem
      · exact hc heq.symm
      · exact h.unbroken piece List.mem_cons_self hmem
    · exact h.unbroken q (List.mem_cons_of_mem _ hq)

end IsCut

theorem chomp_cons {c a : Char} {cs : List Char} (h : cs ≠ []) :
    chomp c (a :: cs) = a :: chomp c cs := by
  unfold chomp
  rw [List.getLast?_cons_of_ne_nil h, List.dropLast_cons_of_ne_nil h]
  split <;> rfl

/-- **Every text can be cut**, and its lines are the pieces without their breaks. -/
theorem exists_isCut (text : List Char) :
    ∃ pieces, IsCut text pieces ∧ splitLines (· = '\n') text = pieces.map (chomp '\n') := by
  induction text with
  | nil => exact ⟨[], .nil, rfl⟩
  | cons c text ih =>
    obtain ⟨pieces, hcut, hsplit⟩ := ih
    by_cases hc : c = '\n'
    · subst hc
      refine ⟨['\n'] :: pieces, hcut.break_cons, ?_⟩
      rw [List.map_cons, ← hsplit]
      rfl
    · unfold splitLines
      rw [if_neg (by simpa using hc), hsplit]
      cases pieces with
      | nil =>
        obtain rfl : [] = text := hcut.whole
        refine ⟨[[c]], .singleton c, ?_⟩
        simp [chomp, hc]
      | cons piece pieces =>
        refine ⟨(c :: piece) :: pieces, hcut.char_cons hc, ?_⟩
        rw [List.map_cons, List.map_cons, chomp_cons (hcut.filled piece List.mem_cons_self)]

/-- **The lines of a text** are its pieces with one break taken off, and then one carriage return. -/
theorem linesOf_eq (s : String) :
    ∃ pieces, IsCut s.toList pieces ∧
      linesOf s = pieces.map fun piece => some (String.ofList (chomp '\r' (chomp '\n' piece))) := by
  obtain ⟨pieces, hcut, hsplit⟩ := exists_isCut s.toList
  refine ⟨pieces, hcut, ?_⟩
  unfold linesOf
  rw [hsplit, List.map_map]
  rfl

/-! ## Options -/

/-- An option is known by how it is written. -/
theorem Opt.written_inj {o o' : Opt} (h : "--" ++ o.long = "--" ++ o'.long) : o = o' := by
  cases o <;> cases o' <;> first | rfl | exact absurd h (by decide)

theorem Opt.not_mem_long (o : Opt) : '=' ∉ ("--" ++ o.long).toList := by
  cases o <;> decide

theorem Opt.takesValue_of_short? {o : Opt} {c : Char} (h : o.short? = some c) :
    o.takesValue = false := by
  cases o with
  | help | version | verbose => rfl
  | json | dataDirectory | strictStorage | pacing | answer | noWait | ids | localFile => cases h

/-! ## Answers -/

/-- The answer that an argument has with the option in front of it. -/
def attachedAnswer? (arg : String) : Option String :=
  ("--answer=".toList.isPrefixOf? arg.toList).map String.ofList

/-- The answers that are written on a command line, each in the argument of its option or in the one
after it. -/
def answersIn : List String → List String
  | [] => []
  | [arg] => (attachedAnswer? arg).toList
  | arg :: value :: args =>
    if arg = "--answer" then value :: answersIn args
    else (attachedAnswer? arg).toList ++ answersIn (value :: args)

theorem answersIn_answer (value : String) (args : List String) :
    answersIn ("--answer" :: value :: args) = value :: answersIn args := by
  rw [answersIn, if_pos rfl]

theorem answersIn_cons_of_ne {arg : String} (h : arg ≠ "--answer") (args : List String) :
    answersIn (arg :: args) = (attachedAnswer? arg).toList ++ answersIn args := by
  cases args with
  | nil => simp [answersIn]
  | cons value args => rw [answersIn, if_neg h]

theorem attachedAnswer?_eq_some_iff {arg value : String} :
    attachedAnswer? arg = some value ↔ arg = "--answer=" ++ value := by
  unfold attachedAnswer?
  rw [Option.map_eq_some_iff]
  constructor
  · rintro ⟨cs, hcs, rfl⟩
    have htext : (String.ofList cs).toList = cs := String.toList_ofList
    rw [← String.toList_inj, String.toList_append, htext]
    exact (List.isPrefixOf?_eq_some_iff_append_eq.mp hcs).symm
  · rintro rfl
    refine ⟨value.toList, ?_, String.ofList_toList⟩
    rw [List.isPrefixOf?_eq_some_iff_append_eq, String.toList_append]

/-- An argument that has nothing to do with answers. -/
structure IsSilent (arg : String) : Prop where
  apart : arg ≠ "--answer"
  attached : ∀ value, arg ≠ "--answer=" ++ value

theorem IsSilent.answersIn_cons {arg : String} (h : IsSilent arg) (args : List String) :
    answersIn (arg :: args) = answersIn args := by
  have hnone : attachedAnswer? arg = none :=
    Option.eq_none_iff_forall_ne_some.mpr fun value heq =>
      h.attached value (attachedAnswer?_eq_some_iff.mp heq)
  rw [answersIn_cons_of_ne h.apart, hnone]
  rfl

theorem answersIn_attached (value : String) (args : List String) :
    answersIn (("--answer=" ++ value) :: args) = value :: answersIn args := by
  have hne : "--answer=" ++ value ≠ "--answer" := by
    simp [← String.toList_inj]
  rw [answersIn_cons_of_ne hne, attachedAnswer?_eq_some_iff.mpr rfl]
  rfl

theorem isSilent_of_plain {arg : String} (h : ∀ c cs, arg.toList ≠ '-' :: c :: cs) :
    IsSilent arg where
  apart := by
    rintro rfl
    exact h _ _ rfl
  attached := by
    rintro value rfl
    exact h '-' ("answer=".toList ++ value.toList) (by simp)

theorem isSilent_letters {c : Char} (hc : c ≠ '-') (cs : List Char) :
    IsSilent (String.ofList ('-' :: c :: cs)) where
  apart := by
    simp [← String.toList_inj, hc]
  attached := by
    simp [← String.toList_inj, hc]

theorem isSilent_long {o : Opt} (ho : o ≠ .answer) : IsSilent ("--" ++ o.long) where
  apart := by
    intro heq
    have hanswer : o = .answer := Opt.written_inj heq
    exact ho hanswer
  attached := by
    intro value heq
    refine o.not_mem_long ?_
    rw [heq]
    simp

theorem isSilent_attached {o : Opt} (takes : o.takesValue = true) (ho : o ≠ .answer)
    (value : String) : IsSilent ("--" ++ o.long ++ "=" ++ value) where
  apart := by
    intro heq
    refine Opt.not_mem_long .answer ?_
    show '=' ∈ "--answer".toList
    rw [← heq]
    simp
  attached := by
    intro other
    cases o with
    | dataDirectory | pacing => simp [← String.toList_inj, Opt.long]
    | answer => exact absurd rfl ho
    | help | version | verbose | json | strictStorage | noWait | ids | localFile => cases takes

/-! ## What one level takes -/

namespace Taken

theorem values_cons (o o' : Opt) (value : String) (t : Taken) :
    ({ t with options := (o, value) :: t.options } : Taken).values o' =
      t.values o' ++ if o = o' then [value] else [] := by
  unfold values
  by_cases h : o = o' <;> simp [h]

theorem has_iff (t : Taken) (o : Opt) : t.has o = true ↔ t.values o ≠ [] := by
  simp [has, values, List.filter_eq_nil_iff]

theorem of_command?_eq_run {t : Taken} {l : Level} {answers : List String} {waits : Bool}
    (h : t.command? l = some (.run answers waits)) :
    l = .run ∧ answers = t.values .answer ∧ waits = !t.has .noWait := by
  unfold command? at h
  cases l with
  | run =>
    cases h
    exact ⟨rfl, rfl, rfl⟩
  | move =>
    obtain ⟨source, -, h⟩ := Option.bind_eq_some_iff.mp h
    obtain ⟨target, -, h⟩ := Option.bind_eq_some_iff.mp h
    cases h
  | remove =>
    obtain ⟨position, -, h⟩ := Option.map_eq_some_iff.mp h
    cases h
  | program | actions | «show» | label | add | clear | storage | config | configShow
  | configWhich | configInit | configPath => simp at h

end Taken

theorem exists_of_bind_eq_ok {ε α β : Type} {x : Except ε α} {f : α → Except ε β} {b : β}
    (h : x >>= f = .ok b) : ∃ a, x = .ok a ∧ f a = .ok b := by
  cases x with
  | error e => cases h
  | ok a => exact ⟨a, rfl, h⟩

namespace State

/-- The values of an option that have come so far, the one that is not judged yet included. -/
def given (o : Opt) (s : State) : List String :=
  s.taken.values o ++ match s.pending with
    | some (.option o' value) => if o' = o then [value] else []
    | _ => []

/-- The argument that stands before one that is waited for. -/
def owed (s : State) : List String :=
  match s.pending with
  | some (.waiting o) => ["--" ++ o.long]
  | _ => []

variable {l : Level} {s t : State} {o : Opt} {value arg : String}

theorem given_of_settled (h : s.pending = none) (o : Opt) : s.given o = s.taken.values o := by
  unfold given
  rw [h]
  exact List.append_nil _

theorem owed_of_settled (h : s.pending = none) : s.owed = [] := by
  unfold owed
  rw [h]

theorem addOption_eq_ok (h : s.addOption o value = .ok t) :
    t.pending = s.pending ∧
      ∀ o', t.taken.values o' = s.taken.values o' ++ if o = o' then [value] else [] := by
  unfold addOption at h
  split at h
  · cases h
  · cases h
    exact ⟨rfl, fun o' => Taken.values_cons o o' value s.taken⟩

/-- **What is pending is judged** and stays given. -/
theorem settle_eq_ok (hl : l.positions = []) (h : s.settle l = .ok t) :
    s.owed = [] ∧ t.pending = none ∧ ∀ o, t.taken.values o = s.given o := by
  unfold settle at h
  dsimp only at h
  cases hp : s.pending with
  | none =>
    rw [hp] at h
    cases h
    exact ⟨owed_of_settled hp, hp, fun o => (given_of_settled hp o).symm⟩
  | some pending =>
    rw [hp] at h
    cases pending with
    | waiting o => cases h
    | option o value =>
      obtain ⟨hpending, hvalues⟩ := addOption_eq_ok h
      refine ⟨by unfold owed; rw [hp], hpending, fun o' => ?_⟩
      unfold given
      rw [hp]
      exact hvalues o'
    | position value =>
      dsimp only at h
      rw [hl] at h
      cases h

theorem takePosition_ne_ok (hl : l.positions = []) : s.takePosition l value ≠ .ok t := by
  intro h
  obtain ⟨settled, -, h⟩ := exists_of_bind_eq_ok h
  rw [hl] at h
  cases h

/-- What the values of an option are after one more was given, for this option or another. -/
def Gives (s t : State) (o : Opt) (value : String) : Prop :=
  ∀ o', t.given o' = s.given o' ++ if o = o' then [value] else []

/-- An option has not come. -/
def Lacks (o : Opt) (s : State) : Prop :=
  s.given o = [] ∧ "--" ++ o.long ∉ s.owed

/-- What one argument comes to that is neither a position nor the end of the options. -/
inductive Took (l : Level) (s t : State) : String → Prop where
  /-- Letters after one hyphen. -/
  | letters {c : Char} {cs : List Char} (hc : c ≠ '-') (before : s.owed = []) (after : t.owed = [])
      (same : ∀ o : Opt, o.short? = none → t.given o = s.given o) :
      Took l s t (String.ofList ('-' :: c :: cs))
  /-- An option of which the value is the next argument. -/
  | apart {o : Opt} (ho : o ∈ l.options) (before : s.owed = []) (after : t.owed = ["--" ++ o.long])
      (same : ∀ o : Opt, t.given o = s.given o) : Took l s t ("--" ++ o.long)
  | flag {o : Opt} (ho : o ∈ l.options) (takes : o.takesValue = false) (before : s.owed = [])
      (after : t.owed = []) (gives : s.Gives t o "") : Took l s t ("--" ++ o.long)
  | attached {o : Opt} {value : String} (ho : o ∈ l.options) (takes : o.takesValue = true)
      (before : s.owed = []) (after : t.owed = []) (gives : s.Gives t o value) :
      Took l s t ("--" ++ o.long ++ "=" ++ value)
  /-- The value that was waited for; it does not look like an option. -/
  | value {o : Opt} {arg : String} (plain : ∀ c cs, arg.toList ≠ '-' :: c :: cs)
      (before : s.owed = ["--" ++ o.long]) (after : t.owed = []) (gives : s.Gives t o arg) :
      Took l s t arg

theorem takeOption_eq_ok {attached : Option String} (hl : l.positions = [])
    (h : s.takeOption l o attached = .ok t) :
    s.owed = [] ∧ match attached with
      | some value => o.takesValue = true ∧ t.owed = [] ∧ s.Gives t o value
      | none =>
        o.takesValue = true ∧ t.owed = ["--" ++ o.long] ∧ (∀ o', t.given o' = s.given o') ∨
          o.takesValue = false ∧ t.owed = [] ∧ s.Gives t o "" := by
  -- What was pending is settled before anything is added.
  have adds {settled : State} {value : String} (hpending : settled.pending = none)
      (hvalues : ∀ o, settled.taken.values o = s.given o)
      (hadd : settled.addOption o value = .ok t) : t.owed = [] ∧ s.Gives t o value := by
    obtain ⟨hsame, hadded⟩ := addOption_eq_ok hadd
    have hnone := hsame.trans hpending
    refine ⟨owed_of_settled hnone, fun o' => ?_⟩
    rw [given_of_settled hnone, hadded, hvalues]
  unfold takeOption at h
  cases htakes : o.takesValue with
  | true =>
    rw [if_pos htakes] at h
    obtain ⟨settled, hsettle, h⟩ := exists_of_bind_eq_ok h
    obtain ⟨howed, hpending, hvalues⟩ := settle_eq_ok hl hsettle
    refine ⟨howed, ?_⟩
    cases attached with
    | some value => exact ⟨rfl, adds hpending hvalues h⟩
    | none =>
      cases h
      refine .inl ⟨rfl, rfl, fun o' => ?_⟩
      unfold given
      dsimp only
      rw [hvalues, List.append_nil]
      rfl
  | false =>
    rw [if_neg (by simp [htakes])] at h
    cases attached with
    | some value => cases h
    | none =>
      rw [if_neg (by simp)] at h
      obtain ⟨settled, hsettle, h⟩ := exists_of_bind_eq_ok h
      obtain ⟨howed, hpending, hvalues⟩ := settle_eq_ok hl hsettle
      refine ⟨howed, .inr ⟨rfl, ?_⟩⟩
      cases o with
      | help | version => cases h
      | verbose | json | strictStorage | noWait | ids | localFile =>
        exact adds hpending hvalues h
      | dataDirectory | pacing | answer => cases htakes

theorem takeLetters_eq_ok (hl : l.positions = []) (cs : List Char) :
    ∀ {s t : State}, takeLetters l cs s = .ok t →
      (∀ o : Opt, o.short? = none → t.given o = s.given o) ∧
        (t = s ∧ cs = [] ∨ s.owed = [] ∧ t.owed = []) := by
  induction cs with
  | nil =>
    intro s t h
    cases h
    exact ⟨fun _ _ => rfl, .inl ⟨rfl, rfl⟩⟩
  | cons c cs ih =>
    intro s t h
    unfold takeLetters at h
    cases hfind : l.options.find? (·.short? = some c) with
    | none =>
      rw [hfind] at h
      cases h
    | some o =>
      rw [hfind] at h
      have hshort : o.short? = some c := by simpa using List.find?_some hfind
      obtain ⟨next, hone, h⟩ := exists_of_bind_eq_ok h
      obtain ⟨howed, ⟨htakes, -⟩ | ⟨-, hnext, hgives⟩⟩ := takeOption_eq_ok hl hone
      · rw [Opt.takesValue_of_short? hshort] at htakes
        cases htakes
      · obtain ⟨hsame, hrest⟩ := ih h
        refine ⟨fun o' ho' => ?_, .inr ⟨howed, ?_⟩⟩
        · have hne : o ≠ o' := by
            rintro rfl
            rw [ho'] at hshort
            cases hshort
          rw [hsame o' ho', hgives o', if_neg hne, List.append_nil]
        · rcases hrest with ⟨rfl, -⟩ | ⟨-, hlast⟩
          · exact hnext
          · exact hlast

theorem took_of_takeLong {cs : List Char} (hl : l.positions = [])
    (h : s.takeLong l cs = .ok t) : Took l s t (String.ofList ('-' :: '-' :: cs)) := by
  unfold takeLong at h
  dsimp only at h
  have hsplit := List.takeWhile_append_dropWhile (p := (· ≠ '=')) (l := cs)
  cases hfind : l.options.find? (·.long = String.ofList (cs.takeWhile (· ≠ '='))) with
  | none =>
    rw [hfind] at h
    cases h
  | some o =>
    rw [hfind] at h
    have ho := List.mem_of_find?_eq_some hfind
    have hlong : o.long = String.ofList (cs.takeWhile (· ≠ '=')) := by
      simpa using List.find?_some hfind
    cases hdrop : cs.dropWhile (· ≠ '=') with
    | nil =>
      rw [hdrop, List.append_nil] at hsplit
      rw [hsplit] at hlong
      have harg : String.ofList ('-' :: '-' :: cs) = "--" ++ o.long := by
        rw [hlong]
        simp [← String.toList_inj]
      rw [hdrop] at h
      rw [harg]
      obtain ⟨howed, ⟨-, hnext, hsame⟩ | ⟨htakes, hnext, hgives⟩⟩ := takeOption_eq_ok hl h
      · exact .apart ho howed hnext hsame
      · exact .flag ho htakes howed hnext hgives
    | cons c value =>
      have hc : c = '=' := by
        have hne : cs.dropWhile (· ≠ '=') ≠ [] := by
          rw [hdrop]
          exact List.cons_ne_nil c value
        have hhead := List.head_dropWhile_not (· ≠ '=') hne
        simp only [hdrop] at hhead
        exact Decidable.not_not.mp (of_decide_eq_false hhead)
      subst hc
      have harg : String.ofList ('-' :: '-' :: cs) =
          "--" ++ o.long ++ "=" ++ String.ofList value := by
        rw [← hsplit, hdrop, hlong]
        simp [← String.toList_inj]
      rw [hdrop] at h
      rw [harg]
      obtain ⟨howed, htakes, hnext, hgives⟩ := takeOption_eq_ok hl h
      exact .attached ho htakes howed hnext hgives

/-- **One argument of a level without positions**, as long as options may come. -/
theorem take_eq_ok (hl : l.positions = []) (hopen : s.onlyPositions = false)
    (h : s.take l arg = .ok t) :
    arg = "--" ∧ t = { s with onlyPositions := true } ∨ Took l s t arg := by
  unfold take at h
  rw [hopen, if_neg (by simp)] at h
  split at h
  · rename_i harg
    cases h
    exact .inl ⟨String.toList_inj.mp harg, rfl⟩
  · rename_i cs _ harg
    refine .inr ?_
    rw [← String.ofList_toList (s := arg), harg]
    exact took_of_takeLong hl h
  · rename_i c cs _ hne harg
    refine .inr ?_
    obtain ⟨hsame, ⟨-, hnil⟩ | ⟨hbefore, hafter⟩⟩ := takeLetters_eq_ok hl _ h
    · cases hnil
    · rw [← String.ofList_toList (s := arg), harg]
      refine .letters ?_ hbefore hafter hsame
      rintro rfl
      exact hne rfl
  · rename_i o hpending _ _ hplain
    cases h
    refine .inr (.value (o := o) hplain ?_ rfl fun o' => ?_)
    · unfold owed
      rw [hpending]
    · unfold given
      rw [hpending]
      simp
  · exact absurd h (takePosition_ne_ok hl)

namespace Took

/-- **What one argument says of answers** is what the state has more afterwards. -/
theorem answers (h : Took l s t arg) (args : List String) :
    t.given .answer ++ answersIn (t.owed ++ args) =
      s.given .answer ++ answersIn (s.owed ++ arg :: args) := by
  cases h with
  | letters hc before after same =>
    rw [before, after, same .answer rfl]
    exact congrArg _ ((isSilent_letters hc _).answersIn_cons args).symm
  | apart ho before after same =>
    rw [before, after, same .answer]
    rfl
  | @flag o ho takes before after gives =>
    have hne : o ≠ .answer := by
      rintro rfl
      cases takes
    rw [before, after, gives .answer, if_neg hne, List.append_nil]
    exact congrArg _ ((isSilent_long hne).answersIn_cons args).symm
  | @attached o value ho takes before after gives =>
    rw [before, after, gives .answer, List.append_assoc]
    by_cases hanswer : o = .answer
    · subst hanswer
      rw [if_pos rfl]
      exact congrArg _ (answersIn_attached value args).symm
    · rw [if_neg hanswer]
      exact congrArg _ ((isSilent_attached takes hanswer value).answersIn_cons args).symm
  | @value o arg plain before after gives =>
    rw [before, after, gives .answer, List.append_assoc]
    by_cases hanswer : o = .answer
    · subst hanswer
      rw [if_pos rfl]
      exact congrArg _ (answersIn_answer arg args).symm
    · rw [if_neg hanswer]
      refine congrArg _ (Eq.symm ?_)
      exact ((isSilent_long hanswer).answersIn_cons _).trans
        ((isSilent_of_plain plain).answersIn_cons args)

/-- The same for the flag that says whether alerts wait. -/
theorem noWait (h : Took l s t arg) (args : List String) :
    (t.given .noWait ≠ [] ∨ "--no-wait" ∈ t.owed ++ args) ↔
      (s.given .noWait ≠ [] ∨ "--no-wait" ∈ s.owed ++ arg :: args) := by
  cases h with
  | @letters c cs hc before after same =>
    have hne : "--no-wait" ≠ String.ofList ('-' :: c :: cs) := by
      simp [← String.toList_inj, hc.symm]
    rw [before, after, same .noWait rfl, List.nil_append, List.nil_append, List.mem_cons,
      or_iff_right hne]
  | apart ho before after same =>
    rw [before, after, same .noWait]
    rfl
  | @flag o ho takes before after gives =>
    rw [before, after, gives .noWait]
    by_cases hwait : o = .noWait
    · subst hwait
      simp [Opt.long]
    · have hne : "--no-wait" ≠ "--" ++ o.long := fun h => hwait (Opt.written_inj h.symm)
      simp [hwait, hne]
  | @attached o value ho takes before after gives =>
    have hwait : o ≠ .noWait := by
      rintro rfl
      cases takes
    have hne : "--no-wait" ≠ "--" ++ o.long ++ "=" ++ value := by
      intro heq
      refine Opt.not_mem_long .noWait ?_
      show '=' ∈ "--no-wait".toList
      rw [heq]
      simp
    rw [before, after, gives .noWait]
    simp [hwait, hne]
  | @value o arg plain before after gives =>
    have hne : "--no-wait" ≠ arg := by
      rintro rfl
      exact plain _ _ rfl
    rw [before, after, gives .noWait]
    by_cases hwait : o = .noWait
    · subst hwait
      simp [Opt.long]
    · have hother : "--no-wait" ≠ "--" ++ o.long := fun h => hwait (Opt.written_inj h.symm)
      simp [hwait, hne, hother]

/-- An option that a level does not have is not given there. -/
theorem lacks (h : Took l s t arg) {o : Opt} (ho : o ∉ l.options) (hshort : o.short? = none)
    (hlacks : s.Lacks o) : t.Lacks o := by
  obtain ⟨hgiven, howed⟩ := hlacks
  have settled (hempty : t.given o = []) (after : t.owed = []) : t.Lacks o :=
    ⟨hempty, by rw [after]; exact List.not_mem_nil⟩
  have gives' {o' : Opt} {value : String} (hne : o' ≠ o) (gives : s.Gives t o' value) :
      t.given o = [] := by
    rw [gives o, hgiven, if_neg hne]
    rfl
  have other {o' : Opt} (ho' : o' ∈ l.options) : o' ≠ o := fun heq => ho (heq ▸ ho')
  cases h with
  | letters hc before after same => exact settled ((same o hshort).trans hgiven) after
  | apart ho' before after same =>
    refine ⟨(same o).trans hgiven, ?_⟩
    rw [after, List.mem_singleton]
    exact fun h => other ho' (Opt.written_inj h).symm
  | flag ho' takes before after gives => exact settled (gives' (other ho') gives) after
  | attached ho' takes before after gives => exact settled (gives' (other ho') gives) after
  | value plain before after gives =>
    refine settled (gives' (fun heq => howed ?_) gives) after
    rw [before, heq]
    exact List.mem_singleton_self _

end Took

theorem owed_of_idle (h : ¬ (s.onlyPositions || s.waits) = true) : s.owed = [] := by
  unfold owed
  split
  · rename_i hpending
    refine absurd ?_ h
    unfold waits
    rw [hpending, Bool.or_true]
  · rfl

/-- After the end of the options only the end of the line can follow. -/
theorem take_ne_ok (hl : l.positions = []) (honly : s.onlyPositions = true) :
    s.take l arg ≠ .ok t := by
  unfold take
  rw [if_pos honly]
  exact takePosition_ne_ok hl

theorem close_eq_ok {fallback? : Option String} {taken : Taken} (hl : l.positions = [])
    (h : s.close l fallback? = .ok taken) : s.owed = [] ∧ ∀ o, taken.values o = s.given o := by
  obtain ⟨settled, hsettle, h⟩ := exists_of_bind_eq_ok h
  obtain ⟨howed, -, hvalues⟩ := settle_eq_ok hl hsettle
  split at h
  · cases h
    exact ⟨howed, hvalues⟩
  · cases h

end State

/-! ## Levels -/

variable {fallback? : Option String} {s : State} {args : List String} {ls : Levels} {t : Taken}

/-- What was given for the answers and for the flag, on the command line that is left too. -/
structure Holds (s : State) (args : List String) (t : Taken) : Prop where
  answers : t.values .answer = s.given .answer ++ answersIn (s.owed ++ args)
  noWait : t.values .noWait ≠ [] ↔ s.given .noWait ≠ [] ∨ "--no-wait" ∈ s.owed ++ args

theorem Holds.of_took {l : Level} {next : State} {arg : String} (took : State.Took l s next arg)
    (h : Holds next args t) : Holds s (arg :: args) t where
  answers := h.answers.trans (took.answers args)
  noWait := h.noWait.trans (took.noWait args)

theorem holds_nil (howed : s.owed = []) (h : ∀ o, t.values o = s.given o) : Holds s [] t where
  answers := by
    rw [howed, h]
    exact (List.append_nil _).symm
  noWait := by
    rw [howed, h]
    simp

/-- The word that leads to the level of a run says nothing itself. -/
theorem Holds.of_run (h : Holds .initial args t) (howed : s.owed = [])
    (hanswer : s.given .answer = []) (hwait : s.given .noWait = []) : Holds s ("run" :: args) t where
  answers := by
    have hsilent : IsSilent "run" := isSilent_of_plain (by simp)
    rw [howed, hanswer]
    exact h.answers.trans (hsilent.answersIn_cons args).symm
  noWait := by
    rw [howed, hwait]
    refine h.noWait.trans ?_
    simp [State.given, State.owed, State.initial, Taken.values]

/-- An argument that leads nowhere is taken. -/
theorem readLevel_cons {l : Level} {arg : String} (hhelp : arg = "help" → l.below = [])
    (hlookup : l.below.lookup arg = none) :
    readLevel fallback? l s (arg :: args) =
      s.take l arg >>= fun next => readLevel fallback? l next args := by
  rw [readLevel]
  split
  · rfl
  · split
    · rename_i hask
      obtain ⟨rfl, hbelow⟩ : arg = "help" ∧ l.below ≠ [] := by simpa using hask
      exact absurd (hhelp rfl) hbelow
    · rw [hlookup]

/-- After the end of the options nothing comes at a level without positions. -/
theorem eq_nil_of_onlyPositions {l : Level} (hl : l.positions = []) (honly : s.onlyPositions = true)
    (h : readLevel fallback? l s args = .ok ls) : args = [] := by
  cases args with
  | nil => rfl
  | cons arg args =>
    rw [readLevel, if_pos (by rw [honly]; rfl)] at h
    obtain ⟨next, htake, -⟩ := exists_of_bind_eq_ok h
    exact absurd htake (State.take_ne_ok hl honly)

/-- **The level of a run** holds what is written there. -/
theorem holds_of_readLevel (args : List String) :
    ∀ {s : State}, readLevel fallback? .run s args = .ok ls → ∃ t, ls = [(.run, t)] ∧
      (s.onlyPositions = true → s.owed = []) ∧ Holds s args t := by
  induction args with
  | nil =>
    intro s h
    obtain ⟨taken, hclose, h⟩ := exists_of_bind_eq_ok h
    cases h
    obtain ⟨howed, hvalues⟩ := State.close_eq_ok rfl hclose
    exact ⟨taken, rfl, fun _ => howed, holds_nil howed hvalues⟩
  | cons arg args ih =>
    intro s h
    have hopen : s.onlyPositions = false := by
      refine Bool.eq_false_iff.mpr fun honly => ?_
      cases eq_nil_of_onlyPositions rfl honly h
    rw [readLevel_cons (fun _ => rfl) rfl] at h
    obtain ⟨next, htake, hrest⟩ := exists_of_bind_eq_ok h
    obtain ⟨t, hls, howed, hholds⟩ := ih hrest
    refine ⟨t, hls, fun honly => absurd honly (by simp [hopen]), ?_⟩
    rcases State.take_eq_ok rfl hopen htake with ⟨rfl, rfl⟩ | htook
    · -- Nothing more comes, and nothing is waited for.
      obtain rfl := eq_nil_of_onlyPositions rfl rfl hrest
      have hnone : s.owed = [] := howed rfl
      obtain ⟨hanswers, hwait⟩ := hholds
      refine ⟨hanswers.trans ?_, hwait.trans ?_⟩
      · show s.given .answer ++ answersIn (s.owed ++ []) = _
        rw [hnone]
        rfl
      · show s.given .noWait ≠ [] ∨ "--no-wait" ∈ s.owed ++ [] ↔ _
        rw [hnone]
        simp
    · exact hholds.of_took htook

/-- Only the program leads to a run. -/
theorem Level.of_lookup_below {l inner : Level} {arg : String}
    (h : l.below.lookup arg = some inner) :
    inner ≠ .program ∧ (inner = .run → l = .program ∧ arg = "run") := by
  obtain ⟨before, after, hbelow, -⟩ := List.lookup_eq_some_iff.mp h
  have hmem : (arg, inner) ∈ l.below := by
    rw [hbelow]
    simp
  constructor
  · rintro rfl
    cases l <;> simp [Level.below] at hmem
  · rintro rfl
    cases l <;> simp [Level.below] at hmem
    exact ⟨rfl, hmem⟩

/-- A level that is read is told, or one below it. -/
theorem head_of_readLevel (args : List String) :
    ∀ {l : Level} {s : State} {ls : Levels}, readLevel fallback? l s args = .ok ls →
      ∃ l' t, ls.head? = some (l', t) ∧ (l' = .run → l = .run ∨ l = .program) := by
  induction args with
  | nil =>
    intro l s ls h
    obtain ⟨taken, -, h⟩ := exists_of_bind_eq_ok h
    cases h
    exact ⟨l, taken, rfl, .inl⟩
  | cons arg args ih =>
    intro l s ls h
    rw [readLevel] at h
    split at h
    · obtain ⟨next, -, h⟩ := exists_of_bind_eq_ok h
      exact ih h
    · split at h
      · cases h
      · split at h
        · rename_i inner hlookup
          obtain ⟨lower, hlower, h⟩ := exists_of_bind_eq_ok h
          obtain ⟨taken, -, h⟩ := exists_of_bind_eq_ok h
          cases h
          obtain ⟨hprogram, hrun⟩ := Level.of_lookup_below hlookup
          obtain ⟨l', t, hhead, hl'⟩ := ih hlower
          refine ⟨l', t, ?_, fun hl => ?_⟩
          · rw [List.head?_append, hhead]
            rfl
          · rcases hl' hl with hinner | hinner
            · exact .inr (hrun hinner).1
            · exact absurd hinner hprogram
        · obtain ⟨next, -, h⟩ := exists_of_bind_eq_ok h
          exact ih h

/-- **A whole command line** of a run holds what is written on it. -/
theorem holds_of_head (args : List String) :
    ∀ {s : State} {ls : Levels}, readLevel fallback? .program s args = .ok ls →
      ls.head? = some (.run, t) → s.Lacks .answer → s.Lacks .noWait → Holds s args t := by
  induction args with
  | nil =>
    intro s ls h hhead _ _
    obtain ⟨taken, -, h⟩ := exists_of_bind_eq_ok h
    cases h
    cases hhead
  | cons arg args ih =>
    intro s ls h hhead hanswer hwait
    have hopen : s.onlyPositions = false := by
      refine Bool.eq_false_iff.mpr fun honly => ?_
      cases eq_nil_of_onlyPositions rfl honly h
    have taking {next : State} (htake : s.take .program arg = .ok next)
        (h : readLevel fallback? .program next args = .ok ls) : Holds s (arg :: args) t := by
      rcases State.take_eq_ok rfl hopen htake with ⟨rfl, rfl⟩ | htook
      · obtain rfl := eq_nil_of_onlyPositions rfl rfl h
        obtain ⟨taken, -, h⟩ := exists_of_bind_eq_ok h
        cases h
        cases hhead
      · exact (ih h hhead (htook.lacks (by decide) rfl hanswer)
          (htook.lacks (by decide) rfl hwait)).of_took htook
    rw [readLevel] at h
    split at h
    · obtain ⟨next, htake, h⟩ := exists_of_bind_eq_ok h
      exact taking htake h
    · rename_i hidle
      split at h
      · cases h
      · split at h
        · rename_i inner hlookup
          obtain ⟨lower, hlower, h⟩ := exists_of_bind_eq_ok h
          obtain ⟨taken, -, h⟩ := exists_of_bind_eq_ok h
          cases h
          obtain ⟨l', t', hlowest, hl'⟩ := head_of_readLevel args hlower
          rw [List.head?_append, hlowest] at hhead
          obtain ⟨rfl, rfl⟩ : l' = .run ∧ t' = t := by simpa using hhead
          obtain ⟨hprogram, hrun⟩ := Level.of_lookup_below hlookup
          rcases hl' rfl with rfl | hinner
          · obtain ⟨-, rfl⟩ := hrun rfl
            obtain ⟨t'', rfl, -, hholds⟩ := holds_of_readLevel args hlower
            cases hlowest
            exact hholds.of_run (State.owed_of_idle hidle) hanswer.1 hwait.1
          · exact absurd hinner hprogram
        · obtain ⟨next, htake, h⟩ := exists_of_bind_eq_ok h
          exact taking htake h

/-- **A run gets the answers that are written on its command line**, all of them and in order, and
its alerts wait unless the flag is there. -/
theorem answers_of_parse {i : Invocation} {answers : List String} {waits : Bool}
    (h : parse args fallback? = .ok i) (hrun : i.command = .run answers waits) :
    answers = answersIn args ∧ (waits = true ↔ "--no-wait" ∉ args) := by
  obtain ⟨ls, hread, h⟩ := exists_of_bind_eq_ok h
  cases hhead : ls.head? with
  | none =>
    rw [hhead] at h
    cases h
  | some lowest =>
    obtain ⟨l, t⟩ := lowest
    rw [hhead, Option.bind_some] at h
    cases hcommand : t.command? l with
    | none =>
      dsimp only at h
      rw [hcommand] at h
      cases h
    | some command =>
      dsimp only at h
      rw [hcommand] at h
      cases h
      obtain rfl : command = .run answers waits := hrun
      obtain ⟨rfl, hanswers, hwaits⟩ := Taken.of_command?_eq_run hcommand
      have hlacks (o : Opt) : State.initial.Lacks o := ⟨rfl, List.not_mem_nil⟩
      have hholds := holds_of_head args hread hhead (hlacks .answer) (hlacks .noWait)
      refine ⟨hanswers.trans hholds.answers, ?_⟩
      rw [hwaits, Bool.not_eq_true', ← Bool.not_eq_true, Taken.has_iff, hholds.noWait]
      simp [State.given, State.owed, State.initial, Taken.values]

end TriggerFlow.CommandLine
