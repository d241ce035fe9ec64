import TriggerFlow.Proofs.CommandLine.Given
import TriggerFlow.Proofs.CommandLine.Running
import TriggerFlow.Proofs.Run.Changes

/-!
# Who reads which answer and which line

A run at the terminal reads from two sources, the answers given with the command and the lines that
are typed, and two kinds of actions read. **Which of them gets what is told from the actions before
it alone**: a prompt takes the next answer as long as there are any and then the next line, an alert
that waits takes the next line. `inputOf?` is this rule. No answer and no line is given out twice,
and none is passed over.
-/

set_option autoImplicit false

namespace TriggerFlow

variable {η κ γ : Type}

/-! ## One after the other -/

/-- What is said of the element at a position by those before it. -/
def inTurn {α β : Type} (f : List α → α → Option β) (as : List α) (i : Nat) : Option β :=
  as[i]?.bind (f (as.take i))

section InTurn

variable {α β : Type} {f : List α → α → Option β} {as : List α} {a : α} {i : Nat}

theorem inTurn_of_getElem? (h : as[i]? = some a) : inTurn f as i = f (as.take i) a := by
  unfold inTurn
  rw [h, Option.bind_some]

/-- It does not hang on what follows. -/
theorem inTurn_concat_of_lt (h : i < as.length) : inTurn f (as ++ [a]) i = inTurn f as i := by
  unfold inTurn
  rw [List.getElem?_append_left h, List.take_append_of_le_length (Nat.le_of_lt h)]

theorem inTurn_concat_length : inTurn f (as ++ [a]) as.length = f as a := by
  rw [inTurn_of_getElem? List.getElem?_concat_length, List.take_left]

theorem lt_length_of_inTurn {b : β} (h : inTurn f as i = some b) : i < as.length := by
  obtain ⟨a, ha, -⟩ := Option.bind_eq_some_iff.mp h
  exact (List.getElem?_eq_some_iff.mp ha).1

end InTurn

/-! ## The rule -/

/-- An answer or a line, by its position. -/
inductive Input where
  | answer (position : Nat)
  | line (position : Nat)
  deriving DecidableEq

namespace Input

/-- What there is to read, if there is anything. -/
def held (answers : List String) (lines : List (Option String)) : Input → Option String
  | .answer position => answers[position]?
  | .line position => lines[position]?.join

end Input

namespace Action

def prompts (as : List Action) : Nat :=
  as.countP (·.kind? = some .promptAndShow)

def alerts (as : List Action) : Nat :=
  as.countP (·.kind? = some .alert)

/-- How many lines actions ask for: one for each alert that waits, and one for each prompt that
finds no answer left. -/
def linesAsked (answers : Nat) (waits : Bool) (as : List Action) : Nat :=
  (if waits then alerts as else 0) + (prompts as - answers)

/-- What an action reads that comes after some others. -/
def inputOf? (answers : Nat) (waits : Bool) (before : List Action) (a : Action) : Option Input :=
  match a.kind? with
  | some .promptAndShow =>
    some (if prompts before < answers then .answer (prompts before)
      else .line (linesAsked answers waits before))
  | some .alert => if waits then some (.line (linesAsked answers waits before)) else none
  | _ => none

theorem prompts_concat (before : List Action) (a : Action) :
    prompts (before ++ [a]) =
      prompts before + if a.kind? = some .promptAndShow then 1 else 0 := by
  simp [prompts, List.countP_append, List.countP_singleton]

theorem alerts_concat (before : List Action) (a : Action) :
    alerts (before ++ [a]) = alerts before + if a.kind? = some .alert then 1 else 0 := by
  simp [alerts, List.countP_append, List.countP_singleton]

theorem linesAsked_concat (answers : Nat) (waits : Bool) (before : List Action) (a : Action) :
    linesAsked answers waits (before ++ [a]) = linesAsked answers waits before +
      match a.kind? with
      | some .promptAndShow => if prompts before < answers then 0 else 1
      | some .alert => if waits then 1 else 0
      | _ => 0 := by
  unfold linesAsked
  rw [prompts_concat, alerts_concat]
  cases a.kind? with
  | none => simp
  | some kind =>
    cases kind with
    | promptAndShow =>
      by_cases hleft : prompts before < answers
      · simp [hleft]
        omega
      · simp [hleft]
        omega
    | alert =>
      cases waits with
      | false => simp
      | true =>
        simp
        omega
    | showText | showImage | refresh | setStorage | getStorage | growTrigger | close
    | recolorTrigger | disableTrigger => simp

/-- What the action at a position reads, by its position among all that are done. -/
def readAt? (answers : Nat) (waits : Bool) (as : List Action) (i : Nat) : Option Input :=
  inTurn (inputOf? answers waits) as i

end Action

/-- What some actions have taken altogether: as many answers as there were prompts, if there were
so many, and as many lines as they asked for. -/
def Input.IsTaken (answers : Nat) (waits : Bool) (as : List Action) : Input → Prop
  | .answer position => position < min (Action.prompts as) answers
  | .line position => position < Action.linesAsked answers waits as

namespace Action

variable {answers : Nat} {waits : Bool} {as : List Action} {a : Action} {x : Input}

/-- **One action takes** what it reads, and nothing that was taken before. -/
theorem isTaken_concat :
    (x.IsTaken answers waits (as ++ [a]) ↔
      x.IsTaken answers waits as ∨ inputOf? answers waits as a = some x) ∧
    (inputOf? answers waits as a = some x → ¬ x.IsTaken answers waits as) := by
  unfold inputOf?
  cases x with
  | answer position =>
    simp only [Input.IsTaken, prompts_concat]
    cases a.kind? with
    | none => simp
    | some kind =>
      cases kind with
      | promptAndShow =>
        by_cases hleft : prompts as < answers
        · simp only [hleft, if_true, Option.some.injEq, Input.answer.injEq]
          omega
        · simp [hleft]
          omega
      | alert => cases waits <;> simp
      | showText | showImage | refresh | setStorage | getStorage | growTrigger | close
      | recolorTrigger | disableTrigger => simp
  | line position =>
    simp only [Input.IsTaken, linesAsked_concat]
    cases a.kind? with
    | none => simp
    | some kind =>
      cases kind with
      | promptAndShow =>
        by_cases hleft : prompts as < answers
        · simp [hleft]
        · simp only [hleft, if_false, Option.some.injEq, Input.line.injEq]
          omega
      | alert =>
        cases waits with
        | false => simp
        | true =>
          simp only [if_true, Option.some.injEq, Input.line.injEq]
          omega
      | showText | showImage | refresh | setStorage | getStorage | growTrigger | close
      | recolorTrigger | disableTrigger => simp

/-- **Nothing is passed over**: what has been taken was read by one of the actions. -/
theorem exists_readAt?_iff :
    (∃ i, readAt? answers waits as i = some x) ↔ x.IsTaken answers waits as := by
  unfold readAt?
  -- Who reads what hangs on what came before, so the list grows at its end.
  induction as using List.reverseRecOn with
  | nil => cases x <;> simp [inTurn, Input.IsTaken, prompts, alerts, linesAsked]
  | append_singleton as a ih =>
    rw [isTaken_concat.1, ← ih]
    constructor
    · rintro ⟨i, hi⟩
      have hlength := lt_length_of_inTurn hi
      rw [List.length_append, List.length_singleton] at hlength
      rcases Nat.lt_succ_iff_lt_or_eq.mp hlength with hlt | rfl
      · rw [inTurn_concat_of_lt hlt] at hi
        exact .inl ⟨i, hi⟩
      · rw [inTurn_concat_length] at hi
        exact .inr hi
    · rintro (⟨i, hi⟩ | hlast)
      · refine ⟨i, ?_⟩
        rw [inTurn_concat_of_lt (lt_length_of_inTurn hi)]
        exact hi
      · refine ⟨as.length, ?_⟩
        rw [inTurn_concat_length]
        exact hlast

/-- **Nothing is read twice.** -/
theorem readAt?_inj : ∀ {i j : Nat}, readAt? answers waits as i = some x →
    readAt? answers waits as j = some x → i = j := by
  unfold readAt?
  induction as using List.reverseRecOn with
  | nil =>
    intro i j hi
    exact absurd (lt_length_of_inTurn hi) (Nat.not_lt_zero i)
  | append_singleton as a ih =>
    intro i j hi hj
    -- Whoever reads last reads what nobody before has taken.
    have fresh {k : Nat} (hk : k < as.length)
        (h : inTurn (inputOf? answers waits) (as ++ [a]) k = some x) :
        inTurn (inputOf? answers waits) (as ++ [a]) as.length ≠ some x := by
      rw [inTurn_concat_of_lt hk] at h
      rw [inTurn_concat_length]
      exact fun hlast => isTaken_concat.2 hlast (exists_readAt?_iff.mp ⟨k, h⟩)
    have hilength := lt_length_of_inTurn hi
    have hjlength := lt_length_of_inTurn hj
    rw [List.length_append, List.length_singleton] at hilength hjlength
    rcases Nat.lt_succ_iff_lt_or_eq.mp hilength with hilt | rfl
    · rcases Nat.lt_succ_iff_lt_or_eq.mp hjlength with hjlt | rfl
      · rw [inTurn_concat_of_lt hilt] at hi
        rw [inTurn_concat_of_lt hjlt] at hj
        exact ih hi hj
      · exact absurd hj (fresh hilt hi)
    · rcases Nat.lt_succ_iff_lt_or_eq.mp hjlength with hjlt | rfl
      · exact absurd hi (fresh hjlt hj)
      · rfl

/-- What an action does to the host. -/
theorem host_perform [Host η] [KeyValueStore κ] [ColorSource γ] (mode : StorageMode) (a : Action)
    (w : World η κ γ) :
    (a.perform mode w).world.host =
      match a.kind? with
      | some .alert => Host.notify (a.given Default.alertMessage) w.host
      | some .promptAndShow => (Host.prompt (a.given Default.promptMessage) w.host).2
      | some .refresh => Host.reload w.host
      | some .close => Host.close w.host
      | _ => w.host := by
  unfold perform
  cases a.kind? with
  | none => rfl
  | some kind =>
    cases kind with
    | setStorage =>
      dsimp only [performAs, saveValue]
      split
      · rfl
      · split <;> rfl
    | getStorage =>
      dsimp only [performAs, showValue]
      split <;> rfl
    | recolorTrigger =>
      dsimp only [performAs, recolor]
      split <;> rfl
    | alert | showText | showImage | refresh | growTrigger | close | promptAndShow
    | disableTrigger => rfl

end Action

/-! ## What is shown of it -/

section Log

variable [Host η] [KeyValueStore κ] [ColorSource γ]

/-- What a prompt appends is its answer. -/
theorem Action.item?_prompt {a : Action} (h : a.kind? = some .promptAndShow) (mode : StorageMode)
    (w : World η κ γ) :
    (a.perform mode w).change.bind Change.item? =
      (Host.prompt (a.given Default.promptMessage) w.host).1.map .text := by
  unfold perform
  rw [h]
  dsimp only [performAs, promptAndShow]
  cases (Host.prompt (a.given Default.promptMessage) w.host).1 <;> rfl

/-- What the action at a position appends to the log. -/
def Progress.entryAt (mode : StorageMode) (w : World η κ γ) (as : List Action) (i : Nat) :
    Option Content :=
  inTurn (fun before a => (a.perform mode (of mode w before).world).change.bind Change.item?) as i

/-- **The log of a run** has the entries of its actions, in their order. -/
theorem Progress.log_of (mode : StorageMode) (w : World η κ γ) (as : List Action)
    (p : Presentation) :
    (Sink.applyAll (of mode w as).changes p).log =
      p.log ++ (List.range as.length).filterMap (entryAt mode w as) := by
  induction as using List.reverseRecOn with
  | nil => exact (List.append_nil _).symm
  | append_singleton as a ih =>
    have hbefore : (List.range as.length).filterMap (entryAt mode w (as ++ [a])) =
        (List.range as.length).filterMap (entryAt mode w as) :=
      List.filterMap_congr fun i hi => inTurn_concat_of_lt (List.mem_range.mp hi)
    have hlast : entryAt mode w (as ++ [a]) as.length =
        (a.perform mode (of mode w as).world).change.bind Change.item? :=
      inTurn_concat_length
    have hreset := a.change_ne_reset mode (of mode w as).world
    rw [of_concat, List.length_append, List.length_singleton, List.range_succ,
      List.filterMap_append, hbefore, ← List.append_assoc, ← ih]
    dsimp only [add]
    unfold Sink.applyAll
    rw [List.foldl_append]
    cases hchange : (a.perform mode (of mode w as).world).change with
    | none =>
      rw [hchange] at hlast
      simp [hlast]
    | some c =>
      rw [hchange] at hlast hreset
      have hc : c ≠ .reset := fun heq => hreset (congrArg some heq)
      have hentry : [as.length].filterMap (entryAt mode w (as ++ [a])) = c.item?.toList := by
        cases hitem : c.item? <;> simp [hlast, hitem]
      rw [hentry]
      exact log_apply hc _

end Log

namespace CommandLine

/-! ## One reader -/

namespace Console

theorem readLine_eq (c : Console) :
    c.readLine.1 = c.unread.head?.join ∧ c.readLine.2.answers = c.answers ∧
      c.readLine.2.waits = c.waits ∧ c.readLine.2.unread = c.unread.tail := by
  unfold readLine
  cases h : c.unread with
  | nil | cons => exact ⟨rfl, rfl, rfl, rfl⟩

theorem notify_eq (message : String) (c : Console) :
    (c.notify message).answers = c.answers ∧ (c.notify message).waits = c.waits ∧
      (c.notify message).unread = if c.waits then c.unread.tail else c.unread := by
  unfold notify
  cases hwaits : c.waits with
  | false =>
    have hstill : (c.write ("! " ++ message ++ "\n")).waits = false := hwaits
    dsimp only
    rw [hstill, if_neg (by simp), if_neg (by simp)]
    exact ⟨rfl, hwaits, rfl⟩
  | true =>
    have hstill : (c.write ("! " ++ message ++ "\n")).waits = true := hwaits
    dsimp only
    rw [hstill, if_pos rfl, if_pos rfl]
    obtain ⟨-, hanswers, hsame, hunread⟩ := readLine_eq
      ((c.write ("! " ++ message ++ "\n")).write "  (press Enter to continue) ")
    exact ⟨hanswers, hsame.trans hwaits, hunread⟩

/-- A prompt is answered from the answers as long as there are any, and then from the lines. -/
theorem prompt_eq (message : String) (c : Console) :
    (c.prompt message).1 = c.answers.head?.or c.unread.head?.join ∧
      (c.prompt message).2.answers = c.answers.tail ∧ (c.prompt message).2.waits = c.waits ∧
      (c.prompt message).2.unread = if c.answers = [] then c.unread.tail else c.unread := by
  obtain ⟨hline, hanswers, hwaits, hunread⟩ := readLine_eq (c.write ("? " ++ message ++ " "))
  unfold prompt
  dsimp only
  cases h : c.answers with
  | cons answer answers =>
    have hstill : (c.write ("? " ++ message ++ " ")).answers = answer :: answers := h
    rw [hstill, if_neg (by simp)]
    exact ⟨rfl, rfl, rfl, rfl⟩
  | nil =>
    have hstill : (c.write ("? " ++ message ++ " ")).answers = [] := h
    rw [hstill, if_pos rfl]
    dsimp only
    cases hread : (c.write ("? " ++ message ++ " ")).readLine with
    | mk line after =>
      rw [hread] at hline hanswers hwaits hunread
      cases line with
      | some text => exact ⟨hline, hanswers.trans h, hwaits, hunread⟩
      | none =>
        dsimp only
        refine ⟨hline, ?_, ?_, ?_⟩ <;> split
        · exact hanswers.trans h
        · exact hanswers.trans h
        · exact hwaits
        · exact hwaits
        · exact hunread
        · exact hunread

/-- What is left at a terminal when some actions have been done, and nothing but what they read is
gone. -/
structure Left (c first : Console) (before : List Action) : Prop where
  waits : c.waits = first.waits
  answers : c.answers = first.answers.drop (Action.prompts before)
  unread : c.unread =
    first.unread.drop (Action.linesAsked first.answers.length first.waits before)

variable {κ γ : Type} [KeyValueStore κ] [ColorSource γ]

theorem Left.none (c : Console) : c.Left c [] :=
  ⟨rfl, rfl, by simp [Action.linesAsked, Action.alerts, Action.prompts]⟩

/-- Whoever does not read leaves everything. -/
theorem Left.idle {c c' first : Console} {before : List Action} {a : Action}
    (h : c.Left first before) (hprompt : a.kind? ≠ some .promptAndShow)
    (halert : a.kind? ≠ some .alert) (answers : c'.answers = c.answers)
    (waits : c'.waits = c.waits) (unread : c'.unread = c.unread) :
    c'.Left first (before ++ [a]) := by
  refine ⟨waits.trans h.waits, ?_, ?_⟩
  · rw [answers, h.answers, Action.prompts_concat, if_neg hprompt, Nat.add_zero]
  · rw [unread, h.unread, Action.linesAsked_concat]
    split
    · rename_i hkind
      exact absurd hkind hprompt
    · rename_i hkind
      exact absurd hkind halert
    · rfl

/-- **One action reads what the rule says** and leaves the rest. -/
theorem Left.perform {first : Console} {before : List Action} {w : World Console κ γ}
    (h : w.host.Left first before) (mode : StorageMode) (a : Action) :
    (a.perform mode w).world.host.Left first (before ++ [a]) := by
  rw [Action.host_perform]
  cases hkind : a.kind? with
  | none => exact h.idle (by simp [hkind]) (by simp [hkind]) rfl rfl rfl
  | some kind =>
    cases kind with
    | alert =>
      obtain ⟨hanswers, hwaits, hunread⟩ :=
        notify_eq (a.given Default.alertMessage) w.host
      refine ⟨hwaits.trans h.waits, ?_, ?_⟩
      · rw [Action.prompts_concat, hkind, if_neg (by simp), Nat.add_zero]
        exact hanswers.trans h.answers
      · rw [Action.linesAsked_concat, hkind]
        refine hunread.trans ?_
        rw [h.waits, h.unread]
        cases first.waits with
        | false => rfl
        | true => exact List.tail_drop
    | promptAndShow =>
      obtain ⟨-, hanswers, hwaits, hunread⟩ :=
        prompt_eq (a.given Default.promptMessage) w.host
      refine ⟨hwaits.trans h.waits, ?_, ?_⟩
      · rw [Action.prompts_concat, hkind, if_pos rfl, ← List.tail_drop, ← h.answers]
        exact hanswers
      · rw [Action.linesAsked_concat, hkind]
        refine hunread.trans ?_
        rw [h.answers, h.unread]
        dsimp only
        by_cases hleft : Action.prompts before < first.answers.length
        · rw [if_pos hleft, if_neg (by simpa using hleft)]
          rfl
        · rw [if_neg hleft, if_pos (by simpa using hleft), List.tail_drop]
    | refresh | close | showText | showImage | setStorage | getStorage | growTrigger
    | recolorTrigger | disableTrigger =>
      exact h.idle (by simp [hkind]) (by simp [hkind]) rfl rfl rfl

/-- **Any number of actions** read what the rule says. -/
theorem left_of (mode : StorageMode) (w : World Console κ γ) (as : List Action) :
    (Progress.of mode w as).world.host.Left w.host as := by
  induction as using List.reverseRecOn with
  | nil => exact .none w.host
  | append_singleton as a ih =>
    rw [Progress.of_concat]
    exact ih.perform mode a

/-- **What a prompt is answered** is what the rule says it reads. -/
theorem Left.prompt_eq {c first : Console} {before : List Action} (h : c.Left first before)
    {a : Action} (hkind : a.kind? = some .promptAndShow) (message : String) :
    (c.prompt message).1 =
      (Action.inputOf? first.answers.length first.waits before a).bind
        (Input.held first.answers first.unread) := by
  obtain ⟨hreply, -⟩ := Console.prompt_eq message c
  rw [hreply, h.answers, h.unread, List.head?_drop, List.head?_drop, Action.inputOf?, hkind]
  dsimp only [Option.bind_some]
  split
  · rename_i hlt
    rw [List.getElem?_eq_getElem hlt, Option.some_or]
    exact (List.getElem?_eq_getElem hlt).symm
  · rename_i hge
    rw [List.getElem?_eq_none (Nat.not_lt.mp hge)]
    rfl

end Console

/-! ## A whole run -/

/-- A run that is over has done some actions, and its console has served them: what a prompt has
appended is what it was to read, and what nobody was to read is still there. -/
structure Session.HasServed (s : Session) (first : Console) (as : List Action) (mode : StorageMode)
    (w : World Console FileStore RandomColors) : Prop where
  ended : ∃ o, s.answer = some (.ended o) ∧ o.executed = as.length
  log : ∃ display, s.engine.cells = [display] ∧
    display.shown.log = (List.range as.length).filterMap (Progress.entryAt mode w as)
  prompts : ∀ i a, as[i]? = some a → a.kind? = some .promptAndShow →
    Progress.entryAt mode w as i =
      ((Action.readAt? first.answers.length first.waits as i).bind
        (Input.held first.answers first.unread)).map .text
  left : s.console.Left first as

theorem Session.hasServed_finish {c : Context} {d : Document} (hd : d.isRunnable = true)
    (console : Console) (store : FileStore) (colors : RandomColors) :
    (Session.start c (some d) console store colors).finish.HasServed console
      (Action.upToEnd d.actions) c.settings.mode ⟨console, store, colors⟩ := by
  have starts := Run.start_of_isRunnable hd c.settings.mode
  let w : World Console FileStore RandomColors := ⟨console, store, colors⟩
  let as := Action.upToEnd d.actions
  obtain ⟨hworld, hcells, hanswer, -⟩ := Session.finish_start starts console store colors
  rw [Course.after_eq starts, Course.reached_end (Run.start_eq_ok_iff.mp starts).1]
    at hworld hcells hanswer
  refine ⟨⟨_, hanswer, ?_⟩, ⟨_, hcells, ?_⟩, fun i a ha hprompt => ?_, ?_⟩
  · exact (Progress.executed_upTo d.actions c.settings.mode w as.length).trans (Nat.min_self _)
  · rw [Display.shown_applyAll]
    exact Progress.log_of c.settings.mode w as .initial
  · -- What the prompt finds is what the actions before it have left.
    have hleft := Console.left_of c.settings.mode w (as.take i)
    have hreads : Action.readAt? console.answers.length console.waits as i =
        Action.inputOf? console.answers.length console.waits (as.take i) a :=
      inTurn_of_getElem? ha
    unfold Progress.entryAt
    rw [inTurn_of_getElem? ha, Action.item?_prompt hprompt, hreads]
    exact congrArg _ (hleft.prompt_eq hprompt _)
  · show ((Session.start c (some d) console store colors).finish.engine.world.host).Left _ _
    rw [hworld]
    exact Console.left_of c.settings.mode w as

namespace Process

variable {p : Process} {files : FileTree} {directory : String} {answers : List String}
  {waits : Bool} {d : Document}

/-- **A run hands out what it is given**, each answer and each line at most once and none of them
passed over. The answers are those on its command line, the lines are the pieces of what is typed,
and every prompt appends what the rule gives it. Only if the store cannot be opened there is no
run. -/
theorem run_hands_out_input {stdin : String} (asks : p.Asks files directory (.run answers waits))
    (saved : savedDocument directory files = .ok (some d)) (runnable : d.isRunnable = true)
    (typed : p.lines = linesOf stdin) :
    let as := Action.upToEnd d.actions
    let reads := Action.readAt? answers.length waits as
    (answers = answersIn p.args ∧ (waits = true ↔ "--no-wait" ∉ p.args)) ∧
    (∃ pieces, IsCut stdin.toList pieces ∧ p.lines =
      pieces.map fun piece => some (String.ofList (chomp '\r' (chomp '\n' piece)))) ∧
    (∀ x i j, reads i = some x → reads j = some x → i = j) ∧
    (∀ x, (∃ i, reads i = some x) ↔ x.IsTaken answers.length waits as) ∧
    ∃ context : Context, context.dataDirectory = directory ∧
      match context.openStore files with
      | .error f => p.run files = .failed f files
      | .ok store =>
        let console := Console.initial answers waits p.lines p.linesEnded
        let last := (Session.start context (some d) console store p.colors).finish
        p.run files = resultOf context last ∧
          last.HasServed console as context.settings.mode ⟨console, store, p.colors⟩ := by
  intro as reads
  obtain ⟨i, hparse, hcommand, -⟩ := asks.invocation
  obtain ⟨pieces, hcut, hlines⟩ := linesOf_eq stdin
  obtain ⟨context, hdirectory, hstart⟩ := start_of_asks_run asks saved
  refine ⟨answers_of_parse hparse hcommand, ⟨pieces, hcut, typed.trans hlines⟩,
    fun x i j => Action.readAt?_inj, fun x => Action.exists_readAt?_iff, context, hdirectory, ?_⟩
  unfold run execute
  rw [hstart]
  cases context.openStore files with
  | error f => rfl
  | ok store => exact ⟨rfl, Session.hasServed_finish runnable ..⟩

/-- Alerts that wait take the first line and the last one. One prompt takes the answer, one the line
between them with the blank before it, and one finds nothing. -/
theorem run_hands_out_mixed :
    let asking (id : String) : Action := ⟨id, "promptAndShow", "", none⟩
    let waiting (id : String) : Action := ⟨id, "alert", "", none⟩
    let d : Document := ⟨"", [waiting "1", asking "2", asking "3", waiting "4", asking "5"]⟩
    let files : FileTree := ((⟨[], []⟩ : FileTree).save (workflowPath "data") d.render).2
    let p : Process := ⟨["--data-dir", "data", "run", "--answer", "x"], ⟨[], none⟩, ⟨0⟩, .ofSeed 0,
      [some "", some " b", some "last"], true⟩
    p.Asks files "data" (.run ["x"] true) ∧ savedDocument "data" files = .ok (some d) ∧
    d.isRunnable = true ∧ p.lines = linesOf "\n b\r\nlast" ∧
    ∃ context s display, p.run files = resultOf context s ∧ s.engine.cells = [display] ∧
      display.shown.log = [.text "x", .text " b"] ∧ s.console.answers = [] ∧
      s.console.unread = [] := by
  intro asking waiting d files p
  have hasks : p.Asks files "data" (.run ["x"] true) := ⟨_, rfl, rfl, rfl⟩
  have hsave : (⟨[], []⟩ : FileTree).save (workflowPath "data") d.render = (.ok (), files) := rfl
  have hsaved : savedDocument "data" files = .ok (some d) := (savedDocument_of_save hsave).2
  have htyped : p.lines = linesOf "\n b\r\nlast" := by decide +kernel
  obtain ⟨-, -, -, -, context, hdirectory, h⟩ := run_hands_out_input hasks hsaved rfl htyped
  obtain ⟨store, hstore⟩ : ∃ store, context.openStore files = .ok store := by
    unfold Context.openStore Context.storagePath
    rw [hdirectory]
    exact ⟨_, rfl⟩
  rw [hstore] at h
  obtain ⟨hrun, hserved⟩ := h
  obtain ⟨display, hcells, hlog⟩ := hserved.log
  refine ⟨hasks, hsaved, rfl, htyped, context, _, display, hrun, hcells, hlog.trans ?_,
    hserved.left.answers, hserved.left.unread⟩
  have hsecond := hserved.prompts 1 (asking "2") rfl rfl
  have hthird := hserved.prompts 2 (asking "3") rfl rfl
  have hlast := hserved.prompts 4 (asking "5") rfl rfl
  show [0, 1, 2, 3, 4].filterMap _ = _
  simp only [List.filterMap_cons, hsecond, hthird, hlast]
  rfl

end Process
end CommandLine
end TriggerFlow
