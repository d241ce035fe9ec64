import TriggerFlow.Proofs.Run.Steps
import TriggerFlow.Proofs.StorageParam

/-!
# What a document means

A document can be read without any cursor: each action does what the rule of its kind says, one
after the other. `Action.rule` states these rules on their own, over what a run uses up (the answers
of the user, the values of the store, the colors of the source), and `Account.of` adds up what they
come to. **What is shown at the end is told from the list alone**: the entries in order, a fifth
added to the scale once for each action that grows the trigger, the last color, and whether any
action disabled it. Nothing of what was shown before the run is left.

A run knows nothing of this. It is a cursor that is stepped until it reports that it is over, and it
comes to exactly this account.
-/

set_option autoImplicit false

namespace TriggerFlow

variable {κ γ : Type}

/-- What a run uses up. -/
structure Supplies (κ γ : Type) where
  /-- The lines that the user has not typed yet. -/
  answers : List String
  store : κ
  colors : γ

/-- What one action adds to the account of its run. -/
structure Deed where
  entry : Option Content := none
  color : Option String := none
  issues : List Issue := []
  deriving DecidableEq, Repr

namespace Action

/-- The parameter; if it is missing or empty, something else. -/
def textOr (a : Action) (otherwise : String) : String :=
  if a.param.getD "" = "" then otherwise else a.param.getD ""

def asks? (a : Action) : Option HostEvent :=
  match a.kind? with
  | some .alert => some (.notified (a.textOr "Alert!"))
  | some .promptAndShow => some (.prompted (a.textOr "Enter your input:"))
  | some .refresh => some .reloaded
  | some .close => some .closed
  | _ => none

def saveRule [KeyValueStore κ] (mode : StorageMode) (param : String) (s : Supplies κ γ) :
    Deed × Supplies κ γ :=
  if ':' ∈ param.toList then
    let key := Text.trim (String.ofList (param.toList.takeWhile (· ≠ ':')))
    let value := Text.trim (String.ofList (param.toList.dropWhile (· ≠ ':')).tail)
    match KeyValueStore.set key value s.store with
    | (.ok (), store) =>
      ({ entry := some (.text ("Saved: " ++ key ++ " = " ++ value)) }, { s with store })
    | (.error e, store) => ({ issues := [.storageFailed e.message] }, { s with store })
  else ({ issues := if mode = .strict then [.malformedStorageParam param] else [] }, s)

def showRule [KeyValueStore κ] (mode : StorageMode) (param : String) (s : Supplies κ γ) :
    Deed × Supplies κ γ :=
  let key := Text.trim param
  let malformed := if key = "" ∧ mode = .strict then [Issue.malformedStorageParam param] else []
  match KeyValueStore.get key s.store with
  | (.ok value, store) =>
    let shown := if value.getD "" = "" then "Not found" else value.getD ""
    ({ entry := some (.text (key ++ ": " ++ shown)), issues := malformed }, { s with store })
  | (.error e, store) => ({ issues := malformed ++ [.storageFailed e.message] }, { s with store })

/-- The rule of a kind. What a kind does not name it leaves alone. -/
def rule [KeyValueStore κ] [ColorSource γ] (mode : StorageMode) (a : Action) (s : Supplies κ γ) :
    Deed × Supplies κ γ :=
  match a.kind? with
  | some .showText => ({ entry := some (.text (a.textOr "No text provided")) }, s)
  | some .showImage =>
    ({ entry := if a.param.getD "" = "" then none else some (.image (a.param.getD "")) }, s)
  | some .promptAndShow =>
    ({ entry := s.answers.head?.map .text }, { s with answers := s.answers.tail })
  | some .recolorTrigger =>
    if a.param.getD "" = "" then
      let (color, colors) := ColorSource.next s.colors
      ({ color := some color }, { s with colors })
    else ({ color := some (a.param.getD "") }, s)
  | some .setStorage => saveRule mode (a.param.getD "") s
  | some .getStorage => showRule mode (a.param.getD "") s
  | some .alert | some .refresh | some .close | some .growTrigger | some .disableTrigger => ({}, s)
  | none => ({ issues := [.unknownKind] }, s)

def rules [KeyValueStore κ] [ColorSource γ] (mode : StorageMode) :
    List Action → Supplies κ γ → List Deed × Supplies κ γ
  | [], s => ([], s)
  | a :: as, s =>
    let (deed, s) := a.rule mode s
    let (deeds, s) := rules mode as s
    (deed :: deeds, s)

end Action

/-- What the actions of a run come to. -/
structure Account (κ γ : Type) where
  shown : Presentation
  /-- What was asked of the host, in order. -/
  events : List HostEvent
  left : Supplies κ γ
  diagnostics : List Diagnostic
  ending : Option Ending

namespace Account

/-- A scale to which a fifth has been added some times. -/
def grown (scale : Float) : Nat → Float
  | 0 => scale
  | n + 1 => grown (scale + 0.2) n

def shownAfter (as : List Action) (deeds : List Deed) : Presentation where
  log := deeds.filterMap (·.entry)
  scale := grown 1.0 (as.countP (·.kind? = some .growTrigger))
  color := (deeds.filterMap (·.color)).getLast?.getD "#3498db"
  enabled := !as.any (·.kind? = some .disableTrigger)

/-- The issues of each action, with its position and its kind as it is written. -/
def diagnosticsFrom (first : Nat) (as : List Action) (deeds : List Deed) : List Diagnostic :=
  ((as.zip deeds).zipIdx first).flatMap fun ((a, deed), i) => deed.issues.map (⟨i, a.kind, ·⟩)

/-- How the last of some actions ends the run, if it does. -/
def endingOf (as : List Action) : Option Ending :=
  match as.getLast?.bind Action.kind? with
  | some .refresh => some .refresh
  | some .close => some .close
  | _ => none

/-- The account of actions that are all done, starting with these supplies. -/
def of [KeyValueStore κ] [ColorSource γ] (mode : StorageMode) (as : List Action)
    (s : Supplies κ γ) : Account κ γ :=
  let (deeds, left) := Action.rules mode as s
  ⟨shownAfter as deeds, as.filterMap Action.asks?, left, diagnosticsFrom 0 as deeds, endingOf as⟩

end Account

/-! ## One action -/

namespace Action

/-- A world with a scripted host, put together from what the host was asked and what is left to
use. -/
def worldOf (events : List HostEvent) (s : Supplies κ γ) : World ScriptedHost κ γ :=
  ⟨⟨s.answers, events⟩, s.store, s.colors⟩

/-- The one change that an action with a deed makes to what is shown. -/
def changeOf? (a : Action) (deed : Deed) : Option Change :=
  match a.kind? with
  | some .growTrigger => some (.grow Presentation.scaleStep)
  | some .disableTrigger => some .disable
  | _ => (deed.entry.map .push).or (deed.color.map .recolor)

/-- A text that is missing counts as an empty one. -/
theorem filter_ne_empty (text : Option String) :
    text.filter (· ≠ "") = if text.getD "" = "" then none else some (text.getD "") := by
  cases text with
  | none => rfl
  | some t => by_cases h : t = "" <;> simp [h, Option.filter_some]

theorem nonEmptyParam?_eq (a : Action) :
    a.nonEmptyParam? = if a.param.getD "" = "" then none else some (a.param.getD "") :=
  filter_ne_empty a.param

theorem given_eq_textOr (a : Action) (otherwise : String) :
    a.given otherwise = a.textOr otherwise := by
  unfold given textOr
  rw [nonEmptyParam?_eq]
  split <;> rfl

theorem saveValue_eq [KeyValueStore κ] (mode : StorageMode) (a : Action) (events : List HostEvent)
    (s : Supplies κ γ) :
    a.saveValue mode (worldOf events s) =
      let (deed, s) := saveRule mode a.paramOrEmpty s
      ⟨worldOf events s, (deed.entry.map .push).or (deed.color.map .recolor), deed.issues⟩ := by
  unfold saveValue saveRule
  rw [StorageParam.parse_eq]
  by_cases h : ':' ∈ a.paramOrEmpty.toList
  · simp only [if_pos h, worldOf]
    generalize KeyValueStore.set (κ := κ) _ _ _ = answer
    rcases answer with ⟨e | _, store⟩ <;> rfl
  · simp only [if_neg h]
    cases mode <;> rfl

theorem showValue_eq [KeyValueStore κ] (mode : StorageMode) (a : Action) (events : List HostEvent)
    (s : Supplies κ γ) :
    a.showValue mode (worldOf events s) =
      let (deed, s) := showRule mode a.paramOrEmpty s
      ⟨worldOf events s, (deed.entry.map .push).or (deed.color.map .recolor), deed.issues⟩ := by
  have hissues : (if Text.trim a.paramOrEmpty = "" then a.malformed mode else []) =
      if Text.trim a.paramOrEmpty = "" ∧ mode = .strict
      then [Issue.malformedStorageParam a.paramOrEmpty] else [] := by
    cases mode <;> by_cases h : Text.trim a.paramOrEmpty = "" <;> simp [h, malformed]
  unfold showValue showRule
  simp only [hissues, worldOf]
  generalize KeyValueStore.get (κ := κ) _ _ = answer
  rcases answer with ⟨e | value, store⟩
  · rfl
  · have hvalue : valueLine (Text.trim a.paramOrEmpty) value =
        Text.trim a.paramOrEmpty ++ ": " ++
          if value.getD "" = "" then "Not found" else value.getD "" := by
      unfold valueLine
      rw [filter_ne_empty]
      split <;> rfl
    simp only [hvalue]
    rfl

/-- **An action does what the rule of its kind says**, whatever surrounds it. -/
theorem perform_eq_rule [KeyValueStore κ] [ColorSource γ] (mode : StorageMode) (a : Action)
    (events : List HostEvent) (s : Supplies κ γ) :
    a.perform mode (worldOf events s) =
      let (deed, s) := a.rule mode s
      ⟨worldOf (events ++ a.asks?.toList) s, a.changeOf? deed, deed.issues⟩ := by
  unfold perform rule asks? changeOf?
  cases a.kind? with
  | none => simp
  | some kind =>
    cases kind with
    | alert =>
      simp [performAs, Host.notify, ScriptedHost.record, worldOf, given_eq_textOr,
        Default.alertMessage]
    | showText => simp [performAs, given_eq_textOr, Default.text]
    | showImage =>
      simp only [performAs, nonEmptyParam?_eq]
      split <;> simp
    | refresh => simp [performAs, Host.reload, ScriptedHost.record, worldOf]
    | setStorage => simpa [performAs, paramOrEmpty] using saveValue_eq mode a events s
    | getStorage => simpa [performAs, paramOrEmpty] using showValue_eq mode a events s
    | growTrigger => simp [performAs]
    | close => simp [performAs, Host.close, ScriptedHost.record, worldOf]
    | promptAndShow =>
      simp [performAs, Action.promptAndShow, Host.prompt, ScriptedHost.prompt,
        ScriptedHost.record, worldOf, given_eq_textOr, Default.promptMessage, Function.comp_def]
    | recolorTrigger =>
      simp only [performAs, recolor, nonEmptyParam?_eq]
      by_cases h : a.param.getD "" = "" <;> simp [h, worldOf]
    | disableTrigger => simp [performAs]

theorem color_saveRule [KeyValueStore κ] (mode : StorageMode) (param : String)
    (s : Supplies κ γ) : (saveRule mode param s).1.color = none := by
  unfold saveRule
  split
  · dsimp only
    split <;> rfl
  · rfl

theorem color_showRule [KeyValueStore κ] (mode : StorageMode) (param : String)
    (s : Supplies κ γ) : (showRule mode param s).1.color = none := by
  unfold showRule
  dsimp only
  split <;> rfl

/-- Adding an entry, if there is one, changes the log and nothing else. -/
theorem elim_push (entry : Option Content) (p : Presentation) :
    entry.elim p (fun item => Sink.apply (.push item) p) =
      { p with log := p.log ++ entry.toList } := by
  cases entry with
  | none => simp
  | some item => rfl

/-- **What one action does to what is shown**, field by field. -/
theorem elim_changeOf? [KeyValueStore κ] [ColorSource γ] (mode : StorageMode) (a : Action)
    (s : Supplies κ γ) (p : Presentation) :
    (a.changeOf? (a.rule mode s).1).elim p (Sink.apply · p) =
      { log := p.log ++ (a.rule mode s).1.entry.toList
        scale := if a.kind? = some .growTrigger then p.scale + 0.2 else p.scale
        color := (a.rule mode s).1.color.getD p.color
        enabled := p.enabled && !(a.kind? = some .disableTrigger) } := by
  have hstep : Presentation.scaleStep > 0.0 := by decide
  unfold changeOf? rule
  cases a.kind? with
  | none => simp
  | some kind =>
    cases kind with
    | alert | refresh | close => simp
    | showText => simp [Sink.apply, Presentation.apply]
    | showImage => by_cases h : a.param.getD "" = "" <;> simp [h, Sink.apply, Presentation.apply]
    | setStorage => simp [color_saveRule, Function.comp_def, elim_push]
    | getStorage => simp [color_showRule, Function.comp_def, elim_push]
    | growTrigger =>
      have hgrow : Presentation.apply (.grow Presentation.scaleStep) p =
          { p with scale := p.scale + 0.2 } := by
        rw [Presentation.apply, if_pos hstep]
        rfl
      simp [Sink.apply, hgrow]
    | promptAndShow => cases s.answers <;> simp [Sink.apply, Presentation.apply]
    | recolorTrigger =>
      by_cases h : a.param.getD "" = "" <;> simp [h, Sink.apply, Presentation.apply]
    | disableTrigger => simp [Sink.apply, Presentation.apply]

end Action

/-! ## Actions in turn -/

namespace Account

variable [KeyValueStore κ] [ColorSource γ]

def changes (as : List Action) (deeds : List Deed) : List Change :=
  (as.zip deeds).filterMap fun (a, deed) => a.changeOf? deed

/-- Doing actions one after the other is keeping their account, wherever it began. -/
theorem foldl_add_eq (mode : StorageMode) (as : List Action) (events : List HostEvent)
    (s : Supplies κ γ) (n : Nat) (done : List Change) (noted : List Diagnostic) :
    as.foldl (Progress.add mode) ⟨Action.worldOf events s, n, done, noted⟩ =
      let (deeds, left) := Action.rules mode as s
      ⟨Action.worldOf (events ++ as.filterMap Action.asks?) left, n + as.length,
        done ++ changes as deeds, noted ++ diagnosticsFrom n as deeds⟩ := by
  induction as generalizing events s n done noted with
  | nil => simp [Action.rules, changes, diagnosticsFrom]
  | cons a as ih =>
    simp only [List.foldl_cons, Progress.add, Action.perform_eq_rule, ih, Action.rules]
    have hevents : events ++ a.asks?.toList ++ as.filterMap Action.asks? =
        events ++ (a :: as).filterMap Action.asks? := by
      cases h : a.asks? <;> simp [h]
    have hchanges (deed : Deed) (deeds : List Deed) :
        done ++ (a.changeOf? deed).toList ++ changes as deeds =
          done ++ changes (a :: as) (deed :: deeds) := by
      cases h : a.changeOf? deed <;> simp [changes, h]
    have hnoted (deed : Deed) (deeds : List Deed) :
        noted ++ deed.issues.map (⟨n, a.kind, ·⟩) ++ diagnosticsFrom (n + 1) as deeds =
          noted ++ diagnosticsFrom n (a :: as) (deed :: deeds) := by
      simp [diagnosticsFrom]
    rw [hevents, hchanges, hnoted]
    simp [Nat.add_comm, Nat.add_left_comm]

/-- What is shown after actions in turn, field by field, wherever it began. -/
theorem applyAll_changes (mode : StorageMode) (as : List Action) (s : Supplies κ γ)
    (p : Presentation) :
    let deeds := (Action.rules mode as s).1
    Sink.applyAll (changes as deeds) p =
      { log := p.log ++ deeds.filterMap (·.entry)
        scale := grown p.scale (as.countP (·.kind? = some .growTrigger))
        color := (deeds.filterMap (·.color)).getLast?.getD p.color
        enabled := p.enabled && !as.any (·.kind? = some .disableTrigger) } := by
  induction as generalizing s p with
  | nil => simp [Action.rules, changes, Sink.applyAll, grown]
  | cons a as ih =>
    have hfirst : Sink.applyAll (changes (a :: as) (Action.rules mode (a :: as) s).1) p =
        Sink.applyAll (changes as (Action.rules mode as (a.rule mode s).2).1)
          ((a.changeOf? (a.rule mode s).1).elim p (Sink.apply · p)) := by
      cases h : a.changeOf? (a.rule mode s).1 <;> simp [Action.rules, changes, h, Sink.applyAll]
    dsimp only
    rw [hfirst, Action.elim_changeOf?, ih]
    dsimp only [Action.rules]
    have hlog (deed : Deed) (deeds : List Deed) :
        p.log ++ deed.entry.toList ++ deeds.filterMap (·.entry) =
          p.log ++ (deed :: deeds).filterMap (·.entry) := by
      cases h : deed.entry <;> simp [h]
    have hscale : grown (if a.kind? = some .growTrigger then p.scale + 0.2 else p.scale)
        (as.countP (·.kind? = some .growTrigger)) =
          grown p.scale ((a :: as).countP (·.kind? = some .growTrigger)) := by
      by_cases h : a.kind? = some .growTrigger <;> simp [h, grown]
    have hcolor (deed : Deed) (deeds : List Deed) :
        (deeds.filterMap (·.color)).getLast?.getD (deed.color.getD p.color) =
          ((deed :: deeds).filterMap (·.color)).getLast?.getD p.color := by
      cases h : deed.color <;> simp [h, List.getLast?_cons]
    have henabled : (p.enabled && !decide (a.kind? = some .disableTrigger) &&
        !as.any (·.kind? = some .disableTrigger)) =
          (p.enabled && !(a :: as).any (·.kind? = some .disableTrigger)) := by
      simp [Bool.and_assoc]
    rw [hlog, hscale, hcolor, henabled]

theorem endingOf_eq (as : List Action) : endingOf as = as.getLast?.bind Action.ending? := by
  unfold endingOf Action.ending?
  cases as.getLast? with
  | none => rfl
  | some a =>
    dsimp only [Option.bind_some]
    cases a.kind? with
    | none => rfl
    | some kind => cases kind <;> rfl

theorem progress_of_eq (mode : StorageMode) (as : List Action) (events : List HostEvent)
    (s : Supplies κ γ) (before : Presentation) :
    let p := Progress.of mode (Action.worldOf events s) as
    let account := Account.of mode as s
    p.world = Action.worldOf (events ++ account.events) account.left ∧
      p.executed = as.length ∧
      Sink.applyAll (.reset :: p.changes) before = account.shown ∧
      p.diagnostics = account.diagnostics := by
  have hof := foldl_add_eq mode as events s 0 [] []
  have hshown := applyAll_changes mode as s Presentation.initial
  unfold Progress.of Progress.none
  rw [hof]
  refine ⟨rfl, by simp, ?_, by simp [Account.of]⟩
  -- The reset comes first, so what was shown before does not matter.
  show Sink.applyAll (changes as (Action.rules mode as s).1) Presentation.initial = _
  rw [hshown]
  simp [Account.of, shownAfter, Presentation.initial]

end Account

namespace Course

/-- **A run comes to the account of the actions that it reaches.** Stepped until it reports that it
is over, it has done each of them by the rule of its kind and nothing else, whatever was shown
before and whatever the store answers. -/
theorem finish_eq_account [KeyValueStore κ] [ColorSource γ] {d : Document}
    (hd : d.isRunnable = true) (mode : StorageMode) (w : World ScriptedHost κ γ)
    (before : Presentation) :
    let as := Action.upToEnd d.actions
    let account := Account.of mode as ⟨w.host.answers, w.store, w.colors⟩
    ∃ (r : Run) (stage : Stage ScriptedHost κ γ Presentation),
      Run.start d mode = .ok r ∧
      (⟨r, w, before⟩ : Course ScriptedHost κ γ Presentation).finish.find?
        (·.result ≠ some .paced) = some stage ∧
      stage.result = some (account.ending.elim .finished .terminal) ∧
      stage.course.shown = account.shown ∧
      stage.course.world =
        ⟨⟨account.left.answers, w.host.events ++ account.events⟩, account.left.store,
          account.left.colors⟩ ∧
      ∀ pauses, stage.course.run.outcome pauses =
        ⟨account.ending.elim .completed .terminated, as.length, pauses, account.diagnostics⟩ := by
  intro as account
  have hstart := Run.start_of_isRunnable hd mode
  have hne : d.actions ≠ [] := (Run.start_eq_ok_iff.mp hstart).1
  have hpos : as.length ≠ 0 := fun h0 =>
    hne (Action.upToEnd_eq_nil_iff.mp (List.length_eq_zero_iff.mp h0))
  obtain ⟨hworld, hexecuted, hshown, hdiagnostics⟩ :=
    Account.progress_of_eq mode as w.host.events ⟨w.host.answers, w.store, w.colors⟩ before
  have hupTo : Progress.upTo d.actions mode w as.length = Progress.of mode w as :=
    Progress.upTo_of_le (Nat.le_refl _) mode w
  have hending : account.ending = as.getLast?.bind Action.ending? := Account.endingOf_eq as
  refine ⟨_, _, hstart, find?_finish hstart w before, ?_, ?_, ?_, fun pauses => ?_⟩
  · rw [hending]
  · show Sink.applyAll (if as.length = 0 then [] else .reset :: _) before = _
    rw [if_neg hpos, hupTo]
    exact hshown
  · show (Progress.upTo d.actions mode w as.length).world = _
    rw [hupTo]
    exact hworld
  · have hstatus := Run.status_reached hne mode w as.length
    rw [if_neg (Nat.lt_irrefl _)] at hstatus
    show (⟨(Run.reached d.actions mode w as.length).status,
      (Progress.upTo d.actions mode w as.length).executed, pauses,
      (Progress.upTo d.actions mode w as.length).diagnostics⟩ : Outcome) = _
    rw [hstatus, hupTo, hending]
    exact congrArg₂ (Outcome.mk _ · pauses ·) hexecuted hdiagnostics

def closingEarly : Document :=
  ⟨"Go",
    [⟨"1", "grow-trigger", "", none⟩, ⟨"2", "set-storage", "", some " city : Oslo"⟩,
      ⟨"3", "getLocalStorage", "", none⟩, ⟨"4", "promptAndShow", "", some ""⟩,
      ⟨"5", "dance", "", none⟩, ⟨"6", "close", "", none⟩, ⟨"7", "showText", "", some "never"⟩]⟩

/-- A store that takes nothing, a parameter that names no key and a kind that nobody knows do not
keep a run from closing the host, and nothing is left of what was shown before. -/
theorem finish_closingEarly :
    let w : World ScriptedHost RefusingStore Palette :=
      ⟨.withAnswers ["yes", "no"], ⟨.empty, "full", false, true⟩, .ofList []⟩
    let before : Presentation := ⟨[.text "old"], 7.0, "red", false⟩
    closingEarly.isRunnable = true ∧
    ∃ (r : Run) (stage : Stage ScriptedHost RefusingStore Palette Presentation),
      Run.start closingEarly .strict = .ok r ∧
      (⟨r, w, before⟩ : Course ScriptedHost RefusingStore Palette Presentation).finish.find?
        (·.result ≠ some .paced) = some stage ∧
      stage.result = some (.terminal .close) ∧
      stage.course.shown.log = [.text ": Not found", .text "yes"] ∧
      stage.course.shown.scale = 1.0 + 0.2 ∧ stage.course.shown.enabled = true ∧
      stage.course.world.host = ⟨["no"], [.prompted "Enter your input:", .closed]⟩ ∧
      stage.course.run.outcome 5 =
        ⟨.terminated .close, 6, 5,
          [⟨1, "set-storage", .storageFailed "Storage error: full"⟩,
            ⟨2, "getLocalStorage", .malformedStorageParam ""⟩, ⟨4, "dance", .unknownKind⟩]⟩ := by
  intro w before
  have hrun : closingEarly.isRunnable = true := by decide
  obtain ⟨r, stage, hstart, hfind, hresult, hshown, hworld, houtcome⟩ :=
    finish_eq_account hrun .strict w before
  refine ⟨hrun, r, stage, hstart, hfind, ?_, ?_, ?_, ?_, ?_, ?_⟩
  · rw [hresult]
    decide +kernel
  · rw [hshown]
    decide +kernel
  · rw [hshown]
    rfl
  · rw [hshown]
    decide +kernel
  · rw [hworld]
    decide +kernel
  · rw [houtcome]
    decide +kernel

end Course
end TriggerFlow
