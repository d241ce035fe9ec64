import TriggerFlow.DocumentStore
import TriggerFlow.Proofs.Document.Codec
import TriggerFlow.Proofs.FileTree.Failing

/-!
# A document store keeps what was saved last

Whoever loads gets **the document of the last save that succeeded**, from a store in memory as from
one in a file, however often the latter is closed and opened again. The store in a file has no
memory of its own: that it keeps a document is a fact about files, and it holds as long as nobody
else changes what is read by its path.

Before the first such save it answers what was there at the start. A save that fails does not change
this, but where there was nothing it may make a directory appear in the place of the file.
-/

set_option autoImplicit false

namespace TriggerFlow

/-- What is asked of a document store. -/
inductive DocumentCall where
  | load
  | save (d : Document)

inductive DocumentAnswer where
  | loaded (d : Option Document)
  | saved
  | failed (cause : Failure)

def DocumentAnswer.ofLoad : Except Failure (Option Document) → DocumentAnswer
  | .ok d => .loaded d
  | .error cause => .failed cause

def DocumentAnswer.ofSave : Except Failure Unit → DocumentAnswer
  | .ok () => .saved
  | .error cause => .failed cause

def DocumentCall.ask {δ : Type} [DocumentStore δ] (s : δ) : DocumentCall → DocumentAnswer × δ
  | .load => (.ofLoad (DocumentStore.load s), s)
  | .save d => (DocumentStore.save d s).map .ofSave id

/-- The document that a call has saved. -/
def savedBy? : DocumentCall × DocumentAnswer → Option Document
  | (.save d, .saved) => some d
  | _ => none

theorem savedBy?_load (answer : DocumentAnswer) : savedBy? (.load, answer) = none := rfl

/-- The document of the last save that succeeded. -/
def lastSaved? (history : List (DocumentCall × DocumentAnswer)) : Option Document :=
  (history.filterMap savedBy?).getLast?

theorem lastSaved?_cons (x : DocumentCall × DocumentAnswer)
    (history : List (DocumentCall × DocumentAnswer)) :
    lastSaved? (x :: history) = (lastSaved? history).or (savedBy? x) := by
  unfold lastSaved?
  cases h : savedBy? x <;> simp [h, List.getLast?_cons]

/-- Every save has succeeded. -/
def AllSaved (history : List (DocumentCall × DocumentAnswer)) : Prop :=
  ∀ d answer, (.save d, answer) ∈ history → answer = .saved

/-! ## In memory -/

namespace DocumentSlot

/-- The calls that a store in memory has answered, and the store afterwards. -/
def replay (s : DocumentSlot) :
    List DocumentCall → List (DocumentCall × DocumentAnswer) × DocumentSlot
  | [] => ([], s)
  | call :: calls =>
    let (answer, s) := call.ask s
    let (history, s) := s.replay calls
    ((call, answer) :: history, s)

/-- What a store in memory answers and what becomes of it. -/
theorem ask_eq (call : DocumentCall) (s : DocumentSlot) :
    call.ask s = match call with
      | .load => (.loaded s.document, s)
      | .save d => (.saved, ⟨some d⟩) := by
  cases call <;> rfl

theorem loaded_of_replay (calls : List DocumentCall) :
    ∀ {s : DocumentSlot} {before after : List (DocumentCall × DocumentAnswer)}
      {answer : DocumentAnswer}, (s.replay calls).1 = before ++ (.load, answer) :: after →
      answer = .loaded ((lastSaved? before).or s.document) := by
  induction calls with
  | nil =>
    intro s before after answer h
    exact absurd h (by simp [replay])
  | cons call calls ih =>
    intro s before after answer h
    rw [replay, ask_eq] at h
    cases before with
    | nil =>
      cases call with
      | save d => cases h
      | load =>
        obtain ⟨hfirst, -⟩ := List.cons.inj h
        exact (congrArg Prod.snd hfirst).symm
    | cons x before =>
      cases call with
      | load =>
        obtain ⟨rfl, hrest⟩ := List.cons.inj h
        rw [ih hrest, lastSaved?_cons, savedBy?_load, Option.or_none]
      | save d =>
        obtain ⟨rfl, hrest⟩ := List.cons.inj h
        rw [ih hrest, lastSaved?_cons, Option.or_assoc]
        rfl

end DocumentSlot

/-! ## In a file -/

/-- What happens while a document store in a file is used. -/
inductive DocumentEvent where
  | call (call : DocumentCall)
  /-- The store is given up, and one at the same path takes its place. -/
  | reopened
  /-- Others have written, moved or removed files, and these are there now. -/
  | meddled (files : FileTree)

namespace DocumentFile

/-- The calls that a store has answered while something happened, and the store afterwards. -/
def live (s : DocumentFile) :
    List DocumentEvent → List (DocumentCall × DocumentAnswer) × DocumentFile
  | [] => ([], s)
  | .call call :: events =>
    let (answer, s) := call.ask s
    let (history, s) := s.live events
    ((call, answer) :: history, s)
  | .reopened :: events => (⟨s.path, s.files⟩ : DocumentFile).live events
  | .meddled files :: events => ({ s with files } : DocumentFile).live events

/-- Nobody else changes what is read by the path of the store. -/
def IsLeftAlone (s : DocumentFile) : List DocumentEvent → Prop
  | [] => True
  | .call call :: events => (call.ask s).2.IsLeftAlone events
  | .reopened :: events => (⟨s.path, s.files⟩ : DocumentFile).IsLeftAlone events
  | .meddled files :: events =>
    files.readIfExists s.path = s.files.readIfExists s.path ∧
      ({ s with files } : DocumentFile).IsLeftAlone events

/-- One event of a store. -/
theorem live_call (s : DocumentFile) (call : DocumentCall) (events : List DocumentEvent) :
    s.live (.call call :: events) =
      ((call, (call.ask s).1) :: ((call.ask s).2.live events).1, ((call.ask s).2.live events).2) :=
  rfl

theorem isLeftAlone_append (events more : List DocumentEvent) :
    ∀ s : DocumentFile, s.IsLeftAlone (events ++ more) ↔
      s.IsLeftAlone events ∧ (s.live events).2.IsLeftAlone more := by
  induction events with
  | nil =>
    intro s
    exact (and_iff_right trivial).symm
  | cons event events ih =>
    intro s
    cases event with
    | call call => exact ih _
    | reopened => exact ih _
    | meddled files =>
      refine Iff.trans (and_congr_right fun _ => ih _) ?_
      exact and_assoc.symm

/-- Where a history can be cut, what happened can be cut. -/
theorem events_of_history (events : List DocumentEvent) :
    ∀ {s : DocumentFile} {before after : List (DocumentCall × DocumentAnswer)}
      {call : DocumentCall} {answer : DocumentAnswer},
      (s.live events).1 = before ++ (call, answer) :: after →
      ∃ first rest, events = first ++ .call call :: rest ∧ (s.live first).1 = before ∧
        answer = (call.ask (s.live first).2).1 ∧
        ((call.ask (s.live first).2).2.live rest).1 = after := by
  induction events with
  | nil =>
    intro s before after call answer h
    exact absurd h (by simp [live])
  | cons event events ih =>
    intro s before after call answer h
    cases event with
    | reopened =>
      obtain ⟨first, rest, rfl, hrest⟩ := ih h
      exact ⟨.reopened :: first, rest, rfl, hrest⟩
    | meddled files =>
      obtain ⟨first, rest, rfl, hrest⟩ := ih h
      exact ⟨.meddled files :: first, rest, rfl, hrest⟩
    | call other =>
      rw [live_call] at h
      cases before with
      | nil =>
        obtain ⟨hfirst, hrest⟩ := List.cons.inj h
        obtain ⟨rfl, hanswer⟩ := Prod.mk.inj hfirst
        exact ⟨[], events, rfl, rfl, hanswer.symm, hrest⟩
      | cons x before =>
        obtain ⟨rfl, hrest⟩ := List.cons.inj h
        obtain ⟨first, rest, rfl, hbefore, hanswer, hafter⟩ := ih hrest
        refine ⟨.call other :: first, rest, rfl, ?_, hanswer, hafter⟩
        rw [live_call, hbefore]

/-! ## One call -/

variable {s s' : DocumentFile}

theorem load_of_readIfExists_eq (hpath : s'.path = s.path)
    (h : s'.files.readIfExists s.path = s.files.readIfExists s.path) : s'.load = s.load := by
  unfold load
  rw [hpath, h]

theorem load_of_missing (h : s.files.exists? s.path = false) : s.load = .ok none := by
  unfold load FileTree.readIfExists
  rw [h]
  rfl

theorem save_cases (d : Document) (s : DocumentFile) :
    (∃ files, s.files.save s.path d.render = (.ok (), files) ∧
        s.save d = (.ok (), { s with files })) ∨
      ∃ e files, s.files.save s.path d.render = (.error e, files) ∧
        s.save d = (.error e, { s with files }) := by
  unfold save
  cases h : s.files.save s.path d.render with
  | mk result files =>
    cases result with
    | ok => exact .inl ⟨files, rfl, rfl⟩
    | error e => exact .inr ⟨e, files, rfl, rfl⟩

/-- **What was saved is loaded.** -/
theorem load_of_save {d : Document} {files : FileTree}
    (h : s.files.save s.path d.render = (.ok (), files)) :
    ({ s with files } : DocumentFile).load = .ok (some d) := by
  unfold load
  dsimp only
  rw [FileTree.readIfExists_of_find (FileTree.find_of_save h)]
  dsimp only
  rw [Document.parse_render]

/-- How a load fails where a directory stands in the place of the file. -/
def blocked (s : DocumentFile) : Failure :=
  .unreadable s.path .isDirectory

theorem blocked_eq (hpath : s'.path = s.path) : s'.blocked = s.blocked :=
  congrArg (Failure.unreadable · .isDirectory) hpath

/-- **After a save that has failed** the load is as before, unless it finds a directory where there
was nothing. -/
theorem load_of_save_error {d : Document} {files : FileTree} {e : Failure}
    (h : s.files.save s.path d.render = (.error e, files)) :
    ({ s with files } : DocumentFile).load = s.load ∨
      s.load = .ok none ∧ e = .unwritable s.path .isDirectory ∧
        ({ s with files } : DocumentFile).load = .error s.blocked := by
  rcases FileTree.readIfExists_of_save_error h with hsame | ⟨hnothing, hdirectory, he⟩
  · exact .inl (load_of_readIfExists_eq rfl hsame)
  · refine .inr ⟨?_, he, ?_⟩
    · unfold load
      rw [hnothing]
    · unfold load
      dsimp only
      rw [FileTree.readIfExists_of_directory hdirectory]
      rfl

/-! ## Any number of calls -/

/-- What a store answers that was like this once, if so much has been saved since. -/
def Told (s : DocumentFile) (saved : Option Document)
    (answer : Except Failure (Option Document)) : Prop :=
  match saved with
  | some d => answer = .ok (some d)
  | none => answer = s.load ∨ s.load = .ok none ∧ answer = .error s.blocked

theorem Told.answer {saved : Option Document} (h : s.Told saved s'.load) :
    (∀ d, saved = some d → (DocumentCall.load.ask s').1 = .loaded (some d)) ∧
      (saved = none → (DocumentCall.load.ask s').1 = .ofLoad s.load ∨
        s.load = .ok none ∧ (DocumentCall.load.ask s').1 = .failed s.blocked) := by
  have hask : (DocumentCall.load.ask s').1 = .ofLoad s'.load := rfl
  rw [hask]
  cases saved with
  | some last =>
    refine ⟨fun d hd => ?_, nofun⟩
    rw [show s'.load = .ok (some last) from h, hd]
    rfl
  | none =>
    refine ⟨nofun, fun _ => ?_⟩
    rcases h with hsame | ⟨hnothing, hblocked⟩
    · exact .inl (congrArg _ hsame)
    · exact .inr ⟨hnothing, congrArg DocumentAnswer.ofLoad hblocked⟩

/-- What is told after a call is told before it, the call being counted. -/
theorem Told.of_ask {call : DocumentCall} {saved : Option Document}
    {answer : Except Failure (Option Document)} (h : (call.ask s).2.Told saved answer) :
    s.Told (saved.or (savedBy? (call, (call.ask s).1))) answer := by
  cases call with
  | load =>
    show s.Told (saved.or none) answer
    rw [Option.or_none]
    exact h
  | save d =>
    have hask : (DocumentCall.save d).ask s = (s.save d).map .ofSave id := rfl
    rcases save_cases d s with ⟨files, hsave, hdone⟩ | ⟨e, files, hsave, hdone⟩
    · rw [hask, hdone] at h ⊢
      cases saved with
      | some last => exact h
      | none =>
        have hload := load_of_save hsave
        rcases h with hsame | ⟨hnone, -⟩
        · exact hsame.trans hload
        · cases hload.symm.trans hnone
    · rw [hask, hdone] at h ⊢
      show s.Told (saved.or none) answer
      rw [Option.or_none]
      cases saved with
      | some last => exact h
      | none =>
        rcases load_of_save_error hsave with hsame | ⟨hnothing, -, hblocked⟩
        · rcases h with hload | ⟨hnone, hload⟩
          · exact .inl (hload.trans hsame)
          · exact .inr ⟨hsame.symm.trans hnone, hload⟩
        · rcases h with hload | ⟨hnone, -⟩
          · exact .inr ⟨hnothing, hload.trans hblocked⟩
          · cases hblocked.symm.trans hnone

/-- **A store goes on telling what was saved last.** -/
theorem told_live (events : List DocumentEvent) :
    ∀ {s : DocumentFile}, s.IsLeftAlone events →
      s.Told (lastSaved? (s.live events).1) (s.live events).2.load := by
  induction events with
  | nil =>
    intro s _
    exact .inl rfl
  | cons event events ih =>
    intro s h
    cases event with
    | call call =>
      rw [live_call, lastSaved?_cons]
      exact (ih h).of_ask
    | reopened => exact ih h
    | meddled files =>
      obtain ⟨hsame, hlater⟩ := h
      have hload : ({ s with files } : DocumentFile).load = s.load :=
        load_of_readIfExists_eq rfl hsame
      have htold := ih hlater
      unfold Told at htold ⊢
      rw [hload] at htold
      exact htold

theorem path_live (events : List DocumentEvent) :
    ∀ s : DocumentFile, (s.live events).2.path = s.path := by
  induction events with
  | nil =>
    intro s
    rfl
  | cons event events ih =>
    intro s
    cases event with
    | reopened => exact ih _
    | meddled files => exact ih _
    | call call =>
      refine (ih _).trans ?_
      cases call with
      | load => rfl
      | save d =>
        show (s.save d).2.path = s.path
        rcases save_cases d s with ⟨files, -, hdone⟩ | ⟨e, files, -, hdone⟩ <;> rw [hdone]

/-- **A store in a file answers like one in memory** that begins with the same document, as long as
no save fails. -/
theorem replay_of_allSaved (events : List DocumentEvent) :
    ∀ {s : DocumentFile} {slot : DocumentSlot}, s.IsLeftAlone events →
      s.load = .ok slot.document → AllSaved (s.live events).1 →
      (slot.replay ((s.live events).1.map (·.1))).1 = (s.live events).1 := by
  induction events with
  | nil =>
    intro s slot _ _ _
    rfl
  | cons event events ih =>
    intro s slot h hload hsaved
    cases event with
    | reopened => exact ih h hload hsaved
    | meddled files =>
      have hsame : ({ s with files } : DocumentFile).load = s.load :=
        load_of_readIfExists_eq rfl h.1
      exact ih h.2 (hsame.trans hload) hsaved
    | call call =>
      rw [live_call] at hsaved ⊢
      have hlater : AllSaved ((call.ask s).2.live events).1 :=
        fun d answer hmem => hsaved d answer (List.mem_cons_of_mem _ hmem)
      rw [List.map_cons, DocumentSlot.replay, DocumentSlot.ask_eq]
      cases call with
      | load =>
        have hanswer : (DocumentCall.load.ask s).1 = .loaded slot.document := by
          show DocumentAnswer.ofLoad s.load = _
          rw [hload]
          rfl
        rw [hanswer]
        exact congrArg _ (ih h hload hlater)
      | save d =>
        have hanswer := hsaved d _ List.mem_cons_self
        rw [hanswer]
        refine congrArg _ (ih h ?_ hlater)
        have hask : (DocumentCall.save d).ask s = (s.save d).map .ofSave id := rfl
        rcases save_cases d s with ⟨files, hsave, hdone⟩ | ⟨e, files, -, hdone⟩
        · rw [hask, hdone]
          exact load_of_save hsave
        · rw [hask, hdone] at hanswer
          cases hanswer

/-- What a load of the file comes to: nothing, a document or a failure. -/
theorem load_cases (s : DocumentFile) :
    s.files.exists? s.path = false ∧ s.load = .ok none ∨
      (∃ text d, s.files.read s.path = .ok text ∧ Document.parse text = .ok d ∧
        s.load = .ok (some d)) ∨
      ∃ e, s.load = .error e := by
  cases hexists : s.files.exists? s.path with
  | false => exact .inl ⟨rfl, load_of_missing hexists⟩
  | true =>
    right
    unfold load FileTree.readIfExists
    rw [if_pos hexists]
    cases hread : s.files.read s.path with
    | error e => exact .inr ⟨_, rfl⟩
    | ok text =>
      dsimp only
      cases hparse : Document.parse text with
      | error e => exact .inr ⟨_, rfl⟩
      | ok d => exact .inl ⟨text, d, rfl, hparse, rfl⟩

/-- **A document store keeps what was saved last.** A load gets the document of the last save that
succeeded before it. Where there is none, a store in memory has nothing, and one in a file answers
what was there at the start, the same at each load. A save that fails changes no file and no answer,
with one exception: where there was nothing, a directory may have come in the way, and loads fail
from then on. A store in a file that has never refused a save and found nothing at the start cannot
be told from one in memory, however often it was opened again. -/
theorem live_keeps_lastSaved {s : DocumentFile} {events : List DocumentEvent}
    (h : s.IsLeftAlone events) :
    let history := (s.live events).1
    let now := (s.live events).2
    (∀ calls before answer after,
      (DocumentSlot.empty.replay calls).1 = before ++ (.load, answer) :: after →
      answer = .loaded (lastSaved? before)) ∧
    (s.files.exists? s.path = false ∧ s.load = .ok none ∨
      (∃ text d, s.files.read s.path = .ok text ∧ Document.parse text = .ok d ∧
        s.load = .ok (some d)) ∨
      ∃ e, s.load = .error e) ∧
    (∀ before answer after, history = before ++ (.load, answer) :: after →
      (∀ d, lastSaved? before = some d → answer = .loaded (some d)) ∧
      (lastSaved? before = none →
        answer = .ofLoad s.load ∨ s.load = .ok none ∧ answer = .failed s.blocked)) ∧
    (∀ before first between second after,
      history = before ++ (.load, first) :: (between ++ (.load, second) :: after) →
      lastSaved? between = none →
      second = first ∨ first = .loaded none ∧ second = .failed s.blocked) ∧
    (∀ d e now', now.save d = (.error e, now') →
      (∀ place content, now'.files.at? place = some (.file content) ↔
        now.files.at? place = some (.file content)) ∧
      (now'.load = now.load ∨
        now.load = .ok none ∧ e = .unwritable s.path .isDirectory ∧
          now'.load = .error s.blocked)) ∧
    (s.files.exists? s.path = false → AllSaved history →
      (DocumentSlot.empty.replay (history.map (·.1))).1 = history) := by
  intro history now
  refine ⟨?_, s.load_cases, ?_, ?_, ?_, ?_⟩
  · intro calls before answer after hcut
    rw [DocumentSlot.loaded_of_replay calls hcut]
    exact congrArg _ (Option.or_none ..)
  · intro before answer after hcut
    obtain ⟨first, rest, rfl, rfl, rfl, -⟩ := events_of_history events hcut
    have htold := told_live first ((isLeftAlone_append first _ s).mp h).1
    exact htold.answer
  · intro before first between second after hcut hnone
    obtain ⟨early, rest, rfl, -, rfl, hrest⟩ := events_of_history events hcut
    obtain ⟨middle, late, rfl, rfl, rfl, -⟩ := events_of_history rest hrest
    -- The store at the first of the two loads is one to begin with.
    have hleft := ((isLeftAlone_append early _ s).mp h).2
    have htold := told_live middle ((isLeftAlone_append middle _ _).mp hleft).1
    rcases htold.answer.2 hnone with hsame | ⟨hnothing, hblocked⟩
    · exact .inl hsame
    · refine .inr ⟨congrArg DocumentAnswer.ofLoad hnothing, ?_⟩
      rw [← blocked_eq (path_live early s)]
      exact hblocked
  · intro d e now' hsave
    have hpath : now.path = s.path := path_live events s
    rcases save_cases d now with ⟨files, -, hdone⟩ | ⟨cause, files, hfailed, hdone⟩
    · rw [hdone] at hsave
      cases hsave
    · rw [hdone] at hsave
      cases hsave
      refine ⟨(FileTree.grows_of_save_error hfailed).file_iff, ?_⟩
      rcases load_of_save_error hfailed with hsame | ⟨hnothing, he, hload⟩
      · exact .inl hsame
      · exact .inr ⟨hnothing, hpath ▸ he, hload.trans (congrArg _ (blocked_eq hpath))⟩
  · intro hmissing hsaved
    exact replay_of_allSaved events h (load_of_missing hmissing) hsaved

def notebook : DocumentFile :=
  ⟨"notes/workflow.json", ⟨[(FileTree.key ["home"], .directory)], ["home"]⟩⟩

/-- Two documents are saved one after the other, while somebody writes another file: the store that
is opened in the end at the same path loads the second. -/
theorem live_reopened :
    let others : FileTree :=
      ⟨[(FileTree.key ["home"], .directory), (FileTree.key ["todo"], .file (.text "x"))], ["home"]⟩
    let first : Document := ⟨"Go", [⟨"1", "showText", "Show Text", some "\""⟩]⟩
    let events : List DocumentEvent := [.meddled others, .call .load, .call (.save first),
      .call (.save .empty), .reopened, .call .load]
    ∃ before answer, (notebook.live events).1 = before ++ [(.load, answer)] ∧
      lastSaved? before = some .empty ∧ answer = .loaded (some .empty) := by
  intro others first events
  have hleft : notebook.IsLeftAlone events := by
    refine ⟨?_, trivial⟩
    show others.readIfExists notebook.path = .ok none
    rfl
  obtain ⟨-, -, hanswers, -⟩ := live_keeps_lastSaved hleft
  have hcut : (notebook.live events).1 = [_, _, _] ++ (.load, _) :: [] := rfl
  have hsaved : lastSaved? (notebook.live (events.take 4)).1 = some .empty := by decide +kernel
  exact ⟨_, _, hcut, hsaved, (hanswers _ _ _ hcut).1 .empty hsaved⟩

/-- Who saves where a directory stands, by a path that goes up again, makes the load fail that found
nothing before. -/
theorem load_blocked :
    let s : DocumentFile := ⟨"d/../h", ⟨[(FileTree.key ["h"], .directory)], []⟩⟩
    s.load = .ok none ∧ (s.save .empty).1 = .error (.unwritable "d/../h" .isDirectory) ∧
      (s.save .empty).2.load = .error (.unreadable "d/../h" .isDirectory) := by
  refine ⟨?_, ?_, ?_⟩
  · rfl
  · rfl
  · rfl

end DocumentFile
end TriggerFlow
