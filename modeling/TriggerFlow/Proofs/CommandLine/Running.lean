import TriggerFlow.Proofs.CommandLine.Editing
import TriggerFlow.Proofs.Engine.Timing

/-!
# A run at the terminal, from beginning to end

The command that runs a document calls it on an engine of its own and lets it go on until it is
answered. **Nothing comes between**, so what is there at the end is what the course of the run has
left after its last action: the console, the store, the colors and the display.
-/

set_option autoImplicit false

namespace TriggerFlow

namespace CommandLine

/-! ## The display -/

/-- A display shows what a plain presentation does. -/
theorem Display.shown_applyAll (changes : List Change) :
    ∀ d : Display, (Sink.applyAll changes d).shown = Sink.applyAll changes d.shown := by
  induction changes with
  | nil =>
    intro d
    rfl
  | cons c changes ih =>
    intro d
    exact ih (Sink.apply c d)

/-! ## Sessions -/

namespace Session

theorem handle_of_silent {s : Session} {event : Event} (h : (s.engine.handle event).1 = none) :
    s.handle event = { s with engine := (s.engine.handle event).2 } := by
  unfold handle
  split
  · rename_i heq
    rw [heq] at h
    cases h
  · rename_i heq
    rw [heq]

theorem handle_of_answer {s : Session} {event : Event} {caller : Nat} {answer : Answer}
    (h : (s.engine.handle event).1 = some (caller, answer)) :
    s.handle event = { s with engine := (s.engine.handle event).2, answer := some answer } := by
  unfold handle
  split
  · rename_i heq
    rw [heq] at h
    cases h
    rw [heq]
  · rename_i heq
    rw [heq] at h
    cases h

/-- The run of a job is over, and the session has been told so. -/
structure IsOver (s : Session) (j : Job Console FileStore RandomColors Display) : Prop where
  rests : s.engine.Rests j j.length
  answer : s.answer = some (.ended ((j.courseAt j.length).run.outcome j.pauses))

/-- The run of a job is in the pause after some of its actions. -/
structure InPause (s : Session) (j : Job Console FileStore RandomColors Display) (n : Nat) :
    Prop where
  flight : s.engine.flight = some (Engine.flightAt j n)
  stands : s.engine.Stands j n
  unanswered : s.answer = none

variable {j : Job Console FileStore RandomColors Display} {s : Session} {n : Nat} {event : Event}

/-- **A run that goes on** after some of its actions does the next one, or it is over. -/
theorem cases_of_proceed (hstands : s.engine.Stands j n) (hanswer : s.answer = none)
    (h : s.engine.handle event = s.engine.proceed (Engine.flightAt j n)) :
    n < j.pauses ∧ (s.handle event).InPause j (n + 1) ∨ (s.handle event).IsOver j := by
  rcases Nat.lt_or_eq_of_le hstands.inBounds with hlt | rfl
  · obtain ⟨hsilent, hflight, hnext⟩ := hstands.proceed_of_lt hlt
    rw [← h] at hsilent hflight hnext
    rw [handle_of_silent hsilent]
    exact .inl ⟨hlt, hflight, hnext, hanswer⟩
  · obtain ⟨htold, hrests⟩ := hstands.proceed_of_eq
    rw [← h] at htold hrests
    rw [handle_of_answer htold]
    exact .inr ⟨hrests, rfl⟩

theorem document_handle (s : Session) (event : Event) :
    (s.handle event).document = s.document := by
  unfold handle
  split <;> rfl

theorem document_resumeAll (fuel : Nat) :
    ∀ s : Session, (s.resumeAll fuel).document = s.document := by
  induction fuel with
  | zero =>
    intro s
    rfl
  | succ fuel ih =>
    intro s
    unfold resumeAll
    split
    · rfl
    · exact (ih s.resume).trans (document_handle s .pauseEnd)

theorem IsOver.resumeAll (h : s.IsOver j) (fuel : Nat) : (s.resumeAll fuel).IsOver j := by
  cases fuel with
  | zero => exact h
  | succ fuel =>
    unfold Session.resumeAll
    rw [h.answer, if_pos Option.isSome_some]
    exact h

/-- A session that is let go on comes to the end of its run. -/
theorem InPause.resumeAll (fuel : Nat) :
    ∀ {s : Session} {n : Nat}, s.InPause j n → j.pauses - n < fuel →
      (s.resumeAll fuel).IsOver j := by
  induction fuel with
  | zero =>
    intro s n _ hfuel
    exact absurd hfuel (Nat.not_lt_zero _)
  | succ fuel ih =>
    intro s n h hfuel
    have hproceeds : s.engine.handle .pauseEnd = s.engine.proceed (Engine.flightAt j n) := by
      dsimp only [Engine.handle]
      rw [h.flight]
    unfold Session.resumeAll
    rw [h.unanswered, if_neg (by simp)]
    rcases cases_of_proceed h.stands h.unanswered hproceeds with ⟨hlt, hpause⟩ | hover
    · exact ih hpause (by omega)
    · exact hover.resumeAll fuel

/-- What the run of a document begins with. -/
def display (c : Context) (d : Document) : Display :=
  ⟨.initial, !c.json, if c.json || !d.isRunnable then "" else runHeader d⟩

/-- **A session comes to the end of the course of its run**, with the outcome as its answer. -/
theorem finish_start {c : Context} {d : Document} {run : Run}
    (starts : Run.start d c.settings.mode = .ok run) (console : Console) (store : FileStore)
    (colors : RandomColors) :
    let last := (start c (some d) console store colors).finish
    let course := (⟨run, ⟨console, store, colors⟩, display c d⟩ :
      Course Console FileStore RandomColors Display).after (Action.upToEnd d.actions).length
    last.engine.world = course.world ∧ last.engine.cells = [course.shown] ∧
      last.answer = some (.ended (course.run.outcome (Action.pauses d.actions))) ∧
      last.document = d := by
  intro last course
  let w : World Console FileStore RandomColors := ⟨console, store, colors⟩
  let fresh : Session := ⟨.new c.settings w [display c d], d, none⟩
  let j : Job Console FileStore RandomColors Display :=
    ⟨0, 0, d, c.settings.mode, run, starts, w, [display c d], display c d, rfl⟩
  have hstart : start c (some d) console store colors = fresh.handle (.call 0 (some d) 0) := rfl
  have hcall : fresh.engine.handle (.call 0 (some d) 0) =
      fresh.engine.proceed (Engine.flightAt j 0) := by
    rw [Engine.handle_call rfl starts]
    have hrun : (j.courseAt 0).run = run := congrArg Course.run j.courseAt_zero
    rw [Engine.flightAt, hrun]
  have hstands : fresh.engine.Stands j 0 := by
    refine ⟨⟨?_, ?_⟩, List.not_mem_nil, Nat.zero_le _⟩
    · rw [j.courseAt_zero]
      rfl
    · rw [j.courseAt_zero]
      rfl
  have hfuel : j.pauses - 1 < d.size + 1 := by
    have hle := j.pauses_le
    have hsize : j.length ≤ d.size := Action.length_upToEnd_le d.actions
    omega
  have hover : last.IsOver j := by
    show ((start c (some d) console store colors).resumeAll _).IsOver j
    have hdocument : (start c (some d) console store colors).document = d := by
      rw [hstart, document_handle]
    rw [hdocument, hstart]
    rcases cases_of_proceed hstands rfl hcall with ⟨-, hpause⟩ | hover
    · exact hpause.resumeAll _ hfuel
    · exact hover.resumeAll _
  have hcourse : course = j.courseAt j.length := Course.after_eq starts ..
  rw [hcourse]
  refine ⟨hover.rests.shows.world, hover.rests.shows.cells, hover.answer, ?_⟩
  show ((start c (some d) console store colors).resumeAll _).document = d
  rw [document_resumeAll, hstart, document_handle]

end Session

/-! ## Processes -/

theorem Context.loadDocument_of_saved (c : Context) {files : FileTree} {held : Option Document}
    (h : savedDocument c.dataDirectory files = .ok held) : c.loadDocument files = .ok held := by
  unfold loadDocument
  rw [show DocumentStore.load (⟨c.workflowPath, files⟩ : DocumentFile) = .ok held from h]

namespace Process

variable {p : Process} {files : FileTree} {directory : String} {answers : List String}
  {waits : Bool} {d : Document}

/-- **A process that is asked to run what is saved** begins a session with it, unless the store
cannot be opened; then it fails and leaves the files. -/
theorem start_of_asks_run (asks : p.Asks files directory (.run answers waits))
    (saved : savedDocument directory files = .ok (some d)) :
    ∃ context : Context, context.dataDirectory = directory ∧
      CommandLine.start p.args (p.surroundings files) =
        match context.openStore files with
        | .error f => .done (.failed f files)
        | .ok store => .running context (.start context (some d)
            (.initial answers waits p.lines p.linesEnded) store p.colors) := by
  obtain ⟨i, hparse, hcommand, hdirectory⟩ := asks.invocation
  generalize hcontext : Context.resolve i p.environment (p.surroundings files).config.config =
    context at hdirectory
  have hstart : CommandLine.start p.args (p.surroundings files) =
      beginRun context answers waits (p.surroundings files) := by
    unfold CommandLine.start
    rw [show (p.surroundings files).environment = p.environment from rfl, hparse]
    dsimp only
    unfold beginInvocation beginUnder
    rw [hcommand, ← hcontext]
    rfl
  have hload : context.loadDocument files = .ok (some d) :=
    context.loadDocument_of_saved (by rw [hdirectory, saved])
  refine ⟨context, hdirectory, ?_⟩
  rw [hstart]
  unfold beginRun
  rw [show (p.surroundings files).files = files from rfl, hload]
  rfl

end Process
end CommandLine
end TriggerFlow
