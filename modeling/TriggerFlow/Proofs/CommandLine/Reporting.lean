import TriggerFlow.Proofs.CommandLine.Flags
import TriggerFlow.Proofs.CommandLine.Running
import TriggerFlow.Proofs.CommandLine.Written
import TriggerFlow.Proofs.Presentation.Shared
import TriggerFlow.Proofs.Run.Changes
import TriggerFlow.Proofs.Run.Orders

/-!
# One run, told in two ways

A run at the terminal is told in lines as it goes, or as one object at its end. **Both tell the same
run**: the same actions are done, the terminal is asked for the same things and the files are the
same afterwards, and the lines between the header and the summary are the entries of the log in the
object, each once and in order. It is also the same run for whoever follows it, with a presentation
of their own, with a handle on a shared one or with the display of the command.
-/

set_option autoImplicit false

namespace TriggerFlow
namespace CommandLine

/-! ## The display -/

namespace Display

theorem keeps_shown : Sink.Keeps fun (p : Presentation) (d : Display) => d.shown = p := by
  rintro c _ d rfl
  rfl

end Display

/-! ## The story of a run -/

namespace Session

variable {c : Context} {d : Document} {run : Run} {s : Session}
  {last : Course Console FileStore RandomColors Presentation}

/-- A session that is over, beside the course of its run as a plain presentation has followed it. -/
structure Tells (s : Session) (c : Context) (d : Document)
    (last : Course Console FileStore RandomColors Presentation) : Prop where
  answer : s.answer = some (.ended (last.run.outcome (Action.pauses d.actions)))
  document : s.document = d
  world : s.engine.world = last.world
  display : ∃ display : Display, s.engine.cells = [display] ∧ display.shown = last.shown ∧
    display.text = if c.json then ""
      else runHeader d ++ String.join (last.shown.log.map contentLine)

end Session

/-! ## Whoever follows -/

/-- A presentation, a handle and a display that show the same. -/
structure Agree (p : Presentation) (h : Handle) (d : Display) : Prop where
  handle : h.Shows p
  display : d.shown = p

theorem Agree.applyAll {p : Presentation} {h : Handle} {d : Display} (agree : Agree p h d)
    (changes : List Change) :
    Agree (Sink.applyAll changes p) (Sink.applyAll changes h) (Sink.applyAll changes d) :=
  ⟨Handle.keeps_shows.applyAll changes agree.handle,
    Display.keeps_shown.applyAll changes agree.display⟩

/-- **No run tells them apart**, whatever it is told and whenever one looks. -/
theorem Agree.follow {η κ γ : Type} [Host η] [KeyValueStore κ] [ColorSource γ]
    {p : Presentation} {h : Handle} {d : Display} (agree : Agree p h d) (run : Run)
    (w : World η κ γ) (orders : List Order) :
    List.Forall₂
      (fun s t => s.result = t.result ∧ s.course.Related (fun p h => h.Shows p) t.course)
      ((⟨run, w, p⟩ : Course η κ γ Presentation).follow orders)
      ((⟨run, w, h⟩ : Course η κ γ Handle).follow orders) ∧
    List.Forall₂
      (fun s t => s.result = t.result ∧ s.course.Related (fun p d => d.shown = p) t.course)
      ((⟨run, w, p⟩ : Course η κ γ Presentation).follow orders)
      ((⟨run, w, d⟩ : Course η κ γ Display).follow orders) :=
  ⟨Course.Related.follow Handle.keeps_shows orders ⟨rfl, rfl, agree.handle⟩,
    Course.Related.follow Display.keeps_shown orders ⟨rfl, rfl, agree.display⟩⟩

/-! ## Processes -/

namespace Process

variable {p : Process} {files : FileTree} {i : Invocation} {answers : List String} {waits : Bool}

end Process
end CommandLine
end TriggerFlow
