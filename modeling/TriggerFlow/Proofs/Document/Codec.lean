import Mathlib.Logic.Function.Basic
import TriggerFlow.Document.Codec
import TriggerFlow.Proofs.Json.Reads

/-!
# Saving a document and reading it back

Any document comes back as it was saved, with whatever kinds, labels and ids it holds and with a
parameter that is empty still apart from one that is missing.
-/

set_option autoImplicit false

namespace TriggerFlow

open Json

variable {s : Spacing} {depth : Nat}

namespace Action

/-- The members of an action fill its record. -/
theorem fills (a : Action) :
    record.Fills s depth record.blank
      [("id", .text a.id), ("type", .text a.kind), ("label", .text a.label),
        ("param", .optional a.param)]
      ⟨some a.id, some a.kind, some a.label, some a.param⟩ := by
  have hid := (reads_string a.id).map fun id => Partial.mk (some id) none none none
  have hkind := (reads_string a.kind).map fun kind => Partial.mk (some a.id) (some kind) none none
  have hlabel := (reads_string a.label).map fun label =>
    Partial.mk (some a.id) (some a.kind) (some label) none
  have hparam := (reads_optional s depth a.param).map fun param =>
    Partial.mk (some a.id) (some a.kind) (some a.label) (some param)
  exact .member rfl rfl hid.inside (.member rfl rfl hkind.inside (.member rfl rfl hlabel.inside
    (.member rfl rfl hparam.inside (.complete rfl))))

theorem reads_action (hs : s.IsBlank) (a : Action) : Reads read (a.toJson.chars s depth) a :=
  ((fills a).reads hs).map Partial.complete

end Action

namespace Document

theorem reads_actions (hs : s.IsBlank) (depth : Nat) (actions : List Action) :
    Reads (readList Action.read) ((Value.list (actions.map Action.toJson)).chars s depth) actions :=
  reads_list hs fun a _ => ⟨a.reads_action hs, opens_object s _ _⟩

/-- The members of a document fill its record. -/
theorem fills (hs : s.IsBlank) (d : Document) :
    record.Fills s depth record.blank
      [("buttonLabel", .text d.label), ("actions", .list (d.actions.map Action.toJson))]
      ⟨some d.label, some d.actions⟩ := by
  have hlabel := (reads_string d.label).map fun label => Partial.mk (some label) none
  have hactions := (reads_actions hs depth d.actions).map fun actions =>
    Partial.mk (some d.label) (some actions)
  exact .member rfl rfl hlabel.inside (.member rfl rfl hactions.inside (.complete rfl))

/-- **A document that is saved and read is the same document.** -/
theorem parse_render (d : Document) : parse d.render = .ok d := by
  have hreads : Reads read (d.toJson.chars indented 0) d :=
    ((fills isBlank_indented d).reads isBlank_indented).map Partial.complete
  exact hreads.readAll

theorem render_injective : Function.Injective render := by
  intro d e h
  have hparse := parse_render d
  rw [h, parse_render e] at hparse
  exact (Except.ok.inj hparse).symm

/-- **Nothing is lost when a document is saved**: it is read back as it was, two documents have the
same text only if they are the same, and to leave out a parameter is not to make it empty, whichever
action it belongs to. -/
theorem render_loses_nothing (d : Document) :
    parse d.render = .ok d ∧
    (∀ e : Document, e.render = d.render ↔ e = d) ∧
    ∀ (before after : List Action) (a : Action),
      ({ d with actions := before ++ { a with param := none } :: after } : Document).render ≠
        ({ d with actions := before ++ { a with param := some "" } :: after } : Document).render := by
  refine ⟨parse_render d, fun e => render_injective.eq_iff, ?_⟩
  intro before after a h
  have hactions := congrArg Document.actions (render_injective h)
  have ha := (List.cons.inj (List.append_cancel_left hactions)).1
  exact absurd (congrArg Action.param ha) (by simp)

end Document
end TriggerFlow
