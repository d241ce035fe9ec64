import TriggerFlow.Catalog

/-!
# Hosts

The context that a workflow runs in can show a notice, ask for a line of text, be reloaded and be
closed. A `Host` is any type of states in which these four can be done; a run knows no more of its
surroundings. The `ScriptedHost` answers from a queue and remembers what it was asked: **its events
are the whole of what a run did to it**, in order.
-/

set_option autoImplicit false

namespace TriggerFlow

/-- What a run can ask of the context around it. -/
class Host (η : Type) where
  notify : String → η → η
  /-- The answer is `none` if the prompt was cancelled. -/
  prompt : String → η → Option String × η
  reload : η → η
  close : η → η

inductive HostEvent where
  | notified (message : String)
  | prompted (message : String)
  | reloaded
  | closed
  deriving DecidableEq, Repr

/-- A host that answers prompts in order from a queue, and cancels them once it is empty. -/
structure ScriptedHost where
  answers : List String
  /-- First event first. -/
  events : List HostEvent
  deriving DecidableEq, Repr

namespace ScriptedHost

def withAnswers (answers : List String) : ScriptedHost :=
  ⟨answers, []⟩

def record (e : HostEvent) (h : ScriptedHost) : ScriptedHost :=
  { h with events := h.events ++ [e] }

def prompt (message : String) (h : ScriptedHost) : Option String × ScriptedHost :=
  (h.answers.head?, { h.record (.prompted message) with answers := h.answers.tail })

instance : Host ScriptedHost where
  notify message h := h.record (.notified message)
  prompt := prompt
  reload h := h.record .reloaded
  close h := h.record .closed

/-- The notices among the events. -/
def notices (h : ScriptedHost) : List String :=
  h.events.filterMap fun
    | .notified message => some message
    | _ => none

end ScriptedHost

end TriggerFlow
