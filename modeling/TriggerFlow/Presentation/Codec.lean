import TriggerFlow.Json.Printer
import TriggerFlow.Json.Record
import TriggerFlow.Presentation

/-!
# The saved form of a presentation

A presentation is written on one line, as an object with the members `content_log`,
`trigger_scale`, `trigger_color` and `trigger_enabled`, all of which reading asks for. The scale is
written with the fewest digits that tell it apart, but it is read by the rule of `Json.Number`,
which rounds twice where there are many digits: **the log, the color and the flag come back as they
were for every presentation, the scale for one with few digits**.
-/

set_option autoImplicit false

namespace TriggerFlow

/-! ## Writing -/

def Content.toJson : Content → Json.Value
  | .text s => .object [("kind", .text "text"), ("payload", .text s)]
  | .image url => .object [("kind", .text "image"), ("payload", .text url)]

def Presentation.toJson (p : Presentation) : Json.Value :=
  .object [("content_log", .list (p.log.map Content.toJson)), ("trigger_scale", .number p.scale),
    ("trigger_color", .text p.color), ("trigger_enabled", .bool p.enabled)]

def Presentation.render (p : Presentation) : String :=
  p.toJson.compactText

/-! ## Reading -/

/-- Which kind of entry a name stands for. -/
def Content.ofName? : String → Option (String → Content)
  | "text" => some .text
  | "image" => some .image
  | _ => none

private def Content.lookup (name : String) : Except Json.Fault (String → Content) :=
  match Content.ofName? name with
  | some make => .ok make
  | none => .error (.mismatch (.unknownVariant name "\x60text\x60 or \x60image\x60"))

/-- The name of a kind. What is no text is not even the start of a kind. -/
private def Content.readKindName : Json.Reader (String → Content) := fun cs =>
  match Json.skipSpace cs with
  | [] => .error .ended
  | '"' :: rest => do
    let (name, rest) ← Json.readText rest
    return (← Content.lookup name, rest)
  | _ => .error .malformed

/-- The kind of an entry: its name, or an object with the name as its only key and `null` as its
value. -/
def Content.readKind : Json.Reader (String → Content) := fun cs =>
  match Json.skipSpace cs with
  | '{' :: rest => do
    let (make, rest) ← Content.readKindName rest
    let rest ← Json.readColon rest
    let rest ← Json.readNull "unit" rest
    let rest ← Json.closeObject rest
    return (make, rest)
  | cs => Content.readKindName cs

structure Content.Partial where
  kind : Option (String → Content)
  payload : Option String

def Content.Partial.complete (p : Content.Partial) : Content :=
  p.kind.getD .text (p.payload.getD "")

def Content.record : Json.Record Content.Partial where
  title := "struct ContentItem"
  blank := ⟨none, none⟩
  fields := [
    { key := "kind", isRequired := true, isSet := (·.kind.isSome)
      read := fun p cs =>
        (Content.readKind cs).map fun (k, r) => ({ p with kind := some k }, r) },
    { key := "payload", isRequired := true, isSet := (·.payload.isSome)
      read := fun p cs =>
        (Json.readString cs).map fun (s, r) => ({ p with payload := some s }, r) }]

def Content.read : Json.Reader Content := fun cs =>
  (Content.record.read cs).map fun (p, rest) => (p.complete, rest)

structure Presentation.Partial where
  log : Option (List Content)
  scale : Option Float
  color : Option String
  enabled : Option Bool

def Presentation.Partial.complete (p : Presentation.Partial) : Presentation :=
  let d := Presentation.initial
  ⟨p.log.getD d.log, p.scale.getD d.scale, p.color.getD d.color, p.enabled.getD d.enabled⟩

def Presentation.record : Json.Record Presentation.Partial where
  title := "struct ExecutionState"
  blank := ⟨none, none, none, none⟩
  fields := [
    { key := "content_log", isRequired := true, isSet := (·.log.isSome)
      read := fun p cs =>
        (Json.readList Content.read cs).map fun (l, r) => ({ p with log := some l }, r) },
    { key := "trigger_scale", isRequired := true, isSet := (·.scale.isSome)
      read := fun p cs =>
        (Json.readDouble cs).map fun (x, r) => ({ p with scale := some x }, r) },
    { key := "trigger_color", isRequired := true, isSet := (·.color.isSome)
      read := fun p cs =>
        (Json.readString cs).map fun (s, r) => ({ p with color := some s }, r) },
    { key := "trigger_enabled", isRequired := true, isSet := (·.enabled.isSome)
      read := fun p cs =>
        (Json.readBool cs).map fun (b, r) => ({ p with enabled := some b }, r) }]

/-- The presentation that a text holds. -/
def Presentation.parse (s : String) : Except Json.Fault Presentation :=
  Json.readAll
    (fun cs => (Presentation.record.read cs).map fun (p, rest) => (p.complete, rest)) s

end TriggerFlow
