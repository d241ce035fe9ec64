import TriggerFlow.Presentation.Codec
import TriggerFlow.Proofs.Json.Reads

/-!
# Saving a presentation and reading it back

Everything of a presentation but its scale comes back as it was saved, whatever was shown. **The
scale comes back as the number that its text is read as**, so what is left to ask is how a double is
written and how it is read.
-/

set_option autoImplicit false

namespace TriggerFlow

open Json

variable {s : Spacing} {depth : Nat}

namespace Content

/-- The name under which an entry is saved. -/
def kindName : Content → String
  | .text _ => "text"
  | .image _ => "image"

def payload : Content → String
  | .text s => s
  | .image url => url

def make : Content → String → Content
  | .text _ => .text
  | .image _ => .image

theorem toJson_eq (c : Content) :
    c.toJson = .object [("kind", .text c.kindName), ("payload", .text c.payload)] := by
  cases c <;> rfl

theorem readKind_of_readText {blanks cs rest : List Char} (hblanks : Blank blanks) {name : String}
    {make : String → Content} (htext : readText cs = .ok (name, rest))
    (hname : ofName? name = some make) :
    readKind (blanks ++ '"' :: cs) = .ok (make, rest) := by
  unfold readKind
  rw [skipSpace_blanks hblanks (by decide)]
  change (readText cs).bind _ = _
  rw [htext]
  unfold ofName? at hname
  split at hname
  · cases hname
    rfl
  · cases hname
    rfl
  · cases hname

theorem reads_kind (c : Content) : Reads readKind (textChars c.kindName) c.make := by
  intro blanks rest hblanks
  have htext := readText_textChars c.kindName rest
  have hname : ofName? c.kindName = some c.make := by cases c <;> rfl
  exact readKind_of_readText hblanks htext hname

theorem fills (c : Content) :
    record.Fills s depth record.blank [("kind", .text c.kindName), ("payload", .text c.payload)]
      ⟨some c.make, some c.payload⟩ := by
  have hkind := (reads_kind c).map fun make => Partial.mk (some make) none
  have hpayload := (reads_string c.payload).map fun payload =>
    Partial.mk (some c.make) (some payload)
  exact .member rfl rfl hkind.inside (.member rfl rfl hpayload.inside (.complete rfl))

theorem reads_content (hs : s.IsBlank) (c : Content) : Reads read (c.toJson.chars s depth) c := by
  have hreads : Reads read (Value.chars s depth _) _ := ((fills c).reads hs).map Partial.complete
  have hcomplete : Partial.complete ⟨some c.make, some c.payload⟩ = c := by cases c <;> rfl
  rw [← toJson_eq, hcomplete] at hreads
  exact hreads

theorem opens_content (c : Content) : Opens (c.toJson.chars s depth) := by
  rw [toJson_eq]
  exact opens_object s depth _

end Content

namespace Presentation

theorem fills {p : Presentation} {scale : Float} (hs : s.IsBlank)
    (hscale : ReadsInside readDouble (numberChars p.scale) scale) :
    record.Fills s depth record.blank
      [("content_log", .list (p.log.map Content.toJson)), ("trigger_scale", .number p.scale),
        ("trigger_color", .text p.color), ("trigger_enabled", .bool p.enabled)]
      ⟨some p.log, some scale, some p.color, some p.enabled⟩ := by
  have hlog : Reads (readList Content.read)
      ((Value.list (p.log.map Content.toJson)).chars s depth) p.log :=
    reads_list hs fun c _ => ⟨c.reads_content hs, c.opens_content⟩
  have hlog := hlog.map fun log => Partial.mk (some log) none none none
  have hscale := hscale.map fun scale => Partial.mk (some p.log) (some scale) none none
  have hcolor := (reads_string p.color).map fun color =>
    Partial.mk (some p.log) (some scale) (some color) none
  have henabled := (reads_bool s depth p.enabled).map fun enabled =>
    Partial.mk (some p.log) (some scale) (some p.color) (some enabled)
  exact .member rfl rfl hlog.inside (.member rfl rfl hscale (.member rfl rfl hcolor.inside
    (.member rfl rfl henabled.inside (.complete rfl))))

/-- **A presentation comes back with the scale that its text is read as.** -/
theorem parse_render {p : Presentation} {scale : Float}
    (hscale : ReadsInside readDouble (numberChars p.scale) scale) :
    parse p.render = .ok { p with scale } := by
  have hreads : Reads _ (p.toJson.chars compact 0) { p with scale } :=
    ((fills isBlank_compact hscale).reads isBlank_compact).map Partial.complete
  exact hreads.readAll

end Presentation
end TriggerFlow
