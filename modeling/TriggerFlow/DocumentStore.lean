import TriggerFlow.Document.Codec
import TriggerFlow.FileTree.Saved

/-!
# Where a document is kept

A document store has room for one document. It may be in memory or in a file; seen from outside,
**both answer with the document that was saved last**, and with nothing before the first one. The
file is read at every load, so it may also answer with what was in the file before, or with a
failure if that is no document.
-/

set_option autoImplicit false

namespace TriggerFlow

/-- Keeps one document. -/
class DocumentStore (δ : Type) where
  load : δ → Except Failure (Option Document)
  save : Document → δ → Except Failure Unit × δ

/-- A document store that lasts as long as the process. -/
structure DocumentSlot where
  document : Option Document
  deriving DecidableEq

namespace DocumentSlot

def empty : DocumentSlot :=
  ⟨none⟩

instance : DocumentStore DocumentSlot where
  load s := .ok s.document
  save d _ := (.ok (), ⟨some d⟩)

end DocumentSlot

/-- A document store in a file. -/
structure DocumentFile where
  path : String
  files : FileTree

namespace DocumentFile

def load (s : DocumentFile) : Except Failure (Option Document) :=
  match s.files.readIfExists s.path with
  | .error e => .error e
  | .ok none => .ok none
  | .ok (some text) =>
    match Document.parse text with
    | .error e => .error (.unreadableJson e)
    | .ok d => .ok (some d)

def save (d : Document) (s : DocumentFile) : Except Failure Unit × DocumentFile :=
  match s.files.save s.path d.render with
  | (done, files) => (done, { s with files })

instance : DocumentStore DocumentFile := ⟨load, save⟩

end DocumentFile

end TriggerFlow
