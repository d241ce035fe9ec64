import TriggerFlow.Builder.History
import TriggerFlow.Proofs.CommandLine.Log
import TriggerFlow.Proofs.Document.Codec
import TriggerFlow.Proofs.Document.Edits

/-!
# Editing from the command line

Each editing command is a process of its own: it reads what the one before it wrote, makes one edit
and writes the result. **A sequence of them does to the file what the builder does to documents**,
and a command that is refused leaves every file as it was. Two things carry this from one process to
the next: what is written is read back as the same document, and a file that could be written once
can be written again.

All of this is so as long as the logs of the processes can be opened and are kept out of the way.
The log is opened before the command begins and nothing looks after it, so a command that no one
should refuse can fail for the sake of a log.
-/

set_option autoImplicit false

namespace TriggerFlow

namespace CommandLine

/-- The document that is saved in a directory, `none` if nothing is. -/
def savedDocument (directory : String) (files : FileTree) : Except Failure (Option Document) :=
  DocumentStore.load (⟨workflowPath directory, files⟩ : DocumentFile)

theorem savedDocument_of_missing {directory : String} {files : FileTree}
    (h : files.exists? (workflowPath directory) = false) :
    savedDocument directory files = .ok none := by
  show DocumentFile.load ⟨workflowPath directory, files⟩ = _
  unfold DocumentFile.load FileTree.readIfExists
  rw [h]
  rfl

/-- What is saved is the same where its file is left alone. -/
theorem savedDocument_of_spares {directory : String} {files left : FileTree}
    (h : files.Spares (workflowPath directory) left) :
    savedDocument directory left = savedDocument directory files := by
  show DocumentFile.load ⟨workflowPath directory, left⟩ =
    DocumentFile.load ⟨workflowPath directory, files⟩
  unfold DocumentFile.load
  rw [h.readIfExists]

theorem savedDocument_of_save {directory : String} {files saved : FileTree} {d : Document}
    (h : files.save (workflowPath directory) d.render = (.ok (), saved)) :
    saved.read (workflowPath directory) = .ok d.render ∧
      savedDocument directory saved = .ok (some d) := by
  have hfind := FileTree.find_of_save h
  refine ⟨FileTree.read_eq_ok_iff.mpr hfind, ?_⟩
  show DocumentFile.load ⟨workflowPath directory, saved⟩ = _
  unfold DocumentFile.load
  rw [FileTree.readIfExists_of_find hfind]
  dsimp only
  rw [Document.parse_render]

/-! ## Positions -/

/-- No action has this position. -/
def IsOutside (d : Document) (position : Nat) : Prop :=
  position = 0 ∨ d.size < position

theorem indexOf_of_isOutside {d : Document} {position : Nat} (h : IsOutside d position) :
    indexOf d position = .error (.positionOutOfRange position d.size) :=
  if_pos h

/-- **A position is accepted exactly if the builder accepts its index.** -/
theorem indexOf_eq_ok_iff {d : Document} {position index : Nat} :
    indexOf d position = .ok index ↔ position = index + 1 ∧ d.checkIndex index = .ok () := by
  rw [Document.checkIndex_eq_ok_iff]
  unfold indexOf
  split
  · simp only [reduceCtorEq, false_iff]
    omega
  · simp only [Except.ok.injEq]
    omega

theorem indexOf_of_not_isOutside {d : Document} {position : Nat} (h : ¬ IsOutside d position) :
    indexOf d position = .ok (position - 1) ∧ position - 1 < d.size := by
  unfold IsOutside at h
  have hlt : position - 1 < d.size := by omega
  exact ⟨indexOf_eq_ok_iff.mpr ⟨by omega, Document.checkIndex_eq_ok_iff.mpr hlt⟩, hlt⟩

/-! ## What commands ask of the builder -/

namespace Command

def isEdit : Command → Bool
  | .label _ | .add _ _ | .remove _ | .move _ _ | .clear => true
  | .actions | .show _ | .run _ _ | .storage _ | .configShow | .configWhich | .configInit _
  | .configPath => false

/-- The edit of the builder that a command stands for, its positions counted from zero. -/
def edit? : Command → Option Edit
  | .label text => some (.relabel text)
  | .add kind param => some (.append kind param)
  | .remove position => some (.remove (position - 1))
  | .move source target => some (.move (source - 1) (target - 1))
  | _ => none

/-- What the builder makes of a document for a command; without an edit it starts afresh. -/
def built (tokens : Serial) (d : Document) (c : Command) : Except Failure Document :=
  match c.edit? with
  | some e => ((Builder.new tokens Serial.token).edit d e).1
  | none => .ok .empty

/-- What a command is refused for: a kind that nobody knows, a position that is none. -/
def IsRefused (d : Document) : Command → Prop
  | .add kind _ => Kind.ofName? kind = none
  | .remove position => IsOutside d position
  | .move source target => IsOutside d source ∨ IsOutside d target
  | _ => False

/-- How a command edits what was saved; one that clears does not look at it. -/
def editor? (tokens : Serial) : Command → Option (Document → Except CommandFailure Edited)
  | .label text => some (CommandLine.relabel text)
  | .add kind param => some (CommandLine.add tokens kind param)
  | .remove position => some (CommandLine.remove position)
  | .move source target => some (CommandLine.move source target)
  | _ => none

variable {tokens : Serial} {edit : Document → Except CommandFailure Edited} {c : Command}

theorem editor_of_isRefused (he : c.editor? tokens = some edit) {d : Document}
    (h : c.IsRefused d) : ∃ f, edit d = .error f := by
  cases c with
  | add kind param =>
    cases he
    have happend : (Builder.new tokens Serial.token).append d kind param =
        (.error (.unknownKind kind), Builder.new tokens Serial.token) := by
      unfold Builder.append
      rw [show Kind.ofName? kind = none from h]
    refine ⟨.failed (.unknownKind kind), ?_⟩
    unfold CommandLine.add
    dsimp only
    rw [happend]
    rfl
  | remove position =>
    cases he
    unfold CommandLine.remove
    rw [indexOf_of_isOutside h]
    exact ⟨_, rfl⟩
  | move source target =>
    cases he
    unfold CommandLine.move
    by_cases hsource : IsOutside d source
    · rw [indexOf_of_isOutside hsource]
      exact ⟨_, rfl⟩
    · rw [(indexOf_of_not_isOutside hsource).1, indexOf_of_isOutside (h.resolve_left hsource)]
      exact ⟨_, rfl⟩
  | label | clear | actions | «show» | run | storage | configShow | configWhich | configInit
  | configPath => exact h.elim

theorem editor_of_not_isRefused (he : c.editor? tokens = some edit) {d : Document}
    (h : ¬ c.IsRefused d) : ∃ e, edit d = .ok e ∧ c.built tokens d = .ok e.document := by
  cases c with
  | label text =>
    cases he
    exact ⟨_, rfl, rfl⟩
  | add kind param =>
    cases he
    obtain ⟨known, hkind⟩ := Option.ne_none_iff_exists'.mp h
    have happend : ∃ next,
        ((Builder.new tokens Serial.token).append d kind param).1 = .ok next := by
      unfold Builder.append
      rw [hkind]
      exact ⟨_, rfl⟩
    obtain ⟨next, hnext⟩ := happend
    unfold CommandLine.add
    dsimp only
    rw [hnext]
    exact ⟨_, rfl, hnext⟩
  | remove position =>
    cases he
    obtain ⟨hindex, hlt⟩ := indexOf_of_not_isOutside h
    have hremove := Document.remove_eq_ok_iff.mpr ⟨hlt, rfl⟩
    unfold CommandLine.remove
    rw [hindex]
    dsimp only [bind, Except.bind]
    rw [hremove]
    exact ⟨_, rfl, hremove⟩
  | move source target =>
    cases he
    obtain ⟨hsource, htarget⟩ := not_or.mp h
    obtain ⟨hsourceIndex, hsourceLt⟩ := indexOf_of_not_isOutside hsource
    obtain ⟨htargetIndex, htargetLt⟩ := indexOf_of_not_isOutside htarget
    have hmove := Document.move_eq_ok_iff.mpr
      ⟨htargetLt, _, List.getElem?_eq_getElem hsourceLt, rfl⟩
    unfold CommandLine.move
    rw [hsourceIndex, htargetIndex]
    dsimp only [bind, Except.bind]
    rw [hmove]
    exact ⟨_, rfl, hmove⟩
  | clear | actions | «show» | run | storage | configShow | configWhich | configInit
  | configPath => cases he

end Command

/-! ## One command -/

section OneCommand

variable {directory : String} {c : Context} {files : FileTree}

theorem documentToEdit_eq (hc : c.dataDirectory = directory) :
    c.documentToEdit files =
      ((savedDocument directory files).map (·.getD .empty)).mapError (.notLoaded c.workflowPath) := by
  have hload : DocumentStore.load (⟨c.workflowPath, files⟩ : DocumentFile) =
      savedDocument directory files := by
    rw [← hc]
    rfl
  unfold Context.documentToEdit Context.loadDocument
  rw [hload]
  cases savedDocument directory files <;> rfl

/-- Where a document can be saved, what is committed is saved. -/
theorem commit_of_canSave (hc : c.dataDirectory = directory)
    (hwritable : files.CanSave (workflowPath directory)) (e : Edited) :
    (commit c e files).exit = 0 ∧
      (commit c e files).files.read (workflowPath directory) = .ok e.document.render ∧
      savedDocument directory (commit c e files).files = .ok (some e.document) ∧
      (commit c e files).files.CanSave (workflowPath directory) := by
  subst hc
  obtain ⟨saved, hsave, hagain⟩ := hwritable.save e.document.render
  obtain ⟨hread, hdocument⟩ := savedDocument_of_save hsave
  have hcommit : commit c e files =
      (Result.done (showDocument c e.document ["✓ " ++ e.news, ""] c.verbose) saved).remark
        e.remark := by
    unfold commit
    rw [Context.saveDocument_eq]
    unfold Context.workflowPath
    rw [hsave]
    rfl
  rw [hcommit]
  exact ⟨rfl, hread, hdocument, hagain⟩

/-- Nothing is edited where what is saved is no document. -/
theorem editWith_of_unreadable (hc : c.dataDirectory = directory) {e : Failure}
    (h : savedDocument directory files = .error e)
    (edit : Document → Except CommandFailure Edited) :
    (editWith c files edit).exit = 1 ∧ (editWith c files edit).files = files := by
  unfold editWith
  rw [documentToEdit_eq hc, h]
  exact ⟨rfl, rfl⟩

variable {edit : Document → Except CommandFailure Edited}

theorem editWith_of_error (hc : c.dataDirectory = directory) {held : Option Document}
    (h : savedDocument directory files = .ok held) {f : CommandFailure}
    (hedit : edit (held.getD .empty) = .error f) :
    (editWith c files edit).exit = 1 ∧ (editWith c files edit).files = files := by
  unfold editWith
  rw [documentToEdit_eq hc, h]
  dsimp only [Except.map, Except.mapError]
  rw [hedit]
  exact ⟨rfl, rfl⟩

theorem editWith_of_ok (hc : c.dataDirectory = directory) {held : Option Document}
    (h : savedDocument directory files = .ok held) {e : Edited}
    (hedit : edit (held.getD .empty) = .ok e) : editWith c files edit = commit c e files := by
  unfold editWith
  rw [documentToEdit_eq hc, h]
  dsimp only [Except.map, Except.mapError]
  rw [hedit]

end OneCommand

/-! ## Processes -/

/-- A process that is started, but for the files it finds. -/
structure Process where
  args : List String
  environment : Environment
  tokens : Serial
  colors : RandomColors
  lines : List (Option String)
  linesEnded : Bool

namespace Process

def surroundings (p : Process) (files : FileTree) : Surroundings :=
  ⟨p.environment, files, p.tokens, p.colors, p.lines, p.linesEnded⟩

/-- What the process does where it keeps no log. -/
def run (p : Process) (files : FileTree) : Result :=
  execute p.args (p.surroundings files)

/-- What opening the log of the process comes to, and the files that its command finds. -/
def openLog (a : Appender) (p : Process) (files : FileTree) : Except String Unit × FileTree :=
  (p.surroundings files).openLog a

def launch (a : Appender) (p : Process) (files : FileTree) : Result :=
  perform a p.args (p.surroundings files)

/-- The files that processes leave which run one after the other. -/
def launchAll (a : Appender) (files : FileTree) (ps : List Process) : FileTree :=
  ps.foldl (fun files p => (p.launch a files).files) files

/-- The process is asked for a command, to be done in a directory. Which directory that is may hang
on the configuration that it finds. -/
structure Asks (p : Process) (files : FileTree) (directory : String) (c : Command) : Prop where
  invocation : ∃ i, parse p.args (p.environment.get? Environment.dataVariable) = .ok i ∧
    i.command = c ∧
    (Context.resolve i p.environment (p.surroundings files).config.config).dataDirectory = directory

/-- The process gets its log, if it is to keep one, and the document of a directory is left alone by
what is done for it. -/
structure OpensLog (a : Appender) (p : Process) (files : FileTree) (directory : String) : Prop where
  opens : (p.openLog a files).1 = .ok ()
  spares : files.Spares (workflowPath directory) (p.openLog a files).2

/-- Every one of these processes is asked to edit what is saved in one directory, and gets its
log. -/
def EditIn (a : Appender) (directory : String) : FileTree → List Process → Prop
  | _, [] => True
  | files, p :: ps =>
    (∃ c, c.isEdit = true ∧ p.Asks files directory c) ∧ p.OpensLog a files directory ∧
      EditIn a directory (p.launch a files).files ps

/-- Processes that are told the directory. -/
theorem asks_of_told {directory : String} {p : Process} {i : Invocation}
    (hparse : parse p.args (p.environment.get? Environment.dataVariable) = .ok i)
    (htold : i.dataDirectory = some directory) (files : FileTree) :
    p.Asks files directory i.command := by
  refine ⟨i, hparse, rfl, ?_⟩
  simp only [Context.resolve, htold, Option.getD_some]

variable {a : Appender} {p : Process} {files : FileTree} {directory : String} {c : Command}

/-! ### Logs that are out of the way -/

theorem openLog_cases (a : Appender) (p : Process) (files : FileTree) :
    p.openLog a files = a.opens p.environment.logDirectory logName files ∨
      p.openLog a files = (.ok (), files) := by
  unfold openLog Surroundings.openLog
  split
  · exact .inl rfl
  · exact .inr rfl

/-- A log that changes nothing is out of the way, one that is not kept or that is there already. -/
theorem opensLog_of_same (h : p.openLog a files = (.ok (), files)) (directory : String) :
    p.OpensLog a files directory := by
  constructor <;> rw [h]
  exact .refl _ files

theorem opensLog_of_off (h : (p.surroundings files).config.config.logsToFile = false)
    (directory : String) : p.OpensLog a files directory :=
  opensLog_of_same (openLog_of_off h) directory

/-- Nothing more is done for a log of days once the file of the day is there. -/
theorem openLog_daily_again {day : String} (dying : Obstacle → String)
    (h : files.isFile (Path.join p.environment.logDirectory (logName ++ "." ++ day)) = true) :
    p.openLog (.daily day dying) files = (.ok (), files) := by
  rcases openLog_cases (.daily day dying) p files with hopened | hopened
  · exact hopened.trans (Appender.opens_daily_of_isFile dying h)
  · exact hopened

/-- **A log of days leaves a document alone whose directory is there**, unless it has a directory
made by the name of the document. -/
theorem opensLog_daily {day : String} (hday : '/' ∉ day.toList) {dying : Obstacle → String}
    (hopens : (p.openLog (.daily day dying) files).1 = .ok ()) (hconnected : files.IsConnected)
    (hthere : ∃ place, files.Reaches (workflowPath directory) place)
    (hname : "workflow.json" ∉
      Path.names (Path.join p.environment.logDirectory (logName ++ "." ++ day))) :
    p.OpensLog (.daily day dying) files directory := by
  refine ⟨hopens, ?_⟩
  obtain ⟨place, hreach⟩ := hthere
  have hhead : place.head? = some "workflow.json" := by
    obtain ⟨start, names, hroute, hleads⟩ := hreach
    exact FileTree.head?_of_leads isName_workflow (endsWith_workflowPath directory) hroute hleads
  have hkeeps := Appender.isLocal_daily dying hday p.environment.logDirectory files
    "workflow.json" (by decide)
  have hsame := Appender.at?_opens_daily dying hday (q := place) hconnected
    fun name hmem heq => hname (Option.some.inj (hhead.symm.trans heq) ▸ hmem)
  rcases openLog_cases (.daily day dying) p files with hopened | hopened <;> rw [hopened]
  · exact FileTree.spares_of_reaches hreach hkeeps.here hkeeps.directories hsame
  · exact .refl _ files

/-! ### One process -/

theorem launch_of_asks (h : p.Asks files directory c)
    (hlog : (p.openLog a files).1 = .ok ()) :
    ∃ i context, i.command = c ∧ context.dataDirectory = directory ∧
      context = Context.resolve i p.environment (p.surroundings files).config.config ∧
      p.launch a files = (beginUnder (p.surroundings files).config i
        (p.surroundings (p.openLog a files).2)).result := by
  obtain ⟨i, hparse, hcommand, hdirectory⟩ := h.invocation
  refine ⟨i, _, hcommand, hdirectory, rfl, ?_⟩
  have hopens : (p.surroundings files).openLog a = (.ok (), (p.openLog a files).2) :=
    Prod.ext hlog rfl
  unfold launch perform CommandLine.launch
  rw [show (p.surroundings files).environment = p.environment from rfl, hparse]
  dsimp only
  rw [hopens]
  rfl

theorem launch_of_editor (h : p.Asks files directory c) (hlog : (p.openLog a files).1 = .ok ())
    {edit : Document → Except CommandFailure Edited} (he : c.editor? p.tokens = some edit) :
    ∃ context : Context, context.dataDirectory = directory ∧
      p.launch a files = editWith context (p.openLog a files).2 edit := by
  obtain ⟨⟨command, verbose, json, told, isStrict, pacing⟩, context, rfl, hdirectory, rfl, hrun⟩ :=
    launch_of_asks h hlog
  refine ⟨_, hdirectory, hrun.trans ?_⟩
  cases command <;> cases he <;> rfl

theorem launch_of_clear (h : p.Asks files directory .clear)
    (hlog : (p.openLog a files).1 = .ok ()) :
    ∃ context : Context, context.dataDirectory = directory ∧
      p.launch a files = commit context cleared (p.openLog a files).2 := by
  obtain ⟨⟨command, verbose, json, told, isStrict, pacing⟩, context, rfl, hdirectory, rfl, hrun⟩ :=
    launch_of_asks h hlog
  refine ⟨_, hdirectory, hrun.trans ?_⟩
  simp only [beginUnder, Begun.result, surroundings]

theorem not_mem_written (h : c.isEdit = false) : "workflow.json" ∉ c.written := by
  cases c with
  | label | add | remove | move | clear => cases h
  | actions | «show» | storage | configShow | configWhich | configPath => exact List.not_mem_nil
  | run => simp [Command.written]
  | configInit isLocal => cases isLocal <;> decide

/-- What comes of a process that edits what is saved in a directory. `was` is what it was started
with and `ready` what its log has left of that. -/
structure Refines (tokens : Serial) (directory : String) (c : Command) (was ready : FileTree)
    (r : Result) : Prop where
  fails_iff : ∀ held, savedDocument directory was = .ok held →
    (r.exit ≠ 0 ↔ c.IsRefused (held.getD .empty))
  /-- What is no document can only be cleared away. -/
  unreadable : ∀ e, savedDocument directory was = .error e → (r.exit ≠ 0 ↔ c ≠ .clear)
  /-- Nothing has changed but for the log, and what stood at the path of the document stands there. -/
  failed : r.exit ≠ 0 → r.exit = 1 ∧ r.files = ready ∧
    ∀ node, r.files.find (workflowPath directory) = .ok node ↔
      was.find (workflowPath directory) = .ok node
  /-- The file holds what the builder makes of what it held before. -/
  succeeded : r.exit = 0 → ∃ d, r.files.read (workflowPath directory) = .ok d.render ∧
    savedDocument directory r.files = .ok (some d) ∧ (c = .clear → d = .empty) ∧
    ∀ held, savedDocument directory was = .ok held → c.built tokens (held.getD .empty) = .ok d
  keeps : ∀ name, name ≠ "workflow.json" → ready.Keeps name r.files

/-- What the log has left alone may be taken for what there was. -/
theorem Refines.of_spares {tokens : Serial} {was ready : FileTree} {r : Result}
    (h : Refines tokens directory c ready ready r)
    (hspares : was.Spares (workflowPath directory) ready) :
    Refines tokens directory c was ready r := by
  have hsame := savedDocument_of_spares hspares
  refine ⟨?_, ?_, fun hexit => ?_, ?_, h.keeps⟩
  · rw [← hsame]
    exact h.fails_iff
  · rw [← hsame]
    exact h.unreadable
  · obtain ⟨hone, hfiles, hfound⟩ := h.failed hexit
    exact ⟨hone, hfiles, fun node => (hfound node).trans (hspares.found node)⟩
  · rw [← hsame]
    exact h.succeeded

theorem editor_of_isEdit (hedit : c.isEdit = true) (tokens : Serial) :
    c = .clear ∨ ∃ edit, c.editor? tokens = some edit := by
  cases c with
  | label | add | remove | move => exact .inr ⟨_, rfl⟩
  | clear => exact .inl rfl
  | actions | «show» | run | storage | configShow | configWhich | configInit | configPath =>
    cases hedit

theorem refines_of_failure {tokens : Serial} {r : Result} (hexit : r.exit = 1)
    (hfiles : r.files = files) (hclear : c ≠ .clear)
    (hheld : ∀ held, savedDocument directory files = .ok held → c.IsRefused (held.getD .empty)) :
    Refines tokens directory c files files r where
  fails_iff := by
    intro held h
    simp [hexit, hheld held h]
  unreadable := by
    intro e _
    simp [hexit, hclear]
  failed := fun _ => ⟨hexit, hfiles, fun _ => hfiles ▸ Iff.rfl⟩
  succeeded := by
    intro hsuccess
    rw [hexit] at hsuccess
    cases hsuccess
  keeps := fun name _ => hfiles ▸ .refl name files

/-- What was committed, and what the builder made of what there was. -/
theorem refines_of_commit {tokens : Serial} {context : Context} {e : Edited}
    (hcontext : context.dataDirectory = directory)
    (hwritable : files.CanSave (workflowPath directory))
    (hclear : c = .clear ∧ e.document = .empty ∨ c ≠ .clear ∧
      ∃ held, savedDocument directory files = .ok held)
    (hheld : ∀ held, savedDocument directory files = .ok held →
      ¬ c.IsRefused (held.getD .empty) ∧ c.built tokens (held.getD .empty) = .ok e.document) :
    Refines tokens directory c files files (commit context e files) := by
  obtain ⟨hexit, hread, hsaved, -⟩ := commit_of_canSave hcontext hwritable e
  refine ⟨fun held h => ?_, fun cause h => ?_, fun hne => absurd hexit hne, fun _ => ?_,
    fun name hname => keeps_commit hname context e files⟩
  · simp [hexit, (hheld held h).1]
  · rcases hclear with ⟨rfl, -⟩ | ⟨-, held, hok⟩
    · simp [hexit]
    · cases h.symm.trans hok
  · refine ⟨e.document, hread, hsaved, fun heq => ?_, fun held h => (hheld held h).2⟩
    rcases hclear with ⟨-, hempty⟩ | ⟨hne, -⟩
    · exact hempty
    · exact absurd heq hne

/-- **One process refines the builder**, and what it leaves can be written again. -/
theorem refines_launch (h : p.Asks files directory c) (hedit : c.isEdit = true)
    (hlog : p.OpensLog a files directory) (hwritable : files.CanSave (workflowPath directory)) :
    Refines p.tokens directory c files (p.openLog a files).2 (p.launch a files) ∧
      (p.launch a files).files.CanSave (workflowPath directory) := by
  have hready := hlog.spares.writable hwritable
  suffices hsame : Refines p.tokens directory c (p.openLog a files).2 (p.openLog a files).2
      (p.launch a files) ∧ (p.launch a files).files.CanSave (workflowPath directory) from
    ⟨hsame.1.of_spares hlog.spares, hsame.2⟩
  rcases editor_of_isEdit hedit p.tokens with rfl | ⟨edit, heditor⟩
  · -- Clearing does not look at what was saved, so it goes on where there is no document.
    obtain ⟨context, hcontext, hrun⟩ := launch_of_clear h hlog.opens
    rw [hrun]
    exact ⟨refines_of_commit hcontext hready (.inl ⟨rfl, rfl⟩) fun held _ => ⟨id, rfl⟩,
      (commit_of_canSave hcontext hready cleared).2.2.2⟩
  · have hclear : c ≠ .clear := by
      rintro rfl
      cases heditor
    obtain ⟨context, hcontext, hrun⟩ := launch_of_editor h hlog.opens heditor
    rw [hrun]
    -- Every other command looks at what is saved before it looks at its arguments.
    cases hheld : savedDocument directory (p.openLog a files).2 with
    | error e =>
      obtain ⟨hexit, hfiles⟩ := editWith_of_unreadable hcontext hheld edit
      refine ⟨refines_of_failure hexit hfiles hclear fun held hok => ?_, ?_⟩
      · cases hheld.symm.trans hok
      · rw [hfiles]
        exact hready
    | ok held =>
      by_cases hrefused : c.IsRefused (held.getD .empty)
      · obtain ⟨f, hf⟩ := Command.editor_of_isRefused heditor hrefused
        obtain ⟨hexit, hfiles⟩ := editWith_of_error hcontext hheld hf
        refine ⟨refines_of_failure hexit hfiles hclear fun held' hok => ?_, ?_⟩
        · cases hheld.symm.trans hok
          exact hrefused
        · rw [hfiles]
          exact hready
      · obtain ⟨e, he, hbuilt⟩ := Command.editor_of_not_isRefused heditor hrefused
        rw [editWith_of_ok hcontext hheld he]
        refine ⟨refines_of_commit hcontext hready (.inr ⟨hclear, held, hheld⟩)
          fun held' hok => ?_, (commit_of_canSave hcontext hready e).2.2.2⟩
        cases hheld.symm.trans hok
        exact ⟨hrefused, hbuilt⟩

/-- A directory whose document can be read stays one. -/
theorem Refines.readable {tokens : Serial} {ready : FileTree} {r : Result}
    (h : Refines tokens directory c files ready r)
    (hsame : savedDocument directory ready = savedDocument directory files)
    (hheld : ∃ held, savedDocument directory files = .ok held) :
    ∃ held, savedDocument directory r.files = .ok held := by
  by_cases hexit : r.exit = 0
  · obtain ⟨d, -, hsaved, -⟩ := h.succeeded hexit
    exact ⟨some d, hsaved⟩
  · rw [(h.failed hexit).2.1, hsame]
    exact hheld

/-- **At every moment of a session** the next process finds a file that can be written, and one that
can be read if it could in the beginning. -/
theorem EditIn.moment {after : List Process} {before : List Process} :
    ∀ {files : FileTree}, EditIn a directory files (before ++ p :: after) →
      files.CanSave (workflowPath directory) →
      (∃ c, c.isEdit = true ∧ p.Asks (launchAll a files before) directory c) ∧
        p.OpensLog a (launchAll a files before) directory ∧
        (launchAll a files before).CanSave (workflowPath directory) ∧
        ((∃ held, savedDocument directory files = .ok held) →
          ∃ held, savedDocument directory (launchAll a files before) = .ok held) := by
  induction before with
  | nil =>
    intro files h hwritable
    exact ⟨h.1, h.2.1, hwritable, id⟩
  | cons q before ih =>
    intro files h hwritable
    obtain ⟨⟨c, hedit, hasks⟩, hlog, hothers⟩ := h
    -- What the first process leaves is what the session goes on from.
    obtain ⟨hrefines, hagain⟩ := refines_launch hasks hedit hlog hwritable
    obtain ⟨hnext, hnextLog, hlater, hreadable⟩ := ih hothers hagain
    exact ⟨hnext, hnextLog, hlater, fun hheld =>
      hreadable (hrefines.readable (savedDocument_of_spares hlog.spares) hheld)⟩

/-- **A session of editing commands refines the builder**, as long as the logs can be opened and
leave the document alone. At every moment the next process does to the saved document what the
builder does, or it is refused for one of the reasons there are and changes no file, apart from its
log; positions are accepted just as the builder accepts indices; and no other command changes a
document. -/
theorem editIn_refines_builder (ha : a.IsLocal) {ps : List Process}
    (hsession : EditIn a directory files ps) (hwritable : files.CanSave (workflowPath directory)) :
    (∀ before p after, ps = before ++ p :: after →
      let was := launchAll a files before
      (∃ c, c.isEdit = true ∧ p.Asks was directory c ∧
        Refines p.tokens directory c was (p.openLog a was).2 (p.launch a was)) ∧
      (∀ name, name ≠ "workflow.json" → ¬ logName.toList <+: name.toList →
        was.Keeps name (p.launch a was).files) ∧
      ((∃ held, savedDocument directory files = .ok held) →
        ∃ held, savedDocument directory was = .ok held)) ∧
    (∀ d position index,
      (indexOf d position = .ok index ↔ position = index + 1 ∧ d.checkIndex index = .ok ()) ∧
      (d.checkIndex index = .ok () → ∃ a, d.actions[index]? = some a)) ∧
    ∀ args s, (∀ i, parse args (s.environment.get? Environment.dataVariable) = .ok i →
        i.command.isEdit = false) →
      s.files.Keeps "workflow.json" (perform a args s).files ∧
      ∀ other text, s.files.read (workflowPath other) = .ok text →
        (perform a args s).files.read (workflowPath other) = .ok text := by
  refine ⟨fun before p after hps => ?_, fun d position index => ⟨indexOf_eq_ok_iff, fun h => ?_⟩,
    fun args s hother => ?_⟩
  · subst hps
    obtain ⟨⟨c, hedit, hasks⟩, hlog, hagain, hreadable⟩ := hsession.moment hwritable
    have hrefines := (refines_launch hasks hedit hlog hagain).1
    refine ⟨⟨c, hedit, hasks, hrefines⟩, fun name hname hnotLog => ?_, hreadable⟩
    exact (keeps_openLog ha _ hnotLog).trans (hrefines.keeps name hname)
  · exact ⟨_, List.getElem?_eq_getElem (Document.checkIndex_eq_ok_iff.mp h)⟩
  · have hkeeps : s.files.Keeps "workflow.json" (perform a args s).files := by
      refine keeps_perform ha (by decide) fun i hparse => ?_
      exact not_mem_written (hother i hparse)
    exact ⟨hkeeps, fun other text hread =>
      hkeeps.read isName_workflow (endsWith_workflowPath other) hread⟩

/-- A process that is told to work in the directory `data`. -/
def told (args : List String) : Process :=
  ⟨"--data-dir" :: "data" :: args, ⟨[], none⟩, ⟨0⟩, .ofSeed 0, [], true⟩

/-- The log of one day. -/
def logOfDay : Appender :=
  .daily "2024-05-01" Obstacle.message

/-- An action is added where nothing was, then a position that is none is refused. -/
theorem editIn_fresh :
    let files : FileTree := ⟨[], []⟩
    let adds := told ["add", "alert", "hi"]
    let removes := told ["remove", "2"]
    let was := launchAll logOfDay files [adds]
    logOfDay.IsLocal ∧ EditIn logOfDay "data" files [adds, removes] ∧
    files.CanSave (workflowPath "data") ∧ files.exists? (workflowPath "data") = false ∧
    (adds.launch logOfDay files).exit = 0 ∧
    was.read (workflowPath "data") = .ok (Document.render
      ⟨"", [⟨"alert-00000000000000000000000000000000", "alert", "Alert", some "hi"⟩]⟩) ∧
    (removes.launch logOfDay was).exit = 1 ∧ (removes.launch logOfDay was).files = was := by
  intro files adds removes was
  have hlocal : logOfDay.IsLocal := Appender.isLocal_daily _ (by decide)
  have hadds : parse adds.args (adds.environment.get? Environment.dataVariable) =
      .ok ⟨.add "alert" "hi", false, false, some "data", false, none⟩ := rfl
  have hremoves : parse removes.args (removes.environment.get? Environment.dataVariable) =
      .ok ⟨.remove 2, false, false, some "data", false, none⟩ := rfl
  have hwritable : files.CanSave (workflowPath "data") := ⟨_, rfl⟩
  have hmissing : files.exists? (workflowPath "data") = false := rfl
  have hnone : savedDocument "data" files = .ok none := savedDocument_of_missing hmissing
  -- The first process makes the file of its log, which the second one finds.
  have hfirstLog : adds.OpensLog logOfDay files "data" := by
    have hready : (adds.openLog logOfDay files).2.CanSave (workflowPath "data") := by
      decide +kernel
    have hopens : (adds.openLog logOfDay files).1 = .ok () := by decide +kernel
    have hbefore : files.find (workflowPath "data") = .error .notFound := by decide +kernel
    have hafter : (adds.openLog logOfDay files).2.find (workflowPath "data") =
        .error .notFound := by decide +kernel
    refine ⟨hopens, fun node => ?_, fun _ => hready⟩
    rw [hbefore, hafter]
  have hsecondLog : removes.openLog logOfDay was = (.ok (), was) := by
    have hthere : was.isFile (Path.join removes.environment.logDirectory
        (logName ++ "." ++ "2024-05-01")) = true := by
      decide +kernel
    exact openLog_daily_again Obstacle.message hthere
  have hsession : EditIn logOfDay "data" files [adds, removes] := by
    refine ⟨⟨_, rfl, asks_of_told hadds rfl files⟩, hfirstLog, ?_⟩
    show EditIn logOfDay "data" was [removes]
    exact ⟨⟨_, rfl, asks_of_told hremoves rfl was⟩, opensLog_of_same hsecondLog "data", trivial⟩
  obtain ⟨hmoments, -⟩ := editIn_refines_builder hlocal hsession hwritable
  obtain ⟨⟨c, -, ⟨i, hparse, hc, -⟩, hfirst⟩, -⟩ := hmoments [] adds [removes] rfl
  obtain ⟨⟨c', -, ⟨j, hparse', hc', -⟩, hsecond⟩, -⟩ := hmoments [adds] removes [] rfl
  have hadd : c = .add "alert" "hi" := by
    rw [← hc, Except.ok.inj (hparse.symm.trans hadds)]
  have hremove : c' = .remove 2 := by
    rw [← hc', Except.ok.inj (hparse'.symm.trans hremoves)]
  subst hadd hremove
  have hexit : (adds.launch logOfDay files).exit = 0 := by
    refine Decidable.byContradiction fun hne => ?_
    have hrefused := (hfirst.fails_iff none hnone).mp hne
    cases hrefused
  obtain ⟨d, hread, hsaved, -, hbuilt⟩ := hfirst.succeeded hexit
  have hmade : (Command.add "alert" "hi").built ⟨0⟩ .empty = .ok
      ⟨"", [⟨"alert-00000000000000000000000000000000", "alert", "Alert", some "hi"⟩]⟩ := rfl
  have hd := Except.ok.inj ((hbuilt none hnone).symm.trans hmade)
  subst hd
  have hrefused := (hsecond.fails_iff _ hsaved).mpr (.inr (by decide))
  obtain ⟨hone, hfiles, -⟩ := hsecond.failed hrefused
  refine ⟨hlocal, hsession, hwritable, hmissing, hexit, hread, hone, ?_⟩
  rw [hfiles, hsecondLog]

/-- **A label that no one should refuse is not set for the sake of a log.** Where nothing was, the
log makes a directory in the place of the document, and the command finds it; where the directory
of the log is a file, the process dies. -/
theorem launch_fails_for_its_log :
    let files : FileTree := ⟨[], []⟩
    let misled : Process := { told ["label", "hi"] with
      environment := ⟨[(Environment.configVariable, "data/workflow.json")], none⟩ }
    let occupied : FileTree := ⟨[(FileTree.key ["f"], .file (.text "x"))], []⟩
    let dying : Process := { told ["label", "hi"] with
      environment := ⟨[(Environment.configVariable, "f")], none⟩ }
    ¬ (Command.label "hi").IsRefused .empty ∧
    (misled.Asks files "data" (.label "hi") ∧ files.CanSave (workflowPath "data") ∧
      savedDocument "data" files = .ok none ∧
      (misled.launch logOfDay files).exit = 1 ∧
      (misled.launch logOfDay files).files.find (workflowPath "data") = .ok .directory) ∧
    dying.Asks occupied "data" (.label "hi") ∧ occupied.CanSave (workflowPath "data") ∧
      savedDocument "data" occupied = .ok none ∧
      (dying.launch logOfDay occupied).exit = 101 := by
  intro files misled occupied dying
  have hmisled : parse misled.args (misled.environment.get? Environment.dataVariable) =
      .ok ⟨.label "hi", false, false, some "data", false, none⟩ := rfl
  have hdying : parse dying.args (dying.environment.get? Environment.dataVariable) =
      .ok ⟨.label "hi", false, false, some "data", false, none⟩ := rfl
  have hasked := asks_of_told hmisled rfl files
  have hdyingAsked := asks_of_told hdying rfl occupied
  have hmissing : savedDocument "data" files = .ok none := savedDocument_of_missing rfl
  have hvacant : occupied.exists? (workflowPath "data") = false := rfl
  have hnothing : savedDocument "data" occupied = .ok none := savedDocument_of_missing hvacant
  refine ⟨id, ⟨hasked, ?_, hmissing, ?_, ?_⟩, hdyingAsked, ?_, hnothing, ?_⟩
  all_goals decide +kernel

end Process
end CommandLine
end TriggerFlow
