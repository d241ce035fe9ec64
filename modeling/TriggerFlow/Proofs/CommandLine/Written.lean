import TriggerFlow.CommandLine
import TriggerFlow.Proofs.Engine.Store
import TriggerFlow.Proofs.FileTree.Named
import TriggerFlow.Proofs.Storage.FileStore

/-!
# Which files a command writes

Every command writes files of at most one name: an editing one the document, a run the store,
`config init` a configuration file, and the others nothing. **All files with other names stay as
they are**, in whatever directories they lie, whether the command succeeds or not. For a run this
is an invariant of its store, which goes on naming the same file through every event.
-/

set_option autoImplicit false

namespace TriggerFlow

/-! ## The names -/

theorem isName_workflow : Path.IsName "workflow.json" := by
  constructor <;> decide

theorem isName_storage : Path.IsName "storage.json" := by
  constructor <;> decide

theorem isName_config : Path.IsName "config.toml" := by
  constructor <;> decide

theorem isName_projectFile : Path.IsName LoadedConfig.projectFile := by
  constructor <;> decide

theorem endsWith_workflowPath (directory : String) :
    Path.EndsWith (workflowPath directory) "workflow.json" :=
  isName_workflow.endsWith_join directory

theorem endsWith_storagePath (directory : String) :
    Path.EndsWith (storagePath directory) "storage.json" :=
  isName_storage.endsWith_join directory

theorem Environment.endsWith_configPath {e : Environment} {path : String}
    (h : e.configPath? = some path) : Path.EndsWith path "config.toml" := by
  obtain ⟨directory, -, rfl⟩ := Option.map_eq_some_iff.mp h
  exact isName_config.endsWith_join directory

/-! ## Stores -/

namespace FileStore

theorem set_files (key value : String) (s : FileStore) :
    (s.set key value).2.path = s.path ∧
      (s.set key value).2.files =
        (s.files.save s.path (s.entries.insert key value).render).2 := by
  unfold set
  dsimp only
  split <;> rename_i heq <;> exact ⟨rfl, by rw [heq]⟩

/-- A store goes on writing to its own file. -/
theorem keptByCalls_files {own name : String} (hown : Path.IsName own) (hname : name ≠ own)
    (files : FileTree) :
    KeptByCalls fun s : FileStore => Path.EndsWith s.path own ∧ files.Keeps name s.files where
  get := by
    intro key s h
    exact h
  set := by
    intro key value s ⟨hpath, hkeeps⟩
    obtain ⟨hsame, hfiles⟩ := set_files key value s
    refine ⟨hsame ▸ hpath, ?_⟩
    show files.Keeps name (s.set key value).2.files
    rw [hfiles]
    exact hkeeps.trans (FileTree.keeps_save hown hpath hname _ s.files)

end FileStore

namespace CommandLine

namespace Session

variable {p : FileStore → Prop}

theorem kept_handle (hp : KeptByCalls p) {s : Session} (h : p s.engine.world.store)
    (event : Event) : p (s.handle event).engine.world.store := by
  have hkept := hp.handle h event
  unfold Session.handle
  split <;> rename_i heq <;> rw [heq] at hkept <;> exact hkept

theorem kept_resumeAll (hp : KeptByCalls p) (fuel : Nat) :
    ∀ {s : Session}, p s.engine.world.store → p (s.resumeAll fuel).engine.world.store := by
  induction fuel with
  | zero =>
    intro s h
    exact h
  | succ fuel ih =>
    intro s h
    unfold resumeAll
    split
    · exact h
    · exact ih (kept_handle hp h .pauseEnd)

/-- **What no call of a store takes away holds when a run is over** if it did when it began. -/
theorem kept_finish (hp : KeptByCalls p) (c : Context) (document : Option Document)
    (console : Console) {store : FileStore} (h : p store) (colors : RandomColors) :
    p (Session.start c document console store colors).finish.engine.world.store :=
  kept_resumeAll hp _ (kept_handle hp h _)

end Session

/-! ## Commands -/

/-- The names of the files that a command may write. -/
def Command.written : Command → List String
  | .label _ | .add _ _ | .remove _ | .move _ _ | .clear => ["workflow.json"]
  | .run _ _ => ["storage.json"]
  | .configInit isLocal => [if isLocal then LoadedConfig.projectFile else "config.toml"]
  | .actions | .show _ | .storage _ | .configShow | .configWhich | .configPath => []

theorem Context.saveDocument_eq (c : Context) (d : Document) (files : FileTree) :
    c.saveDocument d files =
      ((files.save c.workflowPath d.render).1.mapError (.notSaved c.workflowPath),
        (files.save c.workflowPath d.render).2) := by
  have hfile : DocumentStore.save d (⟨c.workflowPath, files⟩ : DocumentFile) =
      ((files.save c.workflowPath d.render).1,
        ⟨c.workflowPath, (files.save c.workflowPath d.render).2⟩) := rfl
  unfold saveDocument
  rw [hfile]
  cases (files.save c.workflowPath d.render).1 <;> rfl

section Commands

variable {name : String}

theorem keeps_commit (hname : name ≠ "workflow.json") (c : Context) (e : Edited)
    (files : FileTree) : files.Keeps name (commit c e files).files := by
  have hkeeps : files.Keeps name (files.save c.workflowPath e.document.render).2 :=
    FileTree.keeps_save isName_workflow (endsWith_workflowPath c.dataDirectory) hname _ files
  unfold commit
  rw [Context.saveDocument_eq]
  split <;>
  · rename_i heq
    have hfiles := congrArg Prod.snd heq
    dsimp only at hfiles
    rw [hfiles] at hkeeps
    exact hkeeps

theorem keeps_editWith (hname : name ≠ "workflow.json") (c : Context) (files : FileTree)
    (edit : Document → Except CommandFailure Edited) :
    files.Keeps name (editWith c files edit).files := by
  unfold editWith
  split
  · exact .refl name files
  · split
    · exact .refl name files
    · exact keeps_commit hname c _ files

theorem keeps_writeTemplate {own path : String} (hown : Path.IsName own)
    (hpath : Path.EndsWith path own) (hname : name ≠ own) (files : FileTree) :
    files.Keeps name (Config.writeTemplate path files).2 := by
  have hgrows := FileTree.grows_makeParent path files
  unfold Config.writeTemplate
  split
  · exact .refl name files
  · split <;> rename_i hmade <;> rw [hmade] at hgrows
    · exact hgrows.keeps_name name
    · split
      · rename_i hwrite
        exact (hgrows.keeps_name name).trans (FileTree.keeps_write hown hpath hname hwrite)
      · exact hgrows.keeps_name name

theorem keeps_initConfig (e : Environment) {isLocal : Bool}
    (hname : name ≠ if isLocal then LoadedConfig.projectFile else "config.toml")
    (files : FileTree) : files.Keeps name (initConfig e isLocal files).files := by
  unfold initConfig
  split
  · exact .refl name files
  · rename_i path hpath
    have hkeeps : files.Keeps name (Config.writeTemplate path files).2 := by
      cases isLocal with
      | true =>
        cases hpath
        exact keeps_writeTemplate isName_projectFile isName_projectFile.endsWith_self hname files
      | false =>
        exact keeps_writeTemplate isName_config (Environment.endsWith_configPath hpath) hname files
    split <;> rename_i heq <;> rw [heq] at hkeeps <;> exact hkeeps

theorem Context.openStore_eq_ok {c : Context} {files : FileTree} {store : FileStore}
    (h : c.openStore files = .ok store) : store.path = c.storagePath ∧ store.files = files := by
  unfold openStore at h
  split at h
  · rename_i hload
    cases h
    obtain ⟨hpath, hfiles, -⟩ := FileStore.load_eq_ok hload
    exact ⟨hpath, hfiles⟩
  · cases h

theorem resultOf_files (c : Context) (s : Session) : (resultOf c s).files = s.files := by
  unfold resultOf
  split <;> rfl

theorem keeps_beginRun (hname : name ≠ "storage.json") (c : Context) (answers : List String)
    (waits : Bool) (s : Surroundings) :
    s.files.Keeps name (beginRun c answers waits s).result.files := by
  unfold beginRun
  split
  · exact .refl name s.files
  · split
    · exact .refl name s.files
    · rename_i document _ _ store hstore
      obtain ⟨hpath, hfiles⟩ := Context.openStore_eq_ok hstore
      have hkept := FileStore.keptByCalls_files isName_storage hname s.files
      -- A store that was just opened has written nothing, and no event makes it write elsewhere.
      have hbegins : Path.EndsWith store.path "storage.json" ∧ s.files.Keeps name store.files := by
        rw [hpath, hfiles]
        exact ⟨endsWith_storagePath c.dataDirectory, .refl name s.files⟩
      have hends := Session.kept_finish hkept c document
        (.initial answers waits s.lines s.linesEnded) hbegins s.colors
      unfold Begun.result
      rw [resultOf_files]
      exact hends.2

/-- **An invocation keeps all files but those with the name that its command writes.** -/
theorem keeps_beginUnder {i : Invocation} (hname : name ∉ i.command.written) (l : LoadedConfig)
    (s : Surroundings) : s.files.Keeps name (beginUnder l i s).result.files := by
  obtain ⟨command, verbose, json, directory, isStrict, pacing⟩ := i
  have hne : ∀ own, command.written = [own] → name ≠ own := by
    rintro own hwritten rfl
    exact hname (hwritten ▸ List.mem_singleton_self name)
  cases command <;> simp only [beginUnder, Begun.result]
  case label | add | remove | move => exact keeps_editWith (hne _ rfl) _ s.files _
  case clear => exact keeps_commit (hne _ rfl) _ _ s.files
  case run answers waits => exact keeps_beginRun (hne _ rfl) _ answers waits s
  case configInit isLocal => exact keeps_initConfig s.environment (hne _ rfl) s.files
  case actions | configShow | configWhich => exact .refl name s.files
  case «show» | storage | configPath => split <;> exact .refl name s.files

theorem execute_eq (args : List String) (s : Surroundings) :
    execute args s = (start args s).result := by
  unfold execute Begun.result
  cases start args s <;> rfl

end Commands
end CommandLine
end TriggerFlow
