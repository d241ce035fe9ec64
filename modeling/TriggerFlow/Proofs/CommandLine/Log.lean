import TriggerFlow.Proofs.CommandLine.Written
import TriggerFlow.Proofs.FileTree.Sparing

/-!
# What the log does to a command

The log of a process is opened before its command begins, so a command finds the files that the log
has left. **A process whose log can be opened does what it would do without one** on these files,
as long as they hold the same configuration; and since the files of a log have names of their own,
whatever opens it keeps the document, the store and the configuration, wherever they lie.

What it does not keep is an empty place. The directories of a log can be made where a document was
to be, and then the document cannot be saved there any more.
-/

set_option autoImplicit false

namespace TriggerFlow
namespace CommandLine

/-! ## What opens a log -/

namespace Appender

/-- No file is touched but those whose names begin as those of a log do. -/
def IsLocal (a : Appender) : Prop :=
  ∀ (directory : String) (files : FileTree) (name : String), ¬ logName.toList <+: name.toList →
    files.Keeps name (a.opens directory logName files).2

theorem isName_logFile {day : String} (h : '/' ∉ day.toList) :
    Path.IsName (logName ++ "." ++ day) := by
  have hlist : (logName ++ "." ++ day).toList = "clickflow.log.".toList ++ day.toList := by
    rw [String.toList_append]
    rfl
  have hlong : ∀ short : String, short.toList.length < 14 → logName ++ "." ++ day ≠ short := by
    rintro short hshort rfl
    rw [hlist, List.length_append] at hshort
    have hprefix : "clickflow.log.".toList.length = 14 := rfl
    omega
  refine ⟨hlong "" (by decide), ?_, hlong "." (by decide), hlong ".." (by decide)⟩
  rw [hlist, List.mem_append, not_or]
  exact ⟨by decide, h⟩

/-- Where a file was opened to write at its end, nothing has changed or a file was written. -/
theorem eq_or_write_of_openAtEnd {path : String} {t t' : FileTree}
    (h : t.openAtEnd path = .ok t') : t' = t ∨ t.write path (.text "") = .ok t' := by
  unfold FileTree.openAtEnd at h
  split at h
  · cases h
    exact .inl rfl
  · exact .inr h

variable (day : String) (dying : Obstacle → String)

/-- **What a log of days leaves**: perhaps directories, and then perhaps a file. -/
theorem opens_daily (directory name : String) (files : FileTree) :
    let path := Path.join directory (name ++ "." ++ day)
    let left := ((daily day dying).opens directory name files).2
    ∃ made, (made = files ∨ made = (files.makeParent path).2) ∧
      (left = made ∨ made.openAtEnd path = .ok left) := by
  dsimp only [daily]
  split
  · rename_i left hopens
    exact ⟨files, .inl rfl, .inr hopens⟩
  · split <;> rename_i made hmade
    · exact ⟨made, .inr (by rw [hmade]), .inl rfl⟩
    · split
      · rename_i left hopens
        exact ⟨made, .inr (by rw [hmade]), .inr hopens⟩
      · exact ⟨made, .inr (by rw [hmade]), .inl rfl⟩

variable {day}

/-- Where the file of the day is there, nothing is done. -/
theorem opens_daily_of_isFile {directory name : String} {files : FileTree}
    (h : files.isFile (Path.join directory (name ++ "." ++ day)) = true) :
    (daily day dying).opens directory name files = (.ok (), files) := by
  have hopens : files.openAtEnd (Path.join directory (name ++ "." ++ day)) = .ok files := if_pos h
  dsimp only [daily]
  rw [hopens]

theorem isLocal_daily (hday : '/' ∉ day.toList) : (daily day dying).IsLocal := by
  intro directory files name hname
  have hown := isName_logFile hday
  have hends := hown.endsWith_join directory
  have hne : name ≠ logName ++ "." ++ day := by
    rintro rfl
    refine hname ⟨('.' :: day.toList), ?_⟩
    rw [String.toList_append, String.toList_append, List.append_assoc]
    rfl
  obtain ⟨made, hmade, hleft⟩ := opens_daily day dying directory logName files
  have hbefore : files.Keeps name made := by
    rcases hmade with rfl | rfl
    · exact .refl name made
    · exact (FileTree.grows_makeParent _ files).keeps_name name
  rcases hleft with hleft | hleft
  · rw [hleft]
    exact hbefore
  · rcases eq_or_write_of_openAtEnd hleft with hsame | hwrite
    · rw [hsame]
      exact hbefore
    · exact hbefore.trans (FileTree.keeps_write hown hends hne hwrite)

/-- A log of days puts nothing where the path of its file has no name for it. -/
theorem at?_opens_daily (hday : '/' ∉ day.toList) {directory : String} {files : FileTree}
    (hconnected : files.IsConnected) {q : Place}
    (hq : ∀ name ∈ Path.names (Path.join directory (logName ++ "." ++ day)), q.head? ≠ some name) :
    ((daily day dying).opens directory logName files).2.at? q = files.at? q := by
  have hown := isName_logFile hday
  have hends := hown.endsWith_join directory
  obtain ⟨made, hmade, hleft⟩ := opens_daily day dying directory logName files
  have hbefore : made.at? q = files.at? q := by
    rcases hmade with rfl | rfl
    · rfl
    · exact FileTree.at?_makeParent_of_name hconnected hq
  rcases hleft with hleft | hleft
  · rw [hleft, hbefore]
  · rcases eq_or_write_of_openAtEnd hleft with hsame | hwrite
    · rw [hsame, hbefore]
    · obtain ⟨-, start, names, place, hroute, hleads, -, hput⟩ := FileTree.write_eq_ok hwrite
      have hhead := FileTree.head?_of_leads hown hends hroute hleads
      have hne : q ≠ place := by
        rintro rfl
        obtain ⟨before, hpieces⟩ := hends
        refine hq _ ?_ hhead
        simp [Path.names, hpieces, hown.nonEmpty]
      rw [hput, FileTree.at?_put_of_ne made _ hne, hbefore]

end Appender

/-! ## Processes -/

variable {a : Appender} {args : List String} {s : Surroundings} {name : String}

/-- No log is opened if the configuration says so. -/
theorem openLog_of_off (h : s.config.config.logsToFile = false) :
    s.openLog a = (.ok (), s.files) := by
  unfold Surroundings.openLog
  rw [h]
  rfl

theorem keeps_openLog (ha : a.IsLocal) (s : Surroundings)
    (hname : ¬ logName.toList <+: name.toList) : s.files.Keeps name (s.openLog a).2 := by
  unfold Surroundings.openLog
  split
  · exact ha _ _ _ hname
  · exact .refl name s.files

/-- **A process whose log is open does what one without a log does** with the files that the log
has left, if these hold the same configuration. -/
theorem perform_eq_execute {files : FileTree} (hopens : s.openLog a = (.ok (), files))
    (hsame : ({ s with files } : Surroundings).config = s.config)
    (hstarts : ∃ i, parse args (s.environment.get? Environment.dataVariable) = .ok i) :
    perform a args s = execute args { s with files } := by
  obtain ⟨i, hparse⟩ := hstarts
  rw [execute_eq]
  unfold perform launch start beginInvocation
  rw [hsame]
  dsimp only
  rw [hparse, hopens]

/-- Where no log is kept the two are the same. -/
theorem perform_of_off (h : s.config.config.logsToFile = false) :
    perform a args s = execute args s := by
  cases hparse : parse args (s.environment.get? Environment.dataVariable) with
  | error halt =>
    rw [execute_eq]
    unfold perform launch start
    rw [hparse]
  | ok i => exact perform_eq_execute (openLog_of_off h) rfl ⟨i, hparse⟩

/-- **A process keeps all files but those of its log and those with the name that its command
writes**, also if it dies. -/
theorem keeps_perform (ha : a.IsLocal) (hlog : ¬ logName.toList <+: name.toList)
    (hname : ∀ i, parse args (s.environment.get? Environment.dataVariable) = .ok i →
      name ∉ i.command.written) : s.files.Keeps name (perform a args s).files := by
  have hopens := keeps_openLog ha s hlog
  unfold perform launch
  split
  · rename_i halt _
    cases halt <;> exact .refl name s.files
  · rename_i i hparse
    split <;> rename_i files heq <;> rw [heq] at hopens
    · exact hopens
    · exact hopens.trans (keeps_beginUnder (hname i hparse) s.config { s with files })

end CommandLine
end TriggerFlow
