import Mathlib.Data.List.Basic
import TriggerFlow.Config.Layers
import TriggerFlow.Proofs.FileTree.Leads

/-!
# What the layers of configuration come to

Loading goes through the layers once, with a configuration, a list of sources and a list of warnings
that grow together. Here the three are taken apart: **each section is that of the uppermost layer
that has it**, the sources are the layers that were looked for, and the warnings are about the files
that are no layers. Such a file adds its warning and nothing else, as if it were not there.
-/

set_option autoImplicit false

namespace TriggerFlow

/-! ## Laying one over another -/

namespace Config

theorem empty_merge (c : Config) : Config.empty.merge c = c := by
  unfold merge empty
  simp only [Option.or_none]

theorem merge_empty (c : Config) : c.merge .empty = c := by
  unfold merge empty
  simp only [Option.none_or]

theorem merge_assoc (a b c : Config) : (a.merge b).merge c = a.merge (b.merge c) := by
  unfold merge
  simp only [Option.or_assoc]

/-- Layers laid over a configuration give the section of the uppermost one that has it, whichever
section is asked for. -/
theorem foldl_merge {α : Type} {part? : Config → Option α}
    (hmerge : ∀ a b : Config, part? (a.merge b) = (part? b).or (part? a))
    (layers : List Config) :
    ∀ c : Config, part? (layers.foldl merge c) =
      (layers.reverse.findSome? part?).or (part? c) := by
  induction layers with
  | nil =>
    intro c
    rfl
  | cons layer layers ih =>
    intro c
    have hlast : [layer].findSome? part? = part? layer := by
      rw [List.findSome?_cons]
      cases part? layer <;> rfl
    rw [List.foldl_cons, ih, hmerge, List.reverse_cons, List.findSome?_append, Option.or_assoc,
      hlast]

end Config

/-! ## Files and what they hold -/

/-- The configuration that is written in a file. -/
def FileContent.config? : FileContent → Option Config
  | .text s => (Config.parse s).toOption
  | .binary _ => none

/-- Why none is. -/
def FileContent.failure? (path : String) : FileContent → Option ConfigFailure
  | .text s =>
    match Config.parse s with
    | .ok _ => none
    | .error fault => some (.unparsable fault)
  | .binary _ => some (.unreadable path .notText)

theorem FileContent.isSome_failure? (path : String) (content : FileContent) :
    (content.failure? path).isSome = content.config?.isNone := by
  cases content with
  | binary bytes => rfl
  | text s =>
    dsimp only [failure?, config?]
    cases Config.parse s <;> rfl

namespace FileTree

/-- What the file at a path holds. -/
def held? (t : FileTree) (path : String) : Option FileContent :=
  match t.find path with
  | .ok (.file content) => some content
  | _ => none

theorem held?_eq_some_iff {t : FileTree} {path : String} {content : FileContent} :
    t.held? path = some content ↔ t.find path = .ok (.file content) := by
  unfold held?
  split
  · rename_i hfind
    rw [hfind, Option.some.injEq, Except.ok.injEq, FileNode.file.injEq]
  · rename_i hother
    constructor
    · intro h
      cases h
    · intro h
      exact absurd h (hother content)

theorem isFile_eq (t : FileTree) (path : String) : t.isFile path = (t.held? path).isSome := by
  unfold isFile held?
  rcases t.find path with e | _ | content <;> rfl

/-- A path leads to what stands at a place. -/
def leadsTo (t : FileTree) (path : String) (place : Place) : Bool :=
  match t.locate path with
  | .ok (.present last _) => last = place
  | _ => false

/-- Nothing stands at a place, and everything else is as in another tree. -/
structure IsWithout (t' t : FileTree) (place : Place) : Prop where
  here : t'.here = t.here
  vacant : t'.at? place = none
  others : ∀ other, other ≠ place → t'.at? other = t.at? other

theorem isWithout_put {t : FileTree} {place : Place} (h : t.at? place = none) (node : FileNode) :
    t.IsWithout (t.put place node) place where
  here := rfl
  vacant := h
  others := fun _ hother => (at?_put_of_ne t node hother).symm

variable {t t' : FileTree} {place : Place} {content : FileContent}

theorem leadsTo_iff (hfile : t.at? place = some (.file content)) {path : String} :
    t.leadsTo path place = true ↔
      ∃ start names, t.route path = .ok (start, names) ∧ t.Leads start names place := by
  unfold leadsTo locate
  cases hroute : t.route path with
  | error e => simp
  | ok found =>
    obtain ⟨start, names⟩ := found
    dsimp only
    constructor
    · intro h
      split at h
      · rename_i last node hfollow
        obtain rfl : last = place := of_decide_eq_true h
        exact ⟨start, names, rfl, (follow_eq_present_iff.mp hfollow).1⟩
      · cases h
    · rintro ⟨start', names', heq, hleads⟩
      cases heq
      rw [follow_eq_present_iff.mpr ⟨hleads, hfile⟩]
      exact decide_eq_true rfl

/-- The directories are those there were, so paths lead where they did. -/
theorem IsWithout.leads_iff (h : t'.IsWithout t place) (hfile : t.at? place = some (.file content))
    {start last : Place} {names : List String} :
    t'.Leads start names last ↔ t.Leads start names last := by
  constructor
  · refine Leads.mono fun other hother => ?_
    by_cases hplace : other = place
    · rw [hplace, h.vacant] at hother
      cases hother
    · rwa [← h.others other hplace]
  · refine Leads.mono fun other hother => ?_
    by_cases hplace : other = place
    · rw [hplace, hfile] at hother
      cases hother
    · rwa [h.others other hplace]

/-- **Without a file its paths name no file**, and all others name the files they did. -/
theorem IsWithout.held?_eq (h : t'.IsWithout t place) (hfile : t.at? place = some (.file content))
    (path : String) : t'.held? path = if t.leadsTo path place then none else t.held? path := by
  refine Option.ext fun found => ?_
  have hthere : t'.held? path = some found ↔
      t.held? path = some found ∧ ¬ t.leadsTo path place = true := by
    rw [held?_eq_some_iff, held?_eq_some_iff, find_eq_file_iff, find_eq_file_iff,
      leadsTo_iff hfile]
    simp only [route_of_here_eq h.here, h.leads_iff hfile]
    constructor
    · rintro ⟨hopen, start, names, last, hroute, hleads, hlast⟩
      have hne : last ≠ place := by
        rintro rfl
        rw [h.vacant] at hlast
        cases hlast
      rw [h.others last hne] at hlast
      refine ⟨⟨hopen, start, names, last, hroute, hleads, hlast⟩, ?_⟩
      rintro ⟨start', names', hroute', hleads'⟩
      cases hroute.symm.trans hroute'
      exact hne (hleads.unique hleads')
    · rintro ⟨⟨hopen, start, names, last, hroute, hleads, hlast⟩, hapart⟩
      have hne : last ≠ place := by
        rintro rfl
        exact hapart ⟨start, names, hroute, hleads⟩
      rw [← h.others last hne] at hlast
      exact ⟨hopen, start, names, last, hroute, hleads, hlast⟩
  rw [hthere]
  split <;> simp [*]

/-- A path that leads to a file, if it names one, names that file. -/
theorem held?_of_leadsTo (hfile : t.at? place = some (.file content)) {path : String}
    (hleads : t.leadsTo path place = true) {found : FileContent}
    (hheld : t.held? path = some found) : found = content := by
  obtain ⟨start, names, hroute, hplace⟩ := (leadsTo_iff hfile).mp hleads
  obtain ⟨-, start', names', last, hroute', hlast, hnode⟩ :=
    find_eq_file_iff.mp (held?_eq_some_iff.mp hheld)
  cases hroute.symm.trans hroute'
  rw [hlast.unique hplace, hfile] at hnode
  cases hnode
  rfl

end FileTree

/-! ## Layers -/

namespace LoadedConfig

/-- The layer that a path contributes. -/
def layer? (files : FileTree) (path : String) : Option Config :=
  (files.held? path).bind FileContent.config?

/-- What is told of a file that is no layer. -/
def warning? (files : FileTree) (path : String) : Option String :=
  ((files.held? path).bind (·.failure? path)).map fun f =>
    "Failed to load " ++ path ++ ": " ++ f.message

/-- What is told of a pause that takes no time. -/
def settingsWarning : String :=
  "[engine] pacing_ms = 0 disables the pause between actions; "
    ++ "effects will not be visible one by one."

variable {files : FileTree} {path : String}

theorem layer?_eq_some_iff {c : Config} :
    layer? files path = some c ↔
      ∃ s, files.find path = .ok (.file (.text s)) ∧ Config.parse s = .ok c := by
  unfold layer?
  rw [Option.bind_eq_some_iff]
  constructor
  · rintro ⟨content, hheld, hconfig⟩
    rw [FileTree.held?_eq_some_iff] at hheld
    cases content with
    | binary bytes => cases hconfig
    | text s =>
      refine ⟨s, hheld, ?_⟩
      dsimp only [FileContent.config?] at hconfig
      cases hparse : Config.parse s <;> rw [hparse] at hconfig <;> cases hconfig
      rfl
  · rintro ⟨s, hfind, hparse⟩
    refine ⟨.text s, FileTree.held?_eq_some_iff.mpr hfind, ?_⟩
    dsimp only [FileContent.config?]
    rw [hparse]
    rfl

/-- **A file is a layer or there is one warning about it.** What is no file is neither. -/
theorem isSome_warning?_iff :
    (warning? files path).isSome = true ↔
      files.isFile path = true ∧ layer? files path = none := by
  unfold warning? layer?
  rw [FileTree.isFile_eq, Option.isSome_map]
  cases files.held? path with
  | none => simp
  | some content =>
    rw [Option.bind_some, Option.bind_some, content.isSome_failure?, Option.isNone_iff_eq_none]
    simp

theorem settingsWarning_ne_warning : warning? files path ≠ some settingsWarning := by
  unfold warning?
  intro h
  obtain ⟨f, -, heq⟩ := Option.map_eq_some_iff.mp h
  have hbracket : settingsWarning.toList.head? = some '[' := rfl
  have hletter : "Failed to load ".toList = 'F' :: "ailed to load ".toList := rfl
  rw [← heq, String.toList_append, String.toList_append, String.toList_append, hletter,
    List.cons_append, List.cons_append, List.cons_append, List.head?_cons] at hbracket
  cases hbracket

/-- What the file at a path holds is what reading it as a layer finds. -/
theorem readLayer_of_held {content : FileContent} (h : files.held? path = some content) :
    readLayer files path =
      match content.failure? path with
      | some f => .error f
      | none => .ok (content.config?.getD .empty) := by
  rw [FileTree.held?_eq_some_iff] at h
  unfold readLayer FileTree.read
  rw [h]
  cases content with
  | binary bytes => rfl
  | text s =>
    dsimp only [FileContent.failure?, FileContent.config?]
    cases Config.parse s <;> rfl

/-- **One layer more**, in each of the three that are built up. -/
theorem addLayer_eq (files : FileTree) (l : LoadedConfig) (path : String) :
    addLayer files l path =
      { config := (layer? files path).elim l.config l.config.merge
        sources := l.sources ++ [⟨path, (layer? files path).isSome⟩]
        warnings := l.warnings ++ (warning? files path).toList } := by
  unfold addLayer layer? warning?
  rw [FileTree.isFile_eq]
  cases hheld : files.held? path with
  | none => simp
  | some content =>
    rw [readLayer_of_held hheld]
    have hsome := content.isSome_failure? path
    dsimp only [Option.bind_some]
    cases hfailure : content.failure? path with
    | none =>
      rw [hfailure] at hsome
      cases hconfig : content.config? with
      | none =>
        rw [hconfig] at hsome
        cases hsome
      | some c => simp
    | some f =>
      rw [hfailure] at hsome
      cases hconfig : content.config? with
      | none => simp
      | some c =>
        rw [hconfig] at hsome
        cases hsome

theorem foldl_addLayer (files : FileTree) (paths : List String) :
    ∀ l : LoadedConfig, paths.foldl (addLayer files) l =
      { config := (paths.filterMap (layer? files)).foldl Config.merge l.config
        sources := l.sources ++ paths.map fun path => ⟨path, (layer? files path).isSome⟩
        warnings := l.warnings ++ paths.filterMap (warning? files) } := by
  induction paths with
  | nil =>
    intro l
    simp
  | cons path paths ih =>
    intro l
    rw [List.foldl_cons, ih, addLayer_eq]
    cases hlayer : layer? files path <;> cases hwarning : warning? files path <;>
      simp [hlayer, hwarning]

/-- The warning about the settings that are in force, if there is one. -/
def settingsWarnings (c : Config) : List String :=
  if c.settings.pacing = 0 then [settingsWarning] else []

theorem addSettingsWarning_eq (l : LoadedConfig) :
    l.addSettingsWarning = { l with warnings := l.warnings ++ settingsWarnings l.config } := by
  have hiff : l.config.engine.any (·.pacing = 0) = true ↔ l.config.settings.pacing = 0 := by
    unfold Config.settings
    cases l.config.engine <;> simp [Settings.default, Settings.defaultPacing]
  unfold addSettingsWarning settingsWarnings
  by_cases hpacing : l.config.settings.pacing = 0
  · rw [if_pos (hiff.mpr hpacing), if_pos hpacing]
    rfl
  · rw [if_neg (hiff.not.mpr hpacing), if_neg hpacing, List.append_nil]

/-- The paths of the layers, the lowest first. -/
def layerPaths (user : Option String) (project : String) : List String :=
  user.toList ++ [project]

theorem load_eq (user : Option String) (project : String) (files : FileTree) :
    let paths := layerPaths user project
    let c := (paths.filterMap (layer? files)).foldl Config.merge .empty
    load user project files =
      { config := c
        sources := paths.map fun path => ⟨path, (layer? files path).isSome⟩
        warnings := paths.filterMap (warning? files) ++ settingsWarnings c } := by
  intro paths c
  unfold load
  rw [foldl_addLayer, addSettingsWarning_eq]
  rfl

/-! ## A file that is no layer -/

variable {files' : FileTree} {place : Place} {content : FileContent}

theorem layer?_of_isWithout (hwithout : files'.IsWithout files place)
    (hfile : files.at? place = some (.file content)) (hbroken : content.config? = none)
    (path : String) : layer? files' path = layer? files path := by
  unfold layer?
  rw [hwithout.held?_eq hfile]
  split
  · rename_i hleads
    cases hheld : files.held? path with
    | none => rfl
    | some found =>
      obtain rfl := FileTree.held?_of_leadsTo hfile hleads hheld
      exact hbroken.symm
  · rfl

theorem warning?_of_isWithout (hwithout : files'.IsWithout files place)
    (hfile : files.at? place = some (.file content)) (path : String) :
    warning? files' path = if files.leadsTo path place then none else warning? files path := by
  unfold warning?
  rw [hwithout.held?_eq hfile]
  split <;> rfl

/-- **What loading comes to.** Each section is that of the uppermost layer that has it. The sources
are the paths that were looked at, and those are loaded that hold a layer. Each file that is no
layer has one warning, and where it is missing only that warning is. A last warning is there
exactly if the settings in force have no pause. -/
theorem load_reads_layers (user : Option String) (project : String) (files : FileTree) :
    let paths := layerPaths user project
    let layers := paths.filterMap (layer? files)
    let l := load user project files
    (l.config.engine = layers.reverse.findSome? (·.engine) ∧
      l.config.paths = layers.reverse.findSome? (·.paths) ∧
      l.config.logging = layers.reverse.findSome? (·.logging)) ∧
    (∀ path c, layer? files path = some c ↔
      ∃ s, files.find path = .ok (.file (.text s)) ∧ Config.parse s = .ok c) ∧
    ((∀ a b c : Config, (a.merge b).merge c = a.merge (b.merge c)) ∧
      ∀ c : Config, Config.empty.merge c = c ∧ c.merge .empty = c) ∧
    l.sources = paths.map (fun path => ⟨path, (layer? files path).isSome⟩) ∧
    l.warnings = paths.filterMap (warning? files) ++
      (if l.config.settings.pacing = 0 then [settingsWarning] else []) ∧
    (∀ path, (warning? files path).isSome = true ↔
      files.isFile path = true ∧ layer? files path = none) ∧
    settingsWarning ∉ paths.filterMap (warning? files) ∧
    ∀ place content without, files.at? place = some (.file content) → content.config? = none →
      without.IsWithout files place →
      load user project without =
        { l with
          warnings := (paths.filter (!files.leadsTo · place)).filterMap (warning? files) ++
            (if l.config.settings.pacing = 0 then [settingsWarning] else []) } := by
  intro paths layers l
  have hl : l = _ := load_eq user project files
  refine ⟨?_, fun path c => layer?_eq_some_iff,
    ⟨Config.merge_assoc, fun c => ⟨c.empty_merge, c.merge_empty⟩⟩, ?_, ?_,
    fun path => isSome_warning?_iff, ?_, ?_⟩
  · rw [hl]
    have hpart {α : Type} {part? : Config → Option α}
        (hmerge : ∀ a b : Config, part? (a.merge b) = (part? b).or (part? a))
        (hempty : part? .empty = none) :
        part? (layers.foldl Config.merge .empty) = layers.reverse.findSome? part? := by
      rw [Config.foldl_merge hmerge, hempty, Option.or_none]
    exact ⟨hpart (fun _ _ => rfl) rfl, hpart (fun _ _ => rfl) rfl,
      hpart (fun _ _ => rfl) rfl⟩
  · rw [hl]
  · rw [hl]
    rfl
  · intro hmem
    obtain ⟨path, -, hpath⟩ := List.mem_filterMap.mp hmem
    exact settingsWarning_ne_warning hpath
  · intro place content without hfile hbroken hwithout
    have hlayer : layer? without = layer? files :=
      funext (layer?_of_isWithout hwithout hfile hbroken)
    have hwarnings : paths.filterMap (warning? without) =
        (paths.filter (!files.leadsTo · place)).filterMap (warning? files) := by
      rw [List.filterMap_filter]
      refine List.filterMap_congr fun path _ => ?_
      rw [warning?_of_isWithout hwithout hfile]
      cases files.leadsTo path place <;> rfl
    rw [load_eq, hl, hlayer]
    dsimp only
    rw [hwarnings]
    rfl

/-- The file of the user switches the pauses off, and that of the project is no text. -/
theorem load_reads_layers_broken :
    let without := (⟨[], []⟩ : FileTree).put ["user.toml"] (.file (.text "[engine]\npacing_ms = 0"))
    let broken : FileContent := .binary [255]
    let files := without.put ["clickflow.toml"] (.file broken)
    files.at? ["clickflow.toml"] = some (.file broken) ∧ broken.config? = none ∧
    without.IsWithout files ["clickflow.toml"] ∧
    load (some "user.toml") "clickflow.toml" files =
      ⟨⟨some ⟨0, .lenient⟩, none, none⟩, [⟨"user.toml", true⟩, ⟨"clickflow.toml", false⟩],
        ["Failed to load clickflow.toml: failed to read config file 'clickflow.toml': "
            ++ "stream did not contain valid UTF-8", settingsWarning]⟩ ∧
    load (some "user.toml") "clickflow.toml" without =
      ⟨⟨some ⟨0, .lenient⟩, none, none⟩, [⟨"user.toml", true⟩, ⟨"clickflow.toml", false⟩],
        [settingsWarning]⟩ := by
  intro without broken files
  have hfile : files.at? ["clickflow.toml"] = some (.file broken) := rfl
  have hwithout : without.IsWithout files ["clickflow.toml"] :=
    FileTree.isWithout_put rfl _
  obtain ⟨-, -, -, -, -, -, -, hmissing⟩ :=
    load_reads_layers (some "user.toml") "clickflow.toml" files
  refine ⟨hfile, rfl, hwithout, by decide +kernel, ?_⟩
  rw [hmissing ["clickflow.toml"] broken without hfile rfl hwithout]
  decide +kernel

end LoadedConfig
end TriggerFlow
