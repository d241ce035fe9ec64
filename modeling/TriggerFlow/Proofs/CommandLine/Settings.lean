import TriggerFlow.Proofs.CommandLine.Given
import TriggerFlow.Proofs.CommandLine.Written
import TriggerFlow.Proofs.Config.Layers

/-!
# Where the settings of a command come from

Each setting has several places where it can be given, and the first of them that gives it decides.
The directory for data has five, and one of them, a variable, is asked for twice: with the command
line, where it stands in for an option, and with the configuration. **The two agree on every value
but the empty one.** To the configuration a variable that is set to nothing is not set; to the
command line it is a directory without a name, and the command is refused unless the option stands
at every level.
-/

set_option autoImplicit false

namespace TriggerFlow

/-! ## Two files of one directory -/

namespace Path

theorem IsName.isAbsolute_eq {name : String} (h : IsName name) : isAbsolute name = false :=
  Bool.eq_false_iff.mpr fun habsolute =>
    h.whole (List.mem_of_mem_head? (of_decide_eq_true habsolute))

theorem isAbsolute_join {name : String} (h : IsName name) (directory : String) :
    isAbsolute (join directory name) = isAbsolute directory := by
  have hnone : isAbsolute "" = false := by decide
  unfold join
  rw [h.isAbsolute_eq, if_neg Bool.false_ne_true]
  by_cases hempty : directory = ""
  · subst hempty
    simp [h.isAbsolute_eq, hnone]
  · obtain ⟨c, cs, hcs⟩ := List.exists_cons_of_ne_nil (mt String.toList_eq_nil_iff.mp hempty)
    unfold isAbsolute
    split <;> simp [hcs]

/-- Joining a name to a directory adds it to the names on the way. -/
theorem names_join {name : String} (h : IsName name) (directory : String) :
    (pieces (join directory name)).filter (· ≠ "") =
      (pieces directory).filter (· ≠ "") ++ [name] := by
  have hlast : (pieces name).filter (· ≠ "") = [name] := by
    rw [h.pieces_eq]
    simp [h.nonEmpty]
  have happend (cs ds : List Char) : (splitAt '/' (cs ++ '/' :: ds)).map String.ofList =
      (splitAt '/' cs).map String.ofList ++ (splitAt '/' ds).map String.ofList := by
    rw [splitAt_append, List.map_append]
  unfold join
  rw [h.isAbsolute_eq, if_neg Bool.false_ne_true]
  split
  · rename_i hends
    rcases (Bool.or_eq_true _ _).mp hends with hempty | hopen
    · rw [of_decide_eq_true hempty, String.empty_append, hlast]
      rfl
    · obtain ⟨cs, hcs⟩ := List.getLast?_eq_some_iff.mp (of_decide_eq_true hopen)
      have hdirectory : pieces directory = (splitAt '/' cs).map String.ofList ++ [""] := by
        unfold pieces
        rw [hcs, happend]
        rfl
      have hwhole : pieces (directory ++ name) =
          (splitAt '/' cs).map String.ofList ++ pieces name := by
        unfold pieces
        rw [String.toList_append, hcs, List.append_assoc, List.singleton_append, happend]
      rw [hwhole, hdirectory, List.filter_append, List.filter_append, hlast]
      simp
  · have hwhole : pieces (directory ++ "/" ++ name) = pieces directory ++ pieces name := by
      unfold pieces
      rw [String.toList_append, String.toList_append, List.append_assoc]
      exact happend _ _
    rw [hwhole, List.filter_append, hlast]

end Path

namespace FileTree

/-- A name joined to a directory leads to a place of that name, in the place that the names of the
directory lead to. -/
theorem Reaches.of_join {t : FileTree} {directory name : String} {place : Place}
    (hname : Path.IsName name) (h : t.Reaches (Path.join directory name) place) :
    ∃ above, place = name :: above ∧
      t.Leads (if Path.isAbsolute directory then [] else t.here)
        ((Path.pieces directory).filter (· ≠ "")) above := by
  obtain ⟨start, names, hroute, hleads⟩ := h
  obtain ⟨rfl, rfl⟩ := names_of_route hroute
  rw [Path.names_join hname, Path.isAbsolute_join hname] at hleads
  exact hleads.of_name hname

/-- **Two names that are joined to one directory lead into the same place.** -/
theorem reaches_join_join {t : FileTree} {directory name other : String} {p q : Place}
    (hname : Path.IsName name) (hother : Path.IsName other)
    (hp : t.Reaches (Path.join directory name) p)
    (hq : t.Reaches (Path.join directory other) q) :
    ∃ above, p = name :: above ∧ q = other :: above := by
  obtain ⟨above, rfl, hleads⟩ := hp.of_join hname
  obtain ⟨above', rfl, hleads'⟩ := hq.of_join hother
  exact ⟨above, rfl, by rw [hleads.unique hleads']⟩

end FileTree

/-! ## The variable -/

namespace Environment

/-- Without a variable. -/
def unset (e : Environment) (name : String) : Environment :=
  { e with bindings := e.bindings.filter (·.1 ≠ name) }

theorem get?_unset_self (e : Environment) (name : String) : (e.unset name).get? name = none := by
  unfold unset get?
  rw [List.lookup_eq_none_iff]
  intro binding hmem
  have hne : binding.1 ≠ name := by simpa using (List.mem_filter.mp hmem).2
  simpa using hne.symm

theorem get?_unset_of_ne (e : Environment) {name other : String} (h : other ≠ name) :
    (e.unset name).get? other = e.get? other := by
  unfold unset get?
  dsimp only
  induction e.bindings with
  | nil => rfl
  | cons binding bindings ih =>
    by_cases hname : binding.1 = name
    · rw [List.filter_cons_of_neg (by simp [hname]), ih, List.lookup_cons,
        beq_false_of_ne (hname ▸ h)]
    · rw [List.filter_cons_of_pos (by simp [hname]), List.lookup_cons, List.lookup_cons, ih]

theorem defaultDataDirectory_unset (e : Environment) :
    (e.unset dataVariable).defaultDataDirectory = e.defaultDataDirectory := by
  have hshared : (e.unset dataVariable).get? "XDG_DATA_HOME" = e.get? "XDG_DATA_HOME" :=
    e.get?_unset_of_ne (by decide)
  have hhome : (e.unset dataVariable).get? "HOME" = e.get? "HOME" := e.get?_unset_of_ne (by decide)
  unfold defaultDataDirectory shared? home? nonEmpty?
  rw [hshared, hhome]
  rfl

/-- To the configuration, a variable that is set to nothing is not set. -/
theorem dataDirectory_of_empty {e : Environment} (h : e.get? dataVariable = some "")
    (configured : Option String) :
    e.dataDirectory configured = (e.unset dataVariable).dataDirectory configured := by
  unfold dataDirectory nonEmpty?
  rw [h, get?_unset_self, defaultDataDirectory_unset]
  rfl

end Environment

namespace CommandLine

/-- The option is given at every level of a command line. -/
def NamesDirectoryEverywhere (args : List String) : Prop :=
  ∃ ls, readLevel none .program .initial args = .ok ls ∧ ∀ l ∈ ls, l.2.has .dataDirectory = true

variable {fallback? : Option String}

/-- What closes a level where no variable is set closes it where one is, if its value will do or
is not needed. -/
theorem State.close_eq_ok_iff {l : Level} {s : State} {t : Taken} :
    s.close l fallback? = .ok t ↔ s.close l none = .ok t ∧
      (t.has .dataDirectory = true ∨ fallback?.all (Opt.dataDirectory.accepts ·) = true) := by
  unfold close
  cases s.settle l with
  | error halt =>
    constructor
    · intro h
      cases h
    · rintro ⟨h, -⟩
      cases h
  | ok settled =>
    show ((if _ then _ else _) = _) ↔ (if _ then _ else _) = _ ∧ _
    by_cases hrequired : l.required ≤ settled.taken.positions.length
    · by_cases hfits : settled.taken.has .dataDirectory = true ∨
          fallback?.all (Opt.dataDirectory.accepts ·) = true
      · rw [if_pos (by simp [hfits, hrequired]), if_pos (by simp [hrequired])]
        constructor
        · intro h
          cases h
          exact ⟨rfl, hfits⟩
        · rintro ⟨h, -⟩
          exact h
      · rw [if_neg (by simp [hfits]), if_pos (by simp [hrequired])]
        constructor
        · intro h
          cases h
        · rintro ⟨h, hfits'⟩
          cases h
          exact absurd hfits' hfits
    · rw [if_neg (by simp [hrequired]), if_neg (by simp [hrequired])]
      constructor
      · intro h
        cases h
      · rintro ⟨h, -⟩
        cases h

theorem bind_eq_ok_iff {ε α β : Type} {x : Except ε α} {f : α → Except ε β} {b : β} :
    x >>= f = .ok b ↔ ∃ a, x = .ok a ∧ f a = .ok b := by
  constructor
  · exact exists_of_bind_eq_ok
  · rintro ⟨a, rfl, h⟩
    exact h

/-- **A variable changes nothing about what is taken at the levels**: it can only be refused. -/
theorem readLevel_eq_ok_iff (args : List String) :
    ∀ {l : Level} {s : State} {ls : Levels}, readLevel fallback? l s args = .ok ls ↔
      readLevel none l s args = .ok ls ∧
        ∀ p ∈ ls, p.2.has .dataDirectory = true ∨
          fallback?.all (Opt.dataDirectory.accepts ·) = true := by
  induction args with
  | nil =>
    intro l s ls
    rw [readLevel, readLevel, bind_eq_ok_iff, bind_eq_ok_iff]
    constructor
    · rintro ⟨t, hclose, hls⟩
      cases hls
      obtain ⟨hplain, hfits⟩ := State.close_eq_ok_iff.mp hclose
      exact ⟨⟨t, hplain, rfl⟩, by simpa using hfits⟩
    · rintro ⟨⟨t, hplain, hls⟩, hfits⟩
      cases hls
      exact ⟨t, State.close_eq_ok_iff.mpr ⟨hplain, by simpa using hfits⟩, rfl⟩
  | cons arg args ih =>
    intro l s ls
    have taking : (s.take l arg >>= fun next => readLevel fallback? l next args) = .ok ls ↔
        (s.take l arg >>= fun next => readLevel none l next args) = .ok ls ∧
          ∀ p ∈ ls, p.2.has .dataDirectory = true ∨
            fallback?.all (Opt.dataDirectory.accepts ·) = true := by
      rw [bind_eq_ok_iff, bind_eq_ok_iff]
      constructor
      · rintro ⟨next, htake, h⟩
        obtain ⟨hplain, hfits⟩ := ih.mp h
        exact ⟨⟨next, htake, hplain⟩, hfits⟩
      · rintro ⟨⟨next, htake, hplain⟩, hfits⟩
        exact ⟨next, htake, ih.mpr ⟨hplain, hfits⟩⟩
    rw [readLevel, readLevel]
    split
    · exact taking
    · split
      · constructor
        · intro h
          cases h
        · rintro ⟨h, -⟩
          cases h
      · cases l.below.lookup arg with
        | none => exact taking
        | some inner =>
          dsimp only
          rw [bind_eq_ok_iff, bind_eq_ok_iff]
          constructor
          · rintro ⟨lower, hlower, h⟩
            obtain ⟨t, hclose, hls⟩ := bind_eq_ok_iff.mp h
            cases hls
            obtain ⟨hplain, hbelow⟩ := ih.mp hlower
            obtain ⟨hclosed, hfits⟩ := State.close_eq_ok_iff.mp hclose
            refine ⟨⟨lower, hplain, bind_eq_ok_iff.mpr ⟨t, hclosed, rfl⟩⟩, ?_⟩
            intro p hp
            rcases List.mem_append.mp hp with hp | hp
            · exact hbelow p hp
            · obtain rfl := List.mem_singleton.mp hp
              exact hfits
          · rintro ⟨⟨lower, hplain, h⟩, hall⟩
            obtain ⟨t, hclosed, hls⟩ := bind_eq_ok_iff.mp h
            cases hls
            have hlower := ih.mpr ⟨hplain, fun p hp => hall p (List.mem_append_left _ hp)⟩
            have hclose := State.close_eq_ok_iff.mpr ⟨hclosed, hall (l, t) (by simp)⟩
            exact ⟨lower, hlower, bind_eq_ok_iff.mpr ⟨t, hclose, rfl⟩⟩

/-- What a command line asks for, read off its levels. -/
theorem parse_eq_ok {args : List String} {i : Invocation} (h : parse args fallback? = .ok i) :
    ∃ ls, readLevel fallback? .program .initial args = .ok ls ∧ ls ≠ [] ∧
      i.dataDirectory = (ls.value? .dataDirectory).or fallback? ∧
      ∀ other?, readLevel other? .program .initial args = .ok ls →
        parse args other? =
          .ok { i with dataDirectory := (ls.value? .dataDirectory).or other? } := by
  obtain ⟨ls, hlevels, h⟩ := exists_of_bind_eq_ok h
  refine ⟨ls, hlevels, ?_⟩
  split at h
  · cases h
  · rename_i command hcommand
    cases h
    refine ⟨?_, rfl, ?_⟩
    · rintro rfl
      cases hcommand
    · intro other? hother
      unfold parse
      rw [hother]
      dsimp only [bind, Except.bind]
      rw [hcommand]
      rfl

/-- An option that every level has is found at the lowest one. -/
theorem Levels.isSome_value? {ls : Levels} {o : Opt} (hne : ls ≠ [])
    (h : ∀ p ∈ ls, p.2.has o = true) : (ls.value? o).isSome = true := by
  obtain ⟨p, others, rfl⟩ := List.exists_cons_of_ne_nil hne
  have hvalues : p.2.values o ≠ [] := by
    have hhas := h p List.mem_cons_self
    simpa [Taken.values, Taken.has] using hhas
  obtain ⟨value, values, hp⟩ := List.exists_cons_of_ne_nil hvalues
  simp [Levels.value?, hp]

/-- **What the variable adds to a command line**: where the option is not given, its value. It is
refused only where it is empty and some level does not have the option. -/
theorem parse_eq_ok_iff {args : List String} {i : Invocation} :
    parse args fallback? = .ok i ↔ ∃ plain, parse args none = .ok plain ∧
      (fallback? ≠ some "" ∨ NamesDirectoryEverywhere args) ∧
      i = { plain with dataDirectory := plain.dataDirectory.or fallback? } := by
  have haccepted : fallback?.all (Opt.dataDirectory.accepts ·) = true ↔ fallback? ≠ some "" := by
    cases fallback? <;> simp [Opt.accepts]
  constructor
  · intro h
    obtain ⟨ls, hlevels, -, hdirectory, hother⟩ := parse_eq_ok h
    obtain ⟨hplain, hfits⟩ := (readLevel_eq_ok_iff args).mp hlevels
    refine ⟨_, hother none hplain, ?_, ?_⟩
    · by_cases hempty : fallback? = some ""
      · refine .inr ⟨ls, hplain, fun p hp => (hfits p hp).resolve_right ?_⟩
        rw [haccepted]
        exact not_not.mpr hempty
      · exact .inl hempty
    · dsimp only
      rw [Option.or_none, ← hdirectory]
  · rintro ⟨plain, h, hfits, rfl⟩
    obtain ⟨ls, hlevels, -, hdirectory, hother⟩ := parse_eq_ok h
    rw [Option.or_none] at hdirectory
    rw [hdirectory]
    refine hother fallback? ((readLevel_eq_ok_iff args).mpr ⟨hlevels, fun p hp => ?_⟩)
    rcases hfits with hset | ⟨ls', hlevels', hall⟩
    · exact .inr (haccepted.mpr hset)
    · cases hlevels.symm.trans hlevels'
      exact .inl (hall p hp)

theorem isSome_dataDirectory {args : List String} {plain : Invocation}
    (h : parse args none = .ok plain) (hall : NamesDirectoryEverywhere args) :
    plain.dataDirectory.isSome = true := by
  obtain ⟨ls, hlevels, hne, hdirectory, -⟩ := parse_eq_ok h
  obtain ⟨ls', hlevels', hhas⟩ := hall
  cases hlevels.symm.trans hlevels'
  rw [hdirectory, Option.or_none]
  exact Levels.isSome_value? hne hhas

/-! ## The settings of a command -/

/-- What the first place says that says anything. -/
def firstGiven {α : Type} (places : List (Option α)) (otherwise : α) : α :=
  (places.findSome? id).getD otherwise

theorem firstGiven_cons {α : Type} (place : Option α) (places : List (Option α)) (otherwise : α) :
    firstGiven (place :: places) otherwise = place.getD (firstGiven places otherwise) := by
  cases place <;> rfl

/-- Without the option the directory has four places where it can be given. -/
theorem dataDirectory_eq_firstGiven (e : Environment) (configured : Option String) :
    e.dataDirectory configured =
      firstGiven [(e.get? Environment.dataVariable).filter (· ≠ ""), configured,
        (e.shared? "XDG_DATA_HOME" ".local/share").map (Path.join · Environment.programName)]
        ".clickflow" := by
  have hdefault : e.defaultDataDirectory =
      firstGiven [(e.shared? "XDG_DATA_HOME" ".local/share").map
        (Path.join · Environment.programName)] ".clickflow" := by
    unfold Environment.defaultDataDirectory
    cases e.shared? "XDG_DATA_HOME" ".local/share" <;> rfl
  rw [firstGiven_cons, firstGiven_cons, ← hdefault]
  rfl

/-- A section of the configuration in force is that of the project, or else that of the user. -/
theorem Surroundings.section_eq (s : Surroundings) {α : Type} {part? : Config → Option α}
    (hmerge : ∀ a b : Config, part? (a.merge b) = (part? b).or (part? a))
    (hempty : part? .empty = none) :
    part? s.config.config =
      ((LoadedConfig.layer? s.files LoadedConfig.projectFile).bind part?).or
        ((s.environment.configPath?.bind (LoadedConfig.layer? s.files)).bind part?) := by
  have hconfig : s.config.config = _ :=
    congrArg LoadedConfig.config (LoadedConfig.load_eq s.environment.configPath? _ s.files)
  rw [hconfig, Config.foldl_merge hmerge, hempty, Option.or_none]
  unfold LoadedConfig.layerPaths
  cases hproject : LoadedConfig.layer? s.files LoadedConfig.projectFile with
  | none =>
    cases s.environment.configPath? with
    | none => simp [hproject]
    | some path => cases hpath : LoadedConfig.layer? s.files path <;> simp [hproject, hpath]
  | some c =>
    cases s.environment.configPath? with
    | none => simp [hproject]
    | some path =>
      cases hpath : LoadedConfig.layer? s.files path with
      | none => simp [hproject, hpath]
      | some d => cases hpart : part? c <;> simp [hproject, hpath, hpart]

/-- **Where the settings of a command come from.** A variable that is set to nothing has no say in
the configuration; on the command line it is refused, unless the option stands at every level. What
is begun has the directory for data of the option, or of the variable, or of the layers, the upper
one first, or of the platform; its document and its store lie in one place there. The pause and the
mode are those of the command line, or of the layers. -/
theorem settings_of_command (args : List String) (s : Surroundings) :
    let e := s.environment
    let given := e.get? Environment.dataVariable
    let user := e.configPath?.bind (LoadedConfig.layer? s.files)
    let project := LoadedConfig.layer? s.files LoadedConfig.projectFile
    let engine := (project.bind (·.engine)).or (user.bind (·.engine))
    let paths := (project.bind (·.paths)).or (user.bind (·.paths))
    let platform :=
      (e.shared? "XDG_DATA_HOME" ".local/share").map (Path.join · Environment.programName)
    (∀ configured, given = some "" → e.dataDirectory configured =
      (e.unset Environment.dataVariable).dataDirectory configured) ∧
    (∀ plain, parse args none = .ok plain →
      ((∃ i, parse args given = .ok i) ↔ given ≠ some "" ∨ NamesDirectoryEverywhere args)) ∧
    ∀ i, parse args given = .ok i → ∃ plain, parse args none = .ok plain ∧
      i = { plain with dataDirectory := plain.dataDirectory.or given } ∧
      let c := Context.resolve i e s.config.config
      c.dataDirectory =
        firstGiven [plain.dataDirectory, given.filter (· ≠ ""), paths.bind (·.dataDirectory),
          platform] ".clickflow" ∧
      c.settings.pacing = firstGiven [plain.pacing, engine.map (·.pacing)] 300 ∧
      (c.settings.mode = .strict ↔
        plain.strictStorage = true ∨ engine.map (·.mode) = some .strict) ∧
      (c.workflowPath = Path.join c.dataDirectory "workflow.json" ∧
        c.storagePath = Path.join c.dataDirectory "storage.json") ∧
      ∀ (t : FileTree) p q, t.Reaches c.workflowPath p → t.Reaches c.storagePath q →
        ∃ above, p = "workflow.json" :: above ∧ q = "storage.json" :: above := by
  intro e given user project engine paths platform
  have hengine : s.config.config.engine = engine := s.section_eq (fun _ _ => rfl) rfl
  have hpaths : s.config.config.paths = paths := s.section_eq (fun _ _ => rfl) rfl
  refine ⟨fun configured hempty => e.dataDirectory_of_empty hempty configured, ?_, ?_⟩
  · intro plain hplain
    constructor
    · rintro ⟨i, h⟩
      obtain ⟨-, -, hfits, -⟩ := parse_eq_ok_iff.mp h
      exact hfits
    · intro hfits
      exact ⟨_, parse_eq_ok_iff.mpr ⟨plain, hplain, hfits, rfl⟩⟩
  · intro i h
    obtain ⟨plain, hplain, hfits, rfl⟩ := parse_eq_ok_iff.mp h
    refine ⟨plain, hplain, rfl, ?_, ?_, ?_, ⟨rfl, rfl⟩, ?_⟩
    · show (plain.dataDirectory.or given).getD (e.dataDirectory s.config.config.dataDirectory?) = _
      have hconfigured : s.config.config.dataDirectory? = paths.bind (·.dataDirectory) := by
        unfold Config.dataDirectory?
        rw [hpaths]
        cases paths <;> rfl
      rw [firstGiven_cons, dataDirectory_eq_firstGiven, hconfigured]
      cases hflag : plain.dataDirectory with
      | some directory => rfl
      | none =>
        rw [Option.none_or]
        cases hgiven : given with
        | none => rw [show e.get? Environment.dataVariable = none from hgiven]
        | some value =>
          -- An empty value has come this far only with the option in front of it.
          have hvalue : value ≠ "" := by
            rintro rfl
            rcases hfits with hset | hall
            · exact hset hgiven
            · have hsome := isSome_dataDirectory hplain hall
              rw [hflag] at hsome
              cases hsome
          simp [firstGiven_cons, Option.filter_some, hvalue]
    · show plain.pacing.getD s.config.config.settings.pacing = _
      unfold Config.settings
      rw [hengine, firstGiven_cons]
      cases engine <;> rfl
    · show (if plain.strictStorage then StorageMode.strict else s.config.config.settings.mode) =
        .strict ↔ _
      unfold Config.settings
      rw [hengine]
      cases plain.strictStorage with
      | true => simp
      | false => cases engine <;> simp [Settings.default]
    · intro t p q hp hq
      exact FileTree.reaches_join_join isName_workflow isName_storage hp hq

/-- **A variable that is set to nothing is not always the same as one that is not set**: it keeps
the catalog from being listed. -/
theorem actions_of_emptyVariable :
    let home := ("HOME", "/home/u")
    let within (bindings : List (String × String)) : Surroundings :=
      ⟨⟨bindings, none⟩, ⟨[], ["u", "home"]⟩, ⟨0⟩, .ofSeed 0, [], true⟩
    let empty := within [home, (Environment.dataVariable, "")]
    empty.environment.unset Environment.dataVariable = (within [home]).environment ∧
      (execute ["actions"] empty).exit = 2 ∧
      (execute ["actions"] (within [home])).exit = 0 := by
  decide +kernel

end CommandLine
end TriggerFlow
