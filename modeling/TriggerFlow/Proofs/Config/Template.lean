import TriggerFlow.Config.Template
import TriggerFlow.Proofs.Config.Layers
import TriggerFlow.Proofs.FileTree.Growing
import TriggerFlow.Proofs.Text.Loops

/-!
# What writing the template leaves alone

Whether something stands at the path is asked before the directories on its way are made. So the
template takes the place of nothing **as long as the path leads to the same place before and
after**, and that is so wherever it does not go up from a directory that is still missing. A path
that does may lead to a file only once that directory is there, and then the file is lost.
-/

set_option autoImplicit false

namespace TriggerFlow

namespace FileTree

/-- One file is new or has a new content, at the place that a path leads to, and the directories
that were missing on the way of the path are there. -/
structure HasGained (t t' : FileTree) (path : String) (place : Place) (content : FileContent) :
    Prop where
  here : t'.here = t.here
  reached : t'.Reaches path place
  file : t'.at? place = some (.file content)
  others : ∀ other, other ≠ place → t'.at? other = t.at? other ∨
    t.at? other = none ∧ t'.at? other = some .directory ∧
      t'.IsAlong (t.startOf path) (Path.names path) other

end FileTree

namespace Config

variable {t t' : FileTree} {path : String}

/-- What the template says is what holds without it. -/
theorem parse_template :
    Config.parse template = .ok ⟨some .default, none, some .default⟩ :=
  Text.eq_ok_of_toOption (by decide +kernel)

theorem writeTemplate_eq_false_iff :
    (writeTemplate path t).1 = .ok false ↔ t.exists? path = true := by
  unfold writeTemplate
  split
  · simp [*]
  · rename_i hexists
    simp only [hexists]
    split
    · simp
    · split <;> simp

theorem writeTemplate_of_exists (h : t.exists? path = true) :
    writeTemplate path t = (.ok false, t) := by
  unfold writeTemplate
  rw [if_pos h]

/-- **What writing the template comes to**: directories, and the file. -/
theorem writeTemplate_eq_true (h : writeTemplate path t = (.ok true, t')) :
    t.exists? path = false ∧ ∃ t₁, t.makeParent path = (.ok (), t₁) ∧
      t₁.write path (.text template) = .ok t' := by
  unfold writeTemplate at h
  split at h
  · cases h
  · rename_i hexists
    refine ⟨Bool.eq_false_iff.mpr hexists, ?_⟩
    split at h
    · cases h
    · rename_i t₁ hparent
      split at h
      · rename_i written hwrite
        cases h
        exact ⟨t₁, hparent, hwrite⟩
      · cases h

theorem growsAlong_of_writeTemplate_error {f : ConfigFailure}
    (h : writeTemplate path t = (.error f, t')) :
    FileTree.GrowsAlong (t.startOf path) (Path.names path) t t' := by
  have hgrows := FileTree.growsAlong_makeParent path t
  unfold writeTemplate at h
  split at h
  · cases h
  · split at h <;> rename_i hparent <;> rw [hparent] at hgrows
    · cases h
      exact hgrows
    · split at h
      · cases h
      · cases h
        exact hgrows

/-- The template is found where it was written. -/
theorem find_of_writeTemplate (h : writeTemplate path t = (.ok true, t')) :
    t'.find path = .ok (.file (.text template)) := by
  obtain ⟨-, t₁, -, hwrite⟩ := writeTemplate_eq_true h
  obtain ⟨hopen, start, names, place, hroute, hleads, hplace, rfl⟩ := FileTree.write_eq_ok hwrite
  exact FileTree.find_put_of_leads hopen hroute hleads hplace _

theorem hasGained_of_writeTemplate (h : writeTemplate path t = (.ok true, t')) :
    ∃ place, t.HasGained t' path place (.text template) ∧
      (t.IsConnected → t.ClimbsWithin path → t.at? place = none) := by
  obtain ⟨hexists, t₁, hparent, hwrite⟩ := writeTemplate_eq_true h
  have hgrows := FileTree.growsAlong_makeParent path t
  rw [hparent] at hgrows
  obtain ⟨hopen, start, names, place, hroute, hleads, hplace, rfl⟩ := FileTree.write_eq_ok hwrite
  have hdirectories : ∀ q, t₁.at? q = some .directory →
      (t₁.put place (.file (.text template))).at? q = some .directory :=
    fun q hq => FileTree.at?_put_directory hplace _ hq
  have hkept : ∀ q, q ≠ place →
      (t₁.put place (.file (.text template))).at? q = t₁.at? q :=
    fun q hq => FileTree.at?_put_of_ne t₁ _ hq
  refine ⟨place, ⟨hgrows.here, ⟨start, names, ?_, hleads.mono hdirectories⟩,
    FileTree.at?_put_self t₁ _ (FileTree.ne_root_of_not_directory hplace), ?_⟩, ?_⟩
  · rw [FileTree.route_of_here_eq (FileTree.here_put place _ t₁), hroute]
  · intro other hother
    rw [hkept other hother]
    exact (hgrows.places other).imp_right fun ⟨hvacant, hdirectory, first, hfirst, halong⟩ =>
      ⟨hvacant, hdirectory, first, hfirst, halong.mono hdirectories⟩
  · intro hconnected hclimbs
    have hroute' : t.route path = .ok (start, names) := by
      rw [← FileTree.route_of_here_eq hgrows.here, hroute]
    obtain ⟨rfl, rfl⟩ := FileTree.names_of_route hroute'
    -- The path led to this place before, or nothing stood there.
    rcases FileTree.leads_or_vacant hconnected hgrows.grows hclimbs (List.nil_append _).symm
        (.nowhere _) (.inl (.nowhere _)) hleads with hbefore | hvacant
    · cases hnode : t.at? place with
      | none => rfl
      | some node =>
        have hthere : t.exists? path = true :=
          (FileTree.exists?_iff t path).mpr ⟨place, node, ⟨_, _, hroute', hbefore⟩, hnode,
            fun hends => by rw [hopen] at hends; cases hends⟩
        rw [hexists] at hthere
        cases hthere
    · exact hvacant

/-- The template contributes what holds without it. -/
theorem addLayer_of_writeTemplate (h : writeTemplate path t = (.ok true, t')) (l : LoadedConfig) :
    LoadedConfig.addLayer t' l path =
      { l with
        config := l.config.merge ⟨some .default, none, some .default⟩
        sources := l.sources ++ [⟨path, true⟩] } := by
  have hlayer : LoadedConfig.layer? t' path = some ⟨some .default, none, some .default⟩ :=
    LoadedConfig.layer?_eq_some_iff.mpr ⟨template, find_of_writeTemplate h, parse_template⟩
  have hwarning : LoadedConfig.warning? t' path = none := by
    cases hwarning : LoadedConfig.warning? t' path with
    | none => rfl
    | some warning =>
      have hbroken := LoadedConfig.isSome_warning?_iff.mp (Option.isSome_of_mem hwarning)
      rw [hlayer] at hbroken
      cases hbroken.2
  rw [LoadedConfig.addLayer_eq, hlayer, hwarning]
  simp

/-- **Writing the template destroys nothing that can be found by the path.** -/
theorem writeTemplate_spares (hconnected : t.IsConnected) (path : String) :
    ((writeTemplate path t).1 = .ok false ↔ ∃ place node, t.Reaches path place ∧
      t.at? place = some node ∧ (Path.endsOpen path = true → node = .directory)) ∧
    ((writeTemplate path t).1 = .ok false → (writeTemplate path t).2 = t) ∧
    (∀ t', writeTemplate path t = (.ok true, t') →
      (∃ place, t.HasGained t' path place (.text template) ∧
        (t.ClimbsWithin path → t.at? place = none)) ∧
      writeTemplate path t' = (.ok false, t') ∧
      ∀ l, LoadedConfig.addLayer t' l path =
        { l with
          config := l.config.merge ⟨some .default, none, some .default⟩
          sources := l.sources ++ [⟨path, true⟩] }) ∧
    ∀ f t', writeTemplate path t = (.error f, t') →
      FileTree.GrowsAlong (t.startOf path) (Path.names path) t t' := by
  refine ⟨?_, ?_, ?_, fun f t' => growsAlong_of_writeTemplate_error⟩
  · rw [writeTemplate_eq_false_iff, FileTree.exists?_iff]
  · intro h
    rw [writeTemplate_of_exists (writeTemplate_eq_false_iff.mp h)]
  · intro t' h
    obtain ⟨place, hgained, hvacant⟩ := hasGained_of_writeTemplate h
    have hagain : t'.exists? path = true := by
      unfold FileTree.exists?
      rw [find_of_writeTemplate h]
    exact ⟨⟨place, hgained, hvacant hconnected⟩, writeTemplate_of_exists hagain,
      addLayer_of_writeTemplate h⟩

/-- The path goes up from a directory that is there, and on through one that is not. -/
theorem writeTemplate_spares_climbing :
    let t := (⟨[], []⟩ : FileTree).put ["home"] .directory
    let path := "home/../config/clickflow.toml"
    t.IsConnected ∧ t.ClimbsWithin path ∧ (writeTemplate path t).1 = .ok true ∧
      (∃ place, t.HasGained (writeTemplate path t).2 path place (.text template) ∧
        t.at? place = none) ∧
      (writeTemplate path (writeTemplate path t).2).1 = .ok false := by
  intro t path
  have hconnected : t.IsConnected := by
    intro name above node hnode
    by_cases hplace : name :: above = ["home"]
    · cases hplace
      rfl
    · rw [FileTree.at?_put_of_ne _ _ hplace] at hnode
      cases hnode
  have hclimbs : t.ClimbsWithin path := by
    intro before after hnames
    have hall : Path.names path = ["home"] ++ ".." :: ["config", "clickflow.toml"] := by
      decide +kernel
    have hhere : t.startOf path = [] := by decide +kernel
    have honly : ".." ∉ ["home"] ∧ ".." ∉ ["config", "clickflow.toml"] := by decide
    obtain ⟨rfl, -, -⟩ :=
      (List.append_cons_inj_of_notMem honly.1 honly.2).mp (hall.symm.trans hnames)
    rw [hhere]
    exact ⟨["home"], .onward rfl rfl (.nowhere _), rfl⟩
  have hok : (writeTemplate path t).1 = .ok true := Text.eq_ok_of_toOption (by decide +kernel)
  obtain ⟨-, -, htrue, -⟩ := writeTemplate_spares hconnected path
  obtain ⟨⟨place, hgained, hvacant⟩, hagain, -⟩ := htrue _ (Prod.ext hok rfl)
  exact ⟨hconnected, hclimbs, hok, ⟨place, hgained, hvacant hclimbs⟩, congrArg Prod.fst hagain⟩

/-- **A path that goes up from a missing directory can lose a file**: nothing was found by it, and
the file that it leads to holds the template. -/
theorem writeTemplate_overwrites :
    let t := (⟨[], []⟩ : FileTree).put ["h"] (.file (.text "mine"))
    (writeTemplate "d/../h" t).1.toOption = some true ∧
      t.at? ["h"] = some (.file (.text "mine")) ∧
      (writeTemplate "d/../h" t).2.at? ["h"] = some (.file (.text template)) :=
  ⟨by decide +kernel, rfl, by decide +kernel⟩

end Config
end TriggerFlow
