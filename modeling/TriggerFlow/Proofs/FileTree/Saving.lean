import TriggerFlow.FileTree.Saved
import TriggerFlow.Proofs.FileTree.Leads

/-!
# What saving does to files

To save is to make directories and then to write one file. Making directories only lets a tree grow:
**every file stays as it is and no file is added**, also where an obstacle stops it halfway. So a
save that fails has changed no file, one that succeeds has changed one, and what it has written is
what anyone reads who follows the same path.

A path that could be saved once can be saved again: its directories are there, and the file does not
stand in its own way.
-/

set_option autoImplicit false

namespace TriggerFlow
namespace FileTree

/-- A tree in which directories have been added where nothing stood. -/
structure Grows (t t' : FileTree) : Prop where
  here : t'.here = t.here
  keeps : ∀ place node, t.at? place = some node → t'.at? place = some node
  adds : ∀ place content, t'.at? place = some (.file content) → t.at? place = some (.file content)

theorem Grows.refl (t : FileTree) : Grows t t :=
  ⟨rfl, fun _ _ h => h, fun _ _ h => h⟩

theorem Grows.trans {t t' t'' : FileTree} (h : Grows t t') (h' : Grows t' t'') : Grows t t'' where
  here := h'.here.trans h.here
  keeps place node hnode := h'.keeps place node (h.keeps place node hnode)
  adds place content hnode := h.adds place content (h'.adds place content hnode)

/-- The files are the same, each with the same content. -/
theorem Grows.file_iff {t t' : FileTree} (h : Grows t t') (place : Place) (content : FileContent) :
    t'.at? place = some (.file content) ↔ t.at? place = some (.file content) :=
  ⟨h.adds place content, h.keeps place _⟩

theorem grows_put_directory {t : FileTree} {place : Place} (h : t.at? place = none) :
    Grows t (t.put place .directory) where
  here := rfl
  keeps := by
    intro other node hnode
    have hne : other ≠ place := by
      rintro rfl
      rw [h] at hnode
      cases hnode
    rw [at?_put_of_ne t .directory hne, hnode]
  adds := by
    intro other content hnode
    have hplace : place ≠ [] := ne_root_of_not_directory (by rw [h]; simp)
    by_cases hne : other = place
    · subst hne
      rw [at?_put_self t .directory hplace] at hnode
      cases hnode
    · rwa [at?_put_of_ne t .directory hne] at hnode

/-! ## Making directories -/

theorem grows_makeEach (names : List String) :
    ∀ (t : FileTree) (place : Place), Grows t (t.makeEach place names).2 := by
  induction names with
  | nil =>
    intro t place
    exact .refl t
  | cons name names ih =>
    intro t place
    unfold makeEach
    split
    · exact .refl t
    · rename_i next hstep
      split
      · exact ih t next
      · exact .refl t
      · rename_i hvacant
        exact (grows_put_directory hvacant).trans (ih _ next)

theorem grows_makeMissing (names : List String) :
    ∀ (t : FileTree) (place : Place), Grows t (t.makeMissing place names).2 := by
  induction names with
  | nil =>
    intro t place
    unfold makeMissing
    split <;> exact .refl t
  | cons name names ih =>
    intro t place
    unfold makeMissing
    split
    · exact .refl t
    · exact .refl t
    · split
      · exact .refl t
      · rename_i next hstep
        split
        · exact grows_makeEach (name :: names) t place
        · exact ih t next

theorem grows_makeDirectories (path : String) (t : FileTree) :
    Grows t (t.makeDirectories path).2 := by
  unfold makeDirectories
  split
  · exact .refl t
  · exact grows_makeMissing _ t _

theorem grows_makeParent (path : String) (t : FileTree) : Grows t (t.makeParent path).2 := by
  unfold makeParent
  split
  · exact .refl t
  · exact .refl t
  · rename_i parent _ _
    have h := grows_makeDirectories parent t
    split <;> rename_i hmade <;> rw [hmade] at h <;> exact h

/-- Directories that were made lead on to the last of them. -/
theorem leads_makeEach (names : List String) :
    ∀ {t t' : FileTree} {place : Place}, t.at? place = some .directory →
      t.makeEach place names = (.ok (), t') →
      ∃ last, t'.Leads place names last ∧ t'.at? last = some .directory := by
  induction names with
  | nil =>
    intro t t' place hplace h
    cases h
    exact ⟨place, .nowhere place, hplace⟩
  | cons name names ih =>
    intro t t' place hplace h
    have hgrows := grows_makeEach (name :: names) t place
    rw [h] at hgrows
    have hfirst : t'.at? place = some .directory := hgrows.keeps place _ hplace
    unfold makeEach at h
    split at h
    · cases h
    · rename_i next hstep
      split at h
      · rename_i hnext
        obtain ⟨last, hleads, hlast⟩ := ih hnext h
        exact ⟨last, .onward hfirst hstep hleads, hlast⟩
      · cases h
      · rename_i hvacant
        have hnext : next ≠ [] := ne_root_of_not_directory (by rw [hvacant]; simp)
        obtain ⟨last, hleads, hlast⟩ := ih (at?_put_self t .directory hnext) h
        exact ⟨last, .onward hfirst hstep hleads, hlast⟩

theorem leads_makeMissing (names : List String) :
    ∀ {t t' : FileTree} {place : Place}, t.makeMissing place names = (.ok (), t') →
      ∃ last, t'.Leads place names last ∧ t'.at? last = some .directory := by
  induction names with
  | nil =>
    intro t t' place h
    unfold makeMissing at h
    split at h
    · rename_i hplace
      cases h
      exact ⟨place, .nowhere place, hplace⟩
    · cases h
    · cases h
  | cons name names ih =>
    intro t t' place h
    have hgrows := grows_makeMissing (name :: names) t place
    rw [h] at hgrows
    unfold makeMissing at h
    split at h
    · cases h
    · cases h
    · rename_i hplace
      split at h
      · cases h
      · rename_i next hstep
        split at h
        · exact leads_makeEach (name :: names) hplace h
        · obtain ⟨last, hleads, hlast⟩ := ih h
          exact ⟨last, .onward (hgrows.keeps place _ hplace) hstep hleads, hlast⟩

theorem Leads.directory_first {t : FileTree} {place last : Place} {names : List String}
    (h : t.Leads place names last) (hlast : t.at? last = some .directory) :
    t.at? place = some .directory := by
  cases h with
  | nowhere => exact hlast
  | onward directory steps others => exact directory

/-- Where all directories are there, none is made. -/
theorem makeMissing_of_leads {t : FileTree} {place last : Place} {names : List String}
    (h : t.Leads place names last) (hlast : t.at? last = some .directory) :
    t.makeMissing place names = (.ok (), t) := by
  induction h with
  | nowhere place =>
    unfold makeMissing
    rw [hlast]
  | onward directory steps others ih =>
    have hnext := others.directory_first hlast
    unfold makeMissing
    rw [directory]
    dsimp only
    rw [steps]
    dsimp only
    rw [hnext]
    exact ih hlast

/-- A directory that has been made is there as long as the directories above it are. -/
theorem makeDirectories_again {path : String} {t t' t'' : FileTree}
    (h : t.makeDirectories path = (.ok (), t')) (hhere : t''.here = t'.here)
    (hdirectories : ∀ place, t'.at? place = some .directory → t''.at? place = some .directory) :
    t''.makeDirectories path = (.ok (), t'') := by
  have hgrows := grows_makeDirectories path t
  rw [h] at hgrows
  unfold makeDirectories at h ⊢
  rw [route_of_here_eq (hhere.trans hgrows.here)]
  split at h
  · cases h
  · rename_i start names hroute
    obtain ⟨last, hleads, hlast⟩ := leads_makeMissing names h
    exact makeMissing_of_leads (hleads.mono hdirectories) (hdirectories last hlast)

theorem makeParent_again {path : String} {t t' t'' : FileTree}
    (h : t.makeParent path = (.ok (), t')) (hhere : t''.here = t'.here)
    (hdirectories : ∀ place, t'.at? place = some .directory → t''.at? place = some .directory) :
    t''.makeParent path = (.ok (), t'') := by
  unfold makeParent at h ⊢
  cases hparent : Path.parent? path with
  | none => rfl
  | some parent =>
    rw [hparent] at h
    by_cases hempty : parent = ""
    · subst hempty
      rfl
    · simp only at h ⊢
      split at h
      · rename_i made hmade
        cases h
        rw [makeDirectories_again hmade hhere hdirectories]
      · cases h

/-! ## Saving -/

/-- **What a save comes to**: directories, and one file at the place that the path leads to. -/
theorem save_eq_ok {path text : String} {t t' : FileTree} (h : t.save path text = (.ok (), t')) :
    ∃ t₁, t.makeParent path = (.ok (), t₁) ∧ Grows t t₁ ∧ t₁.write path (.text text) = .ok t' := by
  have hgrows := grows_makeParent path t
  unfold save at h
  split at h
  · cases h
  · rename_i t₁ hparent
    rw [hparent] at hgrows
    split at h
    · rename_i written hwrite
      cases h
      exact ⟨t₁, hparent, hgrows, hwrite⟩
    · cases h

theorem grows_of_save_error {path text : String} {t t' : FileTree} {e : Failure}
    (h : t.save path text = (.error e, t')) : Grows t t' := by
  have hgrows := grows_makeParent path t
  unfold save at h
  split at h
  · rename_i directory obstacle t₁ hparent
    rw [hparent] at hgrows
    cases h
    exact hgrows
  · rename_i t₁ hparent
    rw [hparent] at hgrows
    split at h
    · cases h
    · cases h
      exact hgrows

/-- **What was saved is what is read** by the same path. -/
theorem find_of_save {path text : String} {t t' : FileTree} (h : t.save path text = (.ok (), t')) :
    t'.find path = .ok (.file (.text text)) := by
  obtain ⟨t₁, -, -, hwrite⟩ := save_eq_ok h
  obtain ⟨hopen, start, names, place, hroute, hleads, hplace, rfl⟩ := write_eq_ok hwrite
  exact find_put_of_leads hopen hroute hleads hplace _

theorem readIfExists_of_find {path text : String} {t : FileTree}
    (h : t.find path = .ok (.file (.text text))) : t.readIfExists path = .ok (some text) := by
  unfold readIfExists exists? read
  rw [h]
  rfl

/-- What is saved where the directories could be made and no directory stands in the way. -/
theorem save_of_leads {path : String} {t t₁ : FileTree} (hparent : t.makeParent path = (.ok (), t₁))
    (hopen : Path.endsOpen path = false) {start place : Place} {names : List String}
    (hroute : t₁.route path = .ok (start, names)) (hleads : t₁.Leads start names place)
    (hplace : t₁.at? place ≠ some .directory) (text : String) :
    t.save path text = (.ok (), t₁.put place (.file (.text text))) := by
  unfold save
  rw [hparent]
  dsimp only
  rw [write_of_leads hopen hroute hleads hplace]

/-- **A path that could be saved once can be saved again**, whatever the texts are. -/
theorem save_again {path text : String} {t t' : FileTree} (h : t.save path text = (.ok (), t'))
    (other : String) : ∃ t'', t'.save path other = (.ok (), t'') := by
  obtain ⟨t₁, hparent, -, hwrite⟩ := save_eq_ok h
  obtain ⟨hopen, start, names, place, hroute, hleads, hplace, rfl⟩ := write_eq_ok hwrite
  have hdirectories : ∀ q, t₁.at? q = some .directory →
      (t₁.put place (.file (.text text))).at? q = some .directory :=
    fun q => at?_put_directory hplace _
  have hroute' : (t₁.put place (.file (.text text))).route path = .ok (start, names) := by
    rw [route_of_here_eq (here_put place _ t₁), hroute]
  -- What stands at the place is a file now, which a second write replaces.
  have hfile := at?_put_self t₁ (.file (.text text)) (ne_root_of_not_directory hplace)
  exact ⟨_, save_of_leads (makeParent_again hparent (here_put place _ t₁) hdirectories) hopen
    hroute' (hleads.mono hdirectories) (by rw [hfile]; simp) other⟩

/-- Whether a path can be saved does not depend on the text. -/
theorem save_other_text {path text : String} {t t' : FileTree}
    (h : t.save path text = (.ok (), t')) (other : String) :
    ∃ t'', t.save path other = (.ok (), t'') := by
  obtain ⟨t₁, hparent, -, hwrite⟩ := save_eq_ok h
  obtain ⟨hopen, start, names, place, hroute, hleads, hplace, -⟩ := write_eq_ok hwrite
  exact ⟨_, save_of_leads hparent hopen hroute hleads hplace other⟩

/-- Some text can be saved at a path, and then any text can. -/
def CanSave (path : String) (t : FileTree) : Prop :=
  ∃ t', t.save path "" = (.ok (), t')

theorem canSave_iff_toBool {path : String} {t : FileTree} :
    t.CanSave path ↔ (t.save path "").1.toBool = true := by
  unfold CanSave
  cases hsave : t.save path "" with
  | mk result t' => cases result <;> simp [Except.toBool]

instance (path : String) (t : FileTree) : Decidable (t.CanSave path) :=
  decidable_of_iff _ canSave_iff_toBool.symm

theorem CanSave.save {path : String} {t : FileTree} (h : t.CanSave path) (text : String) :
    ∃ t', t.save path text = (.ok (), t') ∧ t'.CanSave path := by
  obtain ⟨t₁, hfirst⟩ := h
  obtain ⟨t', hsave⟩ := save_other_text hfirst text
  exact ⟨t', hsave, save_again hsave ""⟩

end FileTree
end TriggerFlow
