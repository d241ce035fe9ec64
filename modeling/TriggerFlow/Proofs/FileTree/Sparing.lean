import TriggerFlow.Proofs.FileTree.Growing
import TriggerFlow.Proofs.FileTree.Named

/-!
# Paths that are left alone

Directories and files are made for one purpose while a path is used for another. **A path whose
directory is there is left alone by whatever puts nothing at its end**: it leads where it led, so
the same is found there, and it can be written as before. Of what is made for a path the names are
known, and so are the places that are safe from it.
-/

set_option autoImplicit false

namespace TriggerFlow
namespace FileTree

variable {t t' : FileTree} {path : String} {place : Place}

/-- The same stands at a path, and it can be written if it could be. -/
structure Spares (path : String) (t t' : FileTree) : Prop where
  found : ∀ node, t'.find path = .ok node ↔ t.find path = .ok node
  writable : t.CanSave path → t'.CanSave path

theorem Spares.refl (path : String) (t : FileTree) : Spares path t t :=
  ⟨fun _ => Iff.rfl, id⟩

theorem Spares.readIfExists (h : Spares path t t') : t'.readIfExists path = t.readIfExists path := by
  cases hfind : t.find path with
  | ok node => exact readIfExists_of_find_eq (((h.found node).mpr hfind).trans hfind.symm)
  | error e =>
    cases hfind' : t'.find path with
    | ok node => cases hfind.symm.trans ((h.found node).mp hfind')
    | error e' => rw [readIfExists_of_error hfind, readIfExists_of_error hfind']

/-! ## Where the directory is there -/

/-- Nothing has to be made for a path that leads somewhere. -/
theorem makeParent_of_reaches (h : t.Reaches path place) : t.makeParent path = (.ok (), t) := by
  obtain ⟨start, names, hroute, hleads⟩ := h
  unfold makeParent
  cases hparent : Path.parent? path with
  | none => rfl
  | some parent =>
    by_cases hempty : parent = ""
    · rw [hempty]
      rfl
    · obtain ⟨first, more, hfirst, rfl, hmore⟩ := route_of_parent? hparent hempty hroute
      obtain ⟨middle, hbefore, hafter⟩ := hleads.split
      obtain ⟨name, rest, rfl⟩ := List.exists_cons_of_ne_nil hmore
      have hmiddle : t.at? middle = some .directory := by
        cases hafter with
        | onward directory steps others => exact directory
      have hmade : t.makeDirectories parent = (.ok (), t) := by
        unfold makeDirectories
        rw [hfirst]
        exact makeMissing_of_leads hbefore hmiddle
      simp only [hmade]

theorem canSave_iff_of_reaches (h : t.Reaches path place) :
    t.CanSave path ↔ Path.endsOpen path = false ∧ t.at? place ≠ some .directory := by
  have hparent := makeParent_of_reaches h
  constructor
  · rintro ⟨t', hsave⟩
    obtain ⟨t₁, hmade, -, hwrite⟩ := save_eq_ok hsave
    cases hparent.symm.trans hmade
    obtain ⟨hopen, start, names, other, hroute, hleads, hother, -⟩ := write_eq_ok hwrite
    rw [h.unique ⟨start, names, hroute, hleads⟩]
    exact ⟨hopen, hother⟩
  · rintro ⟨hopen, hplace⟩
    obtain ⟨start, names, hroute, hleads⟩ := h
    exact ⟨_, save_of_leads hparent hopen hroute hleads hplace ""⟩

theorem find_iff_of_reaches (h : t.Reaches path place) (node : FileNode) :
    t.find path = .ok node ↔
      t.at? place = some node ∧ (Path.endsOpen path = true → node = .directory) := by
  cases node with
  | directory =>
    rw [find_eq_directory_iff]
    constructor
    · rintro ⟨start, names, other, hroute, hleads, hother⟩
      rw [h.unique ⟨start, names, hroute, hleads⟩]
      exact ⟨hother, fun _ => rfl⟩
    · obtain ⟨start, names, hroute, hleads⟩ := h
      exact fun hplace => ⟨start, names, place, hroute, hleads, hplace.1⟩
  | file content =>
    rw [find_eq_file_iff]
    constructor
    · rintro ⟨hopen, start, names, other, hroute, hleads, hother⟩
      rw [h.unique ⟨start, names, hroute, hleads⟩]
      exact ⟨hother, fun hopen' => by cases hopen.symm.trans hopen'⟩
    · obtain ⟨start, names, hroute, hleads⟩ := h
      rintro ⟨hplace, hopen⟩
      refine ⟨Bool.eq_false_iff.mpr fun h => ?_, start, names, place, hroute, hleads, hplace⟩
      cases hopen h

/-- **A path is left alone where it leads somewhere** and the same stands there afterwards. -/
theorem spares_of_reaches (h : t.Reaches path place) (hhere : t'.here = t.here)
    (hdirectories : ∀ q, t.at? q = some .directory → t'.at? q = some .directory)
    (hsame : t'.at? place = t.at? place) : Spares path t t' := by
  have h' : t'.Reaches path place := by
    obtain ⟨start, names, hroute, hleads⟩ := h
    exact ⟨start, names, (route_of_here_eq hhere path).trans hroute, hleads.mono hdirectories⟩
  constructor
  · intro node
    rw [find_iff_of_reaches h, find_iff_of_reaches h', hsame]
  · rw [canSave_iff_of_reaches h, canSave_iff_of_reaches h', hsame]
    exact id

/-! ## The names of what is made -/

theorem IsConnected.put_directory (h : t.IsConnected) {name : String} {above : Place}
    (habove : t.at? above = some .directory) : (t.put (name :: above) .directory).IsConnected := by
  intro name' above' node hnode
  have hdirectory : ∀ q, t.at? q = some .directory →
      (t.put (name :: above) .directory).at? q = some .directory := by
    intro q hq
    by_cases hsame : q = name :: above
    · rw [hsame]
      exact at?_put_self t .directory (List.cons_ne_nil name above)
    · rw [at?_put_of_ne t .directory hsame, hq]
  by_cases hsame : name' :: above' = name :: above
  · cases hsame
    exact hdirectory _ habove
  · rw [at?_put_of_ne t .directory hsame] at hnode
    exact hdirectory _ (h name' above' node hnode)

/-- A step to where nothing stands goes down by a name. -/
theorem step_to_vacant (h : t.IsConnected) {name : String} {next : Place}
    (hplace : t.at? place = some .directory) (hstep : step place name = .ok next)
    (hnext : t.at? next = none) : next = name :: place := by
  unfold step at hstep
  split at hstep
  · cases hstep
    rw [hplace] at hnext
    cases hnext
  · split at hstep
    · -- What stands above a directory is a directory.
      cases hstep
      cases place with
      | nil =>
        rw [List.tail_nil, at?_root] at hnext
        cases hnext
      | cons last above =>
        rw [List.tail_cons, h last above _ hplace] at hnext
        cases hnext
    · split at hstep
      · cases hstep
      · exact (Except.ok.inj hstep).symm

theorem at?_makeEach_of_name (names : List String) :
    ∀ {t : FileTree} {place : Place}, t.IsConnected → t.at? place = some .directory →
      ∀ {q : Place}, (∀ name ∈ names, q.head? ≠ some name) →
        (t.makeEach place names).2.at? q = t.at? q := by
  induction names with
  | nil =>
    intro t place _ _ q _
    rfl
  | cons name names ih =>
    intro t place hconnected hplace q hq
    have hothers : ∀ other ∈ names, q.head? ≠ some other :=
      fun other hother => hq other (List.mem_cons_of_mem name hother)
    unfold makeEach
    split
    · rfl
    · rename_i next hstep
      split
      · rename_i hnext
        exact ih hconnected hnext hothers
      · rfl
      · rename_i hvacant
        obtain rfl := step_to_vacant hconnected hplace hstep hvacant
        have hne : q ≠ name :: place := by
          rintro rfl
          exact hq name List.mem_cons_self rfl
        rw [ih (hconnected.put_directory hplace)
          (at?_put_self t .directory (List.cons_ne_nil name place)) hothers,
          at?_put_of_ne t .directory hne]

theorem at?_makeMissing_of_name (names : List String) :
    ∀ {t : FileTree} {place : Place}, t.IsConnected →
      ∀ {q : Place}, (∀ name ∈ names, q.head? ≠ some name) →
        (t.makeMissing place names).2.at? q = t.at? q := by
  induction names with
  | nil =>
    intro t place _ q _
    unfold makeMissing
    split <;> rfl
  | cons name names ih =>
    intro t place hconnected q hq
    unfold makeMissing
    split
    · rfl
    · rfl
    · rename_i hplace
      split
      · rfl
      · split
        · exact at?_makeEach_of_name (name :: names) hconnected hplace hq
        · exact ih hconnected fun other hother => hq other (List.mem_cons_of_mem name hother)

/-- **The directories that are made for a path bear its names.** -/
theorem at?_makeParent_of_name (h : t.IsConnected) {q : Place}
    (hq : ∀ name ∈ Path.names path, q.head? ≠ some name) :
    (t.makeParent path).2.at? q = t.at? q := by
  unfold makeParent
  split
  · rfl
  · rfl
  · rename_i parent hne hparent
    have hmade : (t.makeDirectories parent).2.at? q = t.at? q := by
      unfold makeDirectories
      split
      · rfl
      · rename_i start names hroute
        obtain ⟨-, rfl⟩ := names_of_route hroute
        refine at?_makeMissing_of_name _ h fun name hname => hq name ?_
        exact (Path.names_of_parent? hparent hne).subset hname
    split <;> rename_i hresult <;> rw [hresult] at hmade <;> exact hmade

end FileTree
end TriggerFlow
