import TriggerFlow.FileTree

/-!
# Where names lead

Names are followed through directories, and only the last place may be something else. So a path
goes on leading where it did **as long as the directories stay directories**, and what is written at
its end is found again by everyone who follows it. Writing turns no directory into a file, so it
moves no path at all.
-/

set_option autoImplicit false

namespace TriggerFlow
namespace FileTree

/-- Names lead from a place to a place through directories. -/
inductive Leads (t : FileTree) : Place → List String → Place → Prop where
  | nowhere (place : Place) : Leads t place [] place
  | onward {place next last : Place} {name : String} {names : List String}
      (directory : t.at? place = some .directory) (steps : step place name = .ok next)
      (others : Leads t next names last) : Leads t place (name :: names) last

/-- What stands at a place, as it is told of a path that leads there. -/
def foundAt (t : FileTree) (place : Place) : Found :=
  match t.at? place with
  | some node => .present place node
  | none => .vacant place

theorem follow_eq_ok_iff {t : FileTree} {names : List String} {found : Found} :
    ∀ {place : Place}, t.follow place names = .ok found ↔
      ∃ last, t.Leads place names last ∧ found = t.foundAt last := by
  induction names with
  | nil =>
    intro place
    constructor
    · intro h
      refine ⟨place, .nowhere place, ?_⟩
      unfold follow at h
      unfold foundAt
      cases hnode : t.at? place <;> rw [hnode] at h <;> exact (Except.ok.inj h).symm
    · rintro ⟨last, hleads, rfl⟩
      cases hleads
      unfold follow foundAt
      cases t.at? place <;> rfl
  | cons name names ih =>
    intro place
    constructor
    · intro h
      unfold follow at h
      split at h
      · cases h
      · cases h
      · rename_i hdirectory
        split at h
        · cases h
        · rename_i next hstep
          obtain ⟨last, hleads, hfound⟩ := ih.mp h
          exact ⟨last, .onward hdirectory hstep hleads, hfound⟩
    · rintro ⟨last, hleads, hfound⟩
      cases hleads with
      | onward hdirectory hstep hothers =>
        unfold follow
        rw [hdirectory]
        dsimp only
        rw [hstep]
        exact ih.mpr ⟨last, hothers, hfound⟩

theorem foundAt_eq_present_iff {t : FileTree} {last place : Place} {node : FileNode} :
    t.foundAt last = .present place node ↔ last = place ∧ t.at? last = some node := by
  unfold foundAt
  cases t.at? last <;> simp

theorem foundAt_eq_vacant_iff {t : FileTree} {last place : Place} :
    t.foundAt last = .vacant place ↔ last = place ∧ t.at? last = none := by
  unfold foundAt
  cases t.at? last <;> simp

theorem follow_eq_present_iff {t : FileTree} {start place : Place} {names : List String}
    {node : FileNode} :
    t.follow start names = .ok (.present place node) ↔
      t.Leads start names place ∧ t.at? place = some node := by
  rw [follow_eq_ok_iff]
  constructor
  · rintro ⟨last, hleads, hfound⟩
    obtain ⟨rfl, hnode⟩ := foundAt_eq_present_iff.mp hfound.symm
    exact ⟨hleads, hnode⟩
  · rintro ⟨hleads, hnode⟩
    exact ⟨place, hleads, (foundAt_eq_present_iff.mpr ⟨rfl, hnode⟩).symm⟩

theorem follow_eq_vacant_iff {t : FileTree} {start place : Place} {names : List String} :
    t.follow start names = .ok (.vacant place) ↔
      t.Leads start names place ∧ t.at? place = none := by
  rw [follow_eq_ok_iff]
  constructor
  · rintro ⟨last, hleads, hfound⟩
    obtain ⟨rfl, hnode⟩ := foundAt_eq_vacant_iff.mp hfound.symm
    exact ⟨hleads, hnode⟩
  · rintro ⟨hleads, hnode⟩
    exact ⟨place, hleads, (foundAt_eq_vacant_iff.mpr ⟨rfl, hnode⟩).symm⟩

theorem at?_root (t : FileTree) : t.at? [] = some .directory := by
  simp [at?]

/-- What the directories of one tree lead to, those of a tree that has them too do. -/
theorem Leads.mono {t t' : FileTree}
    (hdirectories : ∀ place, t.at? place = some .directory → t'.at? place = some .directory)
    {place last : Place} {names : List String} (h : t.Leads place names last) :
    t'.Leads place names last := by
  induction h with
  | nowhere place => exact .nowhere place
  | onward directory steps others ih => exact .onward (hdirectories _ directory) steps ih

theorem Leads.split {t : FileTree} {more : List String} {last : Place} :
    ∀ {names : List String} {place : Place}, t.Leads place (names ++ more) last →
      ∃ middle, t.Leads place names middle ∧ t.Leads middle more last := by
  intro names
  induction names with
  | nil =>
    intro place h
    exact ⟨place, .nowhere place, h⟩
  | cons name names ih =>
    intro place h
    cases h with
    | onward directory steps others =>
      obtain ⟨middle, hfirst, hrest⟩ := ih others
      exact ⟨middle, .onward directory steps hfirst, hrest⟩

theorem Leads.trans {t : FileTree} {names more : List String} {place middle last : Place}
    (h : t.Leads place names middle) (h' : t.Leads middle more last) :
    t.Leads place (names ++ more) last := by
  induction h with
  | nowhere place => exact h'
  | onward directory steps others ih => exact .onward directory steps (ih h')

/-- Names lead to one place. -/
theorem Leads.unique {t : FileTree} {names : List String} {place last last' : Place}
    (h : t.Leads place names last) (h' : t.Leads place names last') : last = last' := by
  induction h with
  | nowhere place =>
    cases h'
    rfl
  | onward directory steps others ih =>
    cases h' with
    | onward directory' steps' others' =>
      cases steps.symm.trans steps'
      exact ih others'

/-- Putting a file where no directory is leaves the directories. -/
theorem at?_put_directory {t : FileTree} {place : Place} (hplace : t.at? place ≠ some .directory)
    (node : FileNode) {other : Place} (hother : t.at? other = some .directory) :
    (t.put place node).at? other = some .directory := by
  have hne : other ≠ place := by
    rintro rfl
    exact hplace hother
  rw [at?_put_of_ne t node hne, hother]

theorem ne_root_of_not_directory {t : FileTree} {place : Place}
    (h : t.at? place ≠ some .directory) : place ≠ [] := by
  rintro rfl
  exact h t.at?_root

/-! ## Paths -/

/-- A path leads to a place, whatever stands there. -/
def Reaches (t : FileTree) (path : String) (place : Place) : Prop :=
  ∃ start names, t.route path = .ok (start, names) ∧ t.Leads start names place

theorem names_of_route {t : FileTree} {path : String} {start : Place} {names : List String}
    (h : t.route path = .ok (start, names)) :
    start = (if Path.isAbsolute path then [] else t.here) ∧
      names = (Path.pieces path).filter (· ≠ "") := by
  unfold route at h
  split at h
  · cases h
  · split at h
    · cases h
    · split at h
      · cases h
      · obtain ⟨hstart, hnames⟩ := Prod.mk.inj (Except.ok.inj h)
        exact ⟨hstart.symm, hnames.symm⟩

theorem Reaches.unique {t : FileTree} {path : String} {place other : Place}
    (h : t.Reaches path place) (h' : t.Reaches path other) : place = other := by
  obtain ⟨start, names, hroute, hleads⟩ := h
  obtain ⟨start', names', hroute', hleads'⟩ := h'
  cases hroute.symm.trans hroute'
  exact hleads.unique hleads'

/-! ## Writing -/

@[simp] theorem here_put (place : Place) (node : FileNode) (t : FileTree) :
    (t.put place node).here = t.here := rfl

theorem route_of_here_eq {t t' : FileTree} (h : t'.here = t.here) (path : String) :
    t'.route path = t.route path := by
  unfold route
  rw [h]

/-- **What a write comes to**: a file at the place that the path leads to, where there was none or
an older one. -/
theorem write_eq_ok {path : String} {content : FileContent} {t t' : FileTree}
    (h : t.write path content = .ok t') :
    Path.endsOpen path = false ∧
      ∃ start names place, t.route path = .ok (start, names) ∧ t.Leads start names place ∧
        t.at? place ≠ some .directory ∧ t' = t.put place (.file content) := by
  unfold write at h
  split at h
  · cases h
  · rename_i start names hroute
    cases hopen : Path.endsOpen path with
    | true =>
      simp only [hopen, if_true] at h
      split at h <;> cases h
    | false =>
      refine ⟨rfl, start, names, ?_⟩
      simp only [hopen, if_false, Bool.false_eq_true] at h
      split at h
      · cases h
      · cases h
      · rename_i place old hfollow
        obtain ⟨hleads, hnode⟩ := follow_eq_present_iff.mp hfollow
        exact ⟨place, hroute, hleads, by rw [hnode]; simp, (Except.ok.inj h).symm⟩
      · rename_i place hfollow
        obtain ⟨hleads, hnode⟩ := follow_eq_vacant_iff.mp hfollow
        exact ⟨place, hroute, hleads, by rw [hnode]; simp, (Except.ok.inj h).symm⟩

/-- A path that leads to no directory can be written. -/
theorem write_of_leads {path : String} {t : FileTree} (hopen : Path.endsOpen path = false)
    {start place : Place} {names : List String} (hroute : t.route path = .ok (start, names))
    (hleads : t.Leads start names place) (hplace : t.at? place ≠ some .directory)
    (content : FileContent) : t.write path content = .ok (t.put place (.file content)) := by
  have hfollow : t.follow start names = .ok (t.foundAt place) :=
    follow_eq_ok_iff.mpr ⟨place, hleads, rfl⟩
  unfold write
  rw [hroute]
  simp only [hopen, if_false, Bool.false_eq_true]
  rw [hfollow]
  unfold foundAt
  cases hnode : t.at? place with
  | none => rfl
  | some node =>
    cases node with
    | directory => exact absurd hnode hplace
    | file old => rfl

/-! ## Reading -/

theorem find_eq_file_iff {path : String} {t : FileTree} {content : FileContent} :
    t.find path = .ok (.file content) ↔
      Path.endsOpen path = false ∧ ∃ start names place, t.route path = .ok (start, names) ∧
        t.Leads start names place ∧ t.at? place = some (.file content) := by
  unfold find locate
  cases hroute : t.route path with
  | error e => simp
  | ok found =>
    obtain ⟨start, names⟩ := found
    dsimp only
    constructor
    · intro h
      cases hfollow : t.follow start names with
      | error e =>
        rw [hfollow] at h
        cases h
      | ok found =>
        rw [hfollow] at h
        cases found with
        | vacant place => cases h
        | present place node =>
          cases node with
          | directory => cases h
          | file old =>
            dsimp only at h
            split at h
            · cases h
            · rename_i hopen
              cases h
              obtain ⟨hleads, hfile⟩ := follow_eq_present_iff.mp hfollow
              exact ⟨eq_false_of_ne_true hopen, start, names, place, rfl, hleads, hfile⟩
    · rintro ⟨hopen, start', names', place, heq, hleads, hfile⟩
      cases heq
      rw [follow_eq_present_iff.mpr ⟨hleads, hfile⟩]
      simp [hopen]

theorem read_eq_ok_iff {path text : String} {t : FileTree} :
    t.read path = .ok text ↔ t.find path = .ok (.file (.text text)) := by
  unfold read
  constructor
  · intro h
    split at h
    · cases h
    · cases h
    · rename_i hfind
      rw [hfind, Except.ok.inj h]
    · cases h
  · intro h
    rw [h]

/-- What was put at the end of a path is found there. -/
theorem find_put_of_leads {path : String} {t : FileTree} (hopen : Path.endsOpen path = false)
    {start place : Place} {names : List String} (hroute : t.route path = .ok (start, names))
    (hleads : t.Leads start names place) (hplace : t.at? place ≠ some .directory)
    (content : FileContent) :
    (t.put place (.file content)).find path = .ok (.file content) := by
  refine find_eq_file_iff.mpr ⟨hopen, start, names, place, ?_, ?_, ?_⟩
  · rw [route_of_here_eq (here_put place _ t), hroute]
  · exact hleads.mono fun _ => at?_put_directory hplace _
  · exact at?_put_self t _ (ne_root_of_not_directory hplace)

end FileTree
end TriggerFlow
