import TriggerFlow.Environment
import TriggerFlow.Proofs.FileTree.Saving

/-!
# Files by their names

The program writes files of a few names, each in a directory that someone else chooses. Wherever
that is, **a path that ends with a name leads to a file of that name or to nothing**: what a name is
joined to cannot take it apart again. So a file that is saved by such a path is not one that a path
with another name is read by, however the two directories are written.
-/

set_option autoImplicit false

namespace TriggerFlow

/-! ## Paths that end with a name -/

namespace Path

/-- A name that stands for itself in every directory. -/
structure IsName (name : String) : Prop where
  nonEmpty : name ≠ ""
  whole : '/' ∉ name.toList
  notHere : name ≠ "."
  notAbove : name ≠ ".."

/-- The last piece of a path is a name. -/
def EndsWith (path name : String) : Prop :=
  ∃ before, pieces path = before ++ [name]

theorem splitAt_ne_nil (separator : Char) (cs : List Char) : splitAt separator cs ≠ [] := by
  cases cs with
  | nil => exact List.cons_ne_nil _ _
  | cons c cs =>
    unfold splitAt
    split
    · exact List.cons_ne_nil _ _
    · split <;> exact List.cons_ne_nil _ _

theorem splitAt_of_not_mem {separator : Char} {cs : List Char} (h : separator ∉ cs) :
    splitAt separator cs = [cs] := by
  induction cs with
  | nil => rfl
  | cons c cs ih =>
    have hc : c ≠ separator := fun heq => h (heq ▸ List.mem_cons_self)
    rw [splitAt, if_neg hc, ih fun hmem => h (List.mem_cons_of_mem c hmem)]

theorem splitAt_append (separator : Char) (cs ds : List Char) :
    splitAt separator (cs ++ separator :: ds) = splitAt separator cs ++ splitAt separator ds := by
  induction cs with
  | nil => simp [splitAt]
  | cons c cs ih =>
    rw [List.cons_append, splitAt, splitAt, ih]
    split
    · rfl
    · cases hcs : splitAt separator cs with
      | nil => exact absurd hcs (splitAt_ne_nil separator cs)
      | cons piece pieces => rfl

theorem IsName.pieces_eq {name : String} (h : IsName name) : pieces name = [name] := by
  unfold pieces
  rw [splitAt_of_not_mem h.whole, List.map_singleton, String.ofList_toList]

theorem IsName.endsWith_self {name : String} (h : IsName name) : EndsWith name name :=
  ⟨[], h.pieces_eq⟩

/-- A name after a separator. -/
theorem IsName.endsWith_separated {name path : String} (h : IsName name) (cs : List Char)
    (hpath : path.toList = cs ++ '/' :: name.toList) : EndsWith path name := by
  refine ⟨(splitAt '/' cs).map String.ofList, ?_⟩
  rw [← h.pieces_eq, pieces, hpath, splitAt_append, List.map_append]
  rfl

theorem IsName.endsWith_join {name : String} (h : IsName name) (directory : String) :
    EndsWith (join directory name) name := by
  unfold join
  split
  · exact h.endsWith_self
  · split
    · rename_i hends
      rcases (Bool.or_eq_true _ _).mp hends with hempty | hopen
      · rw [of_decide_eq_true hempty, String.empty_append]
        exact h.endsWith_self
      · obtain ⟨cs, hcs⟩ := List.getLast?_eq_some_iff.mp (of_decide_eq_true hopen)
        refine h.endsWith_separated cs ?_
        rw [String.toList_append, hcs, List.append_assoc, List.singleton_append]
    · refine h.endsWith_separated directory.toList ?_
      simp

end Path

namespace FileTree

/-- A name at the end leads to a place of that name. -/
theorem Leads.of_name {t : FileTree} {name : String} (hname : Path.IsName name)
    {start place : Place} {names : List String} (h : t.Leads start (names ++ [name]) place) :
    ∃ above, place = name :: above ∧ t.Leads start names above := by
  obtain ⟨above, hbefore, hlast⟩ := h.split
  refine ⟨above, ?_, hbefore⟩
  cases hlast with
  | onward directory steps others =>
    cases others
    unfold step at steps
    rw [if_neg hname.notHere, if_neg hname.notAbove] at steps
    split at steps
    · cases steps
    · cases steps
      rfl

/-- **A path that ends with a name leads to a place of that name.** -/
theorem head?_of_leads {t : FileTree} {path name : String} (hname : Path.IsName name)
    (hpath : Path.EndsWith path name) {start place : Place} {names : List String}
    (hroute : t.route path = .ok (start, names)) (hleads : t.Leads start names place) :
    place.head? = some name := by
  obtain ⟨before, hpieces⟩ := hpath
  obtain ⟨-, rfl⟩ := names_of_route hroute
  have hnames : (before ++ [name]).filter (· ≠ "") = before.filter (· ≠ "") ++ [name] := by
    simp [List.filter_append, hname.nonEmpty]
  rw [hpieces, hnames] at hleads
  obtain ⟨above, rfl, -⟩ := hleads.of_name hname
  rfl

/-! ## Keeping the files of a name -/

/-- The directories are still there, and the files with a certain name are the same. -/
structure Keeps (name : String) (t t' : FileTree) : Prop where
  here : t'.here = t.here
  directories : ∀ place, t.at? place = some .directory → t'.at? place = some .directory
  files : ∀ place content, place.head? = some name →
    (t'.at? place = some (.file content) ↔ t.at? place = some (.file content))

theorem Keeps.refl (name : String) (t : FileTree) : Keeps name t t :=
  ⟨rfl, fun _ h => h, fun _ _ _ => Iff.rfl⟩

theorem Keeps.trans {name : String} {t t' t'' : FileTree} (h : Keeps name t t')
    (h' : Keeps name t' t'') : Keeps name t t'' where
  here := h'.here.trans h.here
  directories place hplace := h'.directories place (h.directories place hplace)
  files place content hplace := (h'.files place content hplace).trans (h.files place content hplace)

theorem Grows.keeps_name {t t' : FileTree} (h : Grows t t') (name : String) : Keeps name t t' where
  here := h.here
  directories place hplace := h.keeps place .directory hplace
  files place content _ := h.file_iff place content

/-- What is written by a path with one name keeps the files with any other name. -/
theorem keeps_write {t t' : FileTree} {path name other : String} (hname : Path.IsName name)
    (hpath : Path.EndsWith path name) (hother : other ≠ name) {content : FileContent}
    (h : t.write path content = .ok t') : Keeps other t t' := by
  obtain ⟨-, start, names, place, hroute, hleads, hplace, rfl⟩ := write_eq_ok h
  have hhead := head?_of_leads hname hpath hroute hleads
  refine ⟨rfl, fun q => at?_put_directory hplace _, fun q old hq => ?_⟩
  -- The one file that was written has another name.
  have hne : q ≠ place := by
    rintro rfl
    rw [hhead] at hq
    exact hother (Option.some.inj hq).symm
  rw [at?_put_of_ne t _ hne]

/-- **A save by a path with one name keeps the files with any other name**, also where it fails. -/
theorem keeps_save {path name other : String} (hname : Path.IsName name)
    (hpath : Path.EndsWith path name) (hother : other ≠ name) (text : String) (t : FileTree) :
    Keeps other t (t.save path text).2 := by
  cases hsave : t.save path text with
  | mk result t' =>
    cases result with
    | ok =>
      obtain ⟨t₁, -, hgrows, hwrite⟩ := save_eq_ok hsave
      exact (hgrows.keeps_name other).trans (keeps_write hname hpath hother hwrite)
    | error e => exact (grows_of_save_error hsave).keeps_name other

/-- A file is read by every path with its name as long as the files with this name are kept. -/
theorem Keeps.read {name path text : String} {t t' : FileTree} (h : Keeps name t t')
    (hname : Path.IsName name) (hpath : Path.EndsWith path name) (hread : t.read path = .ok text) :
    t'.read path = .ok text := by
  rw [read_eq_ok_iff] at hread ⊢
  obtain ⟨hopen, start, names, place, hroute, hleads, hfile⟩ := find_eq_file_iff.mp hread
  have hhead := head?_of_leads hname hpath hroute hleads
  refine find_eq_file_iff.mpr ⟨hopen, start, names, place, ?_, hleads.mono h.directories, ?_⟩
  · rw [route_of_here_eq h.here, hroute]
  · exact (h.files place _ hhead).mpr hfile

end FileTree
end TriggerFlow
