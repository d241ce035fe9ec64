import TriggerFlow.Proofs.FileTree.Failing

/-!
# Where a tree grows

The directories that are made for a path lie on its way, each where some of its first names lead.
**Nothing else is new**, whether all of them could be made or an obstacle was met.

A path that led to nothing can lead to something afterwards without being written: it may go through
a directory that was missing, and up again, to what stood beside it all the time. Where every `..`
of a path goes up from a directory that is there, this cannot happen, because nothing stands in a
directory that is missing.
-/

set_option autoImplicit false

namespace TriggerFlow

namespace Path

/-- The names that a path tells. -/
def names (path : String) : List String :=
  (pieces path).filter (· ≠ "")

theorem names_of_parent? {path parent : String} (h : parent? path = some parent)
    (hne : parent ≠ "") : names parent <+: names path := by
  obtain ⟨more, tail, hnames, -, -⟩ := pieces_of_parent? h hne
  exact ⟨more, hnames.symm⟩

end Path

namespace FileTree

/-- Where a path starts. -/
def startOf (t : FileTree) (path : String) : Place :=
  if Path.isAbsolute path then [] else t.here

/-- Some of the first names lead to a place. -/
def IsAlong (t : FileTree) (start : Place) (names : List String) (place : Place) : Prop :=
  ∃ first, first <+: names ∧ t.Leads start first place

/-- Directories have been made where nothing stood, on the way of some names. -/
structure GrowsAlong (start : Place) (names : List String) (t t' : FileTree) : Prop where
  here : t'.here = t.here
  places : ∀ place, t'.at? place = t.at? place ∨
    t.at? place = none ∧ t'.at? place = some .directory ∧ t'.IsAlong start names place

variable {start : Place} {names : List String} {t t' : FileTree}

theorem GrowsAlong.refl (start : Place) (names : List String) (t : FileTree) :
    GrowsAlong start names t t :=
  ⟨rfl, fun _ => .inl rfl⟩

theorem GrowsAlong.grows (h : GrowsAlong start names t t') : Grows t t' where
  here := h.here
  keeps place node hnode := by
    rcases h.places place with hsame | ⟨hvacant, -, -⟩
    · rw [hsame, hnode]
    · rw [hvacant] at hnode
      cases hnode
  adds place content hfile := by
    rcases h.places place with hsame | ⟨-, hdirectory, -⟩
    · rw [← hsame, hfile]
    · rw [hdirectory] at hfile
      cases hfile

/-- The way goes on. -/
theorem GrowsAlong.extend {more : List String} (h : GrowsAlong start names t t')
    (hmore : names <+: more) : GrowsAlong start more t t' where
  here := h.here
  places place := (h.places place).imp_right fun ⟨hvacant, hdirectory, first, hfirst, hleads⟩ =>
    ⟨hvacant, hdirectory, first, hfirst.trans hmore, hleads⟩

/-- The way has begun one name before. -/
theorem GrowsAlong.onward {place next : Place} {name : String} (h : GrowsAlong next names t t')
    (directory : t.at? place = some .directory) (steps : step place name = .ok next) :
    GrowsAlong place (name :: names) t t' where
  here := h.here
  places q := (h.places q).imp_right fun ⟨hvacant, hdirectory, first, hfirst, hleads⟩ =>
    ⟨hvacant, hdirectory, name :: first, List.cons_prefix_cons.mpr ⟨rfl, hfirst⟩,
      .onward (h.grows.keeps place _ directory) steps hleads⟩

theorem growsAlong_makeEach (names : List String) :
    ∀ {t : FileTree} {place : Place}, t.at? place = some .directory →
      GrowsAlong place names t (t.makeEach place names).2 := by
  induction names with
  | nil =>
    intro t place _
    exact .refl place [] t
  | cons name names ih =>
    intro t place hplace
    unfold makeEach
    split
    · exact .refl _ _ t
    · rename_i next hstep
      split
      · rename_i hnext
        exact (ih hnext).onward hplace hstep
      · exact .refl _ _ t
      · rename_i hvacant
        have hroot : next ≠ [] := ne_root_of_not_directory (by rw [hvacant]; simp)
        have hmade := at?_put_self t .directory hroot
        have hothers := ih hmade
        have hplace' : (t.put next .directory).at? place = some .directory :=
          at?_put_directory (by rw [hvacant]; simp) .directory hplace
        refine ⟨hothers.here, fun q => ?_⟩
        by_cases hq : q = next
        · -- The first directory that is made.
          subst hq
          have hkept := hothers.grows.keeps q _ hmade
          refine .inr ⟨hvacant, hkept, [name], List.cons_prefix_cons.mpr ⟨rfl, List.nil_prefix⟩, ?_⟩
          exact .onward (hothers.grows.keeps place _ hplace') hstep (.nowhere q)
        · have hsame := at?_put_of_ne t .directory hq
          rw [← hsame]
          exact (hothers.onward hplace' hstep).places q

theorem growsAlong_makeMissing (names : List String) :
    ∀ (t : FileTree) (place : Place),
      GrowsAlong place names t (t.makeMissing place names).2 := by
  induction names with
  | nil =>
    intro t place
    unfold makeMissing
    split <;> exact .refl place [] t
  | cons name names ih =>
    intro t place
    unfold makeMissing
    split
    · exact .refl _ _ t
    · exact .refl _ _ t
    · rename_i hplace
      split
      · exact .refl _ _ t
      · rename_i next hstep
        split
        · exact growsAlong_makeEach (name :: names) hplace
        · exact (ih t next).onward hplace hstep

/-- **What making the directory of a path adds**: directories on the way of the path. -/
theorem growsAlong_makeParent (path : String) (t : FileTree) :
    GrowsAlong (t.startOf path) (Path.names path) t (t.makeParent path).2 := by
  have hmade {parent : String} (hparent : Path.parent? path = some parent) (hne : parent ≠ "") :
      GrowsAlong (t.startOf path) (Path.names path) t (t.makeDirectories parent).2 := by
    unfold makeDirectories
    cases hroute : t.route parent with
    | error e => exact .refl _ _ t
    | ok found =>
      obtain ⟨start, names⟩ := found
      obtain ⟨rfl, rfl⟩ := names_of_route hroute
      rw [Path.isAbsolute_of_parent? hparent hne]
      exact (growsAlong_makeMissing _ t _).extend (Path.names_of_parent? hparent hne)
  unfold makeParent
  split
  · exact .refl _ _ t
  · exact .refl _ _ t
  · rename_i parent hne hparent
    have h := hmade hparent hne
    split <;> rename_i hresult <;> rw [hresult] at h <;> exact h

/-! ## What stands where nothing stood -/

/-- Whatever stands at a place stands in a directory. -/
def IsConnected (t : FileTree) : Prop :=
  ∀ name above node, t.at? (name :: above) = some node → t.at? above = some .directory

/-- Wherever the path goes up, it does so from a directory that is there. -/
def ClimbsWithin (t : FileTree) (path : String) : Prop :=
  ∀ before after, Path.names path = before ++ ".." :: after →
    ∃ place, t.Leads (t.startOf path) before place ∧ t.at? place = some .directory

/-- **A path leads where it led before, or to where nothing stood**, once directories have been
made. -/
theorem leads_or_vacant (hconnected : t.IsConnected) (hgrows : Grows t t') {rest : List String}
    (hclimbs : ∀ before after, names = before ++ ".." :: after →
      ∃ place, t.Leads start before place ∧ t.at? place = some .directory) :
    ∀ {before : List String} {place last : Place}, names = before ++ rest →
      t'.Leads start before place → (t.Leads start before place ∨ t.at? place = none) →
      t'.Leads place rest last → t.Leads start names last ∨ t.at? last = none := by
  have hdirectories : ∀ q, t.at? q = some .directory → t'.at? q = some .directory :=
    fun q hq => hgrows.keeps q .directory hq
  induction rest with
  | nil =>
    intro before place last hnames _ hplace hlast
    cases hlast
    rwa [hnames, List.append_nil]
  | cons name rest ih =>
    intro before place last hnames hbefore hplace hlast
    cases hlast with
    | @onward _ next _ _ _ directory steps others =>
      have hnames' : names = (before ++ [name]) ++ rest := by rw [hnames, List.append_assoc]; rfl
      have hnext : t'.Leads start (before ++ [name]) next :=
        hbefore.trans (.onward directory steps (.nowhere next))
      refine ih hnames' hnext ?_ others
      by_cases hstands : t.at? place = none
      · -- A step from where nothing stood goes nowhere, down to where nothing stood, or up.
        unfold step at steps
        split at steps
        · cases steps
          exact .inr hstands
        · split at steps
          · rename_i hup
            subst hup
            obtain ⟨q, hq, hdirectory⟩ := hclimbs before rest hnames
            obtain rfl := (hq.mono hdirectories).unique hbefore
            rw [hstands] at hdirectory
            cases hdirectory
          · split at steps
            · cases steps
            · cases steps
              refine .inr ?_
              cases hbelow : t.at? (name :: place) with
              | none => rfl
              | some node =>
                rw [hconnected name place node hbelow] at hstands
                cases hstands
      · obtain ⟨node, hnode⟩ := Option.ne_none_iff_exists'.mp hstands
        rw [hgrows.keeps place node hnode] at directory
        cases directory
        exact .inl ((hplace.resolve_right hstands).trans (.onward hnode steps (.nowhere next)))

/-! ## Whether something is there -/

/-- **Something is at a path** if the path leads there, and, if it ends with a separator, that is a
directory. -/
theorem exists?_iff (t : FileTree) (path : String) :
    t.exists? path = true ↔ ∃ place node, t.Reaches path place ∧ t.at? place = some node ∧
      (Path.endsOpen path = true → node = .directory) := by
  have hfind : t.exists? path = true ↔ ∃ node, t.find path = .ok node := by
    unfold exists?
    cases t.find path <;> simp
  rw [hfind]
  constructor
  · rintro ⟨node, hnode⟩
    obtain ⟨start, names, place, hroute, hleads, hplace⟩ := leads_of_find hnode
    refine ⟨place, node, ⟨start, names, hroute, hleads⟩, hplace, fun hopen => ?_⟩
    cases node with
    | directory => rfl
    | file content =>
      rw [(find_eq_file_iff.mp hnode).1] at hopen
      cases hopen
  · rintro ⟨place, node, ⟨start, names, hroute, hleads⟩, hplace, hopen⟩
    cases node with
    | directory => exact ⟨_, find_eq_directory_iff.mpr ⟨start, names, place, hroute, hleads, hplace⟩⟩
    | file content =>
      refine ⟨_, find_eq_file_iff.mpr ⟨?_, start, names, place, hroute, hleads, hplace⟩⟩
      exact Bool.eq_false_iff.mpr fun h => by cases hopen h

end FileTree
end TriggerFlow
