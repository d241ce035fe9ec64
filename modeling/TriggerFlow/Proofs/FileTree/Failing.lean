import TriggerFlow.Proofs.FileTree.Named

/-!
# What a save that fails leaves

A save fails where the directory of its file cannot be made or where a directory stands in the place
of the file. It may have made directories before it met the obstacle. **Nobody reads anything else
by the same path afterwards**, with one exception: a path that goes up again may go through a
directory that was missing, and once that one is made it may lead to a directory, where it led to
nothing. Then there was nothing to read, and now reading fails.

What keeps the path from leading to a file is that the path of the directory is the beginning of the
path of the file, so whoever follows the one meets every obstacle that was met in the other.
-/

set_option autoImplicit false

namespace TriggerFlow

/-! ## The directory that a path stands in -/

namespace Path

theorem not_mem_of_mem_splitAt {separator : Char} {cs : List Char} :
    ∀ piece ∈ splitAt separator cs, separator ∉ piece := by
  induction cs with
  | nil => simp [splitAt]
  | cons c cs ih =>
    rw [splitAt]
    split
    · simpa using ih
    · rename_i hc
      split
      · simpa using Ne.symm hc
      · rename_i first rest hsplit
        rw [hsplit] at ih
        simpa [Ne.symm hc] using ih

theorem intercalate_splitAt (separator : Char) (cs : List Char) :
    [separator].intercalate (splitAt separator cs) = cs := by
  induction cs with
  | nil => rfl
  | cons c cs ih =>
    rw [splitAt]
    cases hsplit : splitAt separator cs with
    | nil => exact absurd hsplit (splitAt_ne_nil separator cs)
    | cons first rest =>
      rw [hsplit] at ih
      split
      · rename_i hc
        rw [List.intercalate_cons_cons, ih, hc]
        rfl
      · cases rest with
        | nil => simpa using ih
        | cons second rest =>
          rw [List.intercalate_cons_cons] at ih ⊢
          simpa using ih

theorem splitAt_intercalate {separator : Char} (first : List Char) {rest : List (List Char)}
    (h : ∀ piece ∈ first :: rest, separator ∉ piece) :
    splitAt separator ([separator].intercalate (first :: rest)) = first :: rest := by
  induction rest generalizing first with
  | nil =>
    rw [List.intercalate_singleton]
    exact splitAt_of_not_mem (h first List.mem_cons_self)
  | cons second rest ih =>
    obtain ⟨hfirst, hrest⟩ := List.forall_mem_cons.mp h
    rw [List.intercalate_cons_cons, List.append_assoc, List.singleton_append, splitAt_append,
      splitAt_of_not_mem hfirst, ih second hrest]
    rfl

theorem intercalate_pieces (path : String) : "/".intercalate (pieces path) = path := by
  apply String.toList_injective
  rw [String.toList_intercalate, pieces, List.map_map]
  have hchars : String.toList ∘ String.ofList = id := funext fun cs => String.toList_ofList
  rw [hchars, List.map_id]
  exact intercalate_splitAt '/' path.toList

theorem pieces_intercalate (path : String) {first : String} {rest : List String}
    (h : ∀ piece ∈ first :: rest, piece ∈ pieces path) :
    pieces ("/".intercalate (first :: rest)) = first :: rest := by
  have hwhole : ∀ piece ∈ first.toList :: rest.map String.toList, '/' ∉ piece := by
    rw [← List.map_cons, List.forall_mem_map]
    intro piece hpiece
    obtain ⟨cs, hcs, rfl⟩ := List.mem_map.mp (h piece hpiece)
    rw [String.toList_ofList]
    exact not_mem_of_mem_splitAt cs hcs
  rw [pieces, String.toList_intercalate, List.map_cons]
  show (splitAt '/' (['/'].intercalate _)).map String.ofList = _
  rw [splitAt_intercalate _ hwhole, List.map_cons, List.map_map]
  simp [Function.comp_def]

theorem intercalate_append (first : String) (pieces : List String) {second : String}
    {more : List String} :
    "/".intercalate (first :: pieces ++ second :: more) =
      "/".intercalate (first :: pieces) ++ "/" ++ "/".intercalate (second :: more) := by
  induction pieces generalizing first with
  | nil => simp
  | cons third pieces ih =>
    have htail := ih third
    simp only [List.cons_append] at htail ⊢
    rw [String.intercalate_cons_cons, htail, String.intercalate_cons_cons]
    simp only [String.append_assoc]

theorem dropIdle_prefix (pieces : List String) : dropIdle pieces <+: pieces := by
  have h := List.dropWhile_suffix (l := pieces.reverse) isIdle
  rw [← List.reverse_prefix, List.reverse_reverse] at h
  exact h

theorem isIdle_of_getLast?_dropIdle {pieces : List String} {last : String}
    (h : (dropIdle pieces).getLast? = some last) : isIdle last = false := by
  unfold dropIdle at h
  rw [List.getLast?_reverse] at h
  have hnot := List.head?_dropWhile_not isIdle pieces.reverse
  rw [h] at hnot
  exact hnot

/-- Pieces that do not all lead nowhere begin with those of the directory, and others follow. -/
theorem dropIdle_dropLast {rest : List String} (h : dropIdle rest ≠ []) :
    ∃ more, rest = dropIdle (dropIdle rest).dropLast ++ more ∧ more.filter (· ≠ "") ≠ [] := by
  obtain ⟨last, hlast⟩ : ∃ last, (dropIdle rest).getLast? = some last :=
    ⟨_, List.getLast?_eq_some_getLast h⟩
  obtain ⟨named, hnamed⟩ := List.getLast?_eq_some_iff.mp hlast
  obtain ⟨after, hafter⟩ := dropIdle_prefix rest
  obtain ⟨between, hbetween⟩ := dropIdle_prefix named
  refine ⟨between ++ last :: after, ?_, ?_⟩
  · rw [hnamed] at hafter
    rw [hnamed, List.dropLast_concat, ← List.append_assoc, hbetween, List.append_cons, hafter]
  · intro hnone
    have hname := isIdle_of_getLast?_dropIdle hlast
    have hblank : last = "" := by simpa using List.filter_eq_nil_iff.mp hnone last (by simp)
    rw [hblank] at hname
    exact absurd hname (by decide)

/-- **A path goes on where its directory ends**, by one name at least. -/
theorem pieces_of_parent? {path parent : String} (h : parent? path = some parent)
    (hne : parent ≠ "") :
    ∃ more tail, (pieces path).filter (· ≠ "") = (pieces parent).filter (· ≠ "") ++ more ∧
      more ≠ [] ∧ path = parent ++ tail := by
  unfold parent? at h
  cases hpieces : pieces path with
  | nil =>
    rw [hpieces] at h
    cases h
  | cons first rest =>
    rw [hpieces] at h
    dsimp only at h
    cases hnamed : dropIdle rest with
    | nil =>
      rw [hnamed] at h
      dsimp only at h
      split at h
      · cases h
      · cases h
        exact absurd rfl hne
    | cons name names =>
      obtain ⟨more, hrest, hmore⟩ := dropIdle_dropLast (by rw [hnamed]; simp)
      rw [hnamed] at h hrest
      generalize habove : dropIdle (name :: names).dropLast = above at hrest
      have hsome : more ≠ [] := by
        rintro rfl
        exact hmore rfl
      obtain ⟨second, others, rfl⟩ := List.exists_cons_of_ne_nil hsome
      have hall : pieces path = first :: above ++ second :: others := by
        rw [hpieces, hrest]
        rfl
      have hpath : path =
          "/".intercalate (first :: above) ++ "/" ++ "/".intercalate (second :: others) := by
        rw [← intercalate_append, ← hall, intercalate_pieces]
      refine ⟨(second :: others).filter (· ≠ ""), ?_⟩
      rw [← hpieces, hall, List.filter_append]
      dsimp only at h
      split at h
      · -- The directory is the root.
        rename_i hroot
        rw [habove] at hroot
        cases h
        cases hroot
        refine ⟨"/".intercalate (second :: others), rfl, hmore, ?_⟩
        rw [hpath]
        simp
      · cases h
        subst habove
        rw [pieces_intercalate path]
        · exact ⟨_, rfl, hmore, by rw [← String.append_assoc, ← hpath]⟩
        · intro piece hpiece
          rw [hall]
          exact List.mem_append_left _ hpiece

theorem isAbsolute_of_parent? {path parent : String} (h : parent? path = some parent)
    (hne : parent ≠ "") : isAbsolute parent = isAbsolute path := by
  obtain ⟨more, tail, -, -, rfl⟩ := pieces_of_parent? h hne
  obtain ⟨c, cs, hcs⟩ := List.exists_cons_of_ne_nil (mt String.toList_eq_nil_iff.mp hne)
  unfold isAbsolute
  rw [String.toList_append, hcs]
  rfl

end Path

namespace FileTree

/-! ## What was met once is met again -/

/-- **Directories that could not be made do not lead anywhere** afterwards: what kept them from
being made is still in the way. -/
theorem not_leads_of_makeEach_error {e : Obstacle} (names : List String) :
    ∀ {t t' : FileTree} {place : Place}, t.makeEach place names = (.error e, t') →
      ∀ last, t'.Leads place names last → t'.at? last ≠ some .directory := by
  induction names with
  | nil =>
    intro t t' place h
    cases h
  | cons name names ih =>
    intro t t' place h last hleads hlast
    cases hleads with
    | onward directory steps others =>
      unfold makeEach at h
      rw [steps] at h
      dsimp only at h
      split at h
      · exact ih h last others hlast
      · rename_i hfile
        cases h
        rw [others.directory_first hlast] at hfile
        cases hfile
      · exact ih h last others hlast

theorem not_leads_of_makeMissing_error {e : Obstacle} (names : List String) :
    ∀ {t t' : FileTree} {place : Place}, t.makeMissing place names = (.error e, t') →
      ∀ last, t'.Leads place names last → t'.at? last ≠ some .directory := by
  induction names with
  | nil =>
    intro t t' place h last hleads hlast
    cases hleads
    unfold makeMissing at h
    split at h <;> rename_i hplace <;> cases h <;> rw [hplace] at hlast <;> cases hlast
  | cons name names ih =>
    intro t t' place h last hleads hlast
    have hwhole := hleads
    cases hleads with
    | onward directory steps others =>
      unfold makeMissing at h
      split at h
      · rename_i hplace
        cases h
        rw [directory] at hplace
        cases hplace
      · rename_i hplace
        cases h
        rw [directory] at hplace
        cases hplace
      · rw [steps] at h
        dsimp only at h
        split at h
        · exact not_leads_of_makeEach_error (name :: names) h last hwhole hlast
        · exact ih h last others hlast

/-- Whoever follows a path passes through the directory that it stands in. -/
theorem route_of_parent? {path parent : String} (hparent : Path.parent? path = some parent)
    (hne : parent ≠ "") {t : FileTree} {start : Place} {names : List String}
    (hroute : t.route path = .ok (start, names)) :
    ∃ first more, t.route parent = .ok (start, first) ∧ names = first ++ more ∧ more ≠ [] := by
  obtain ⟨more, tail, hnames, hmore, hpath⟩ := Path.pieces_of_parent? hparent hne
  have hlist : path.toList = parent.toList ++ tail.toList := by
    rw [hpath, String.toList_append]
  have habsolute := Path.isAbsolute_of_parent? hparent hne
  have hsize : parent.utf8ByteSize ≤ path.utf8ByteSize := by
    rw [hpath, String.utf8ByteSize_append]
    exact Nat.le_add_right _ _
  refine ⟨(Path.pieces parent).filter (· ≠ ""), more, ?_⟩
  unfold route at hroute ⊢
  split at hroute
  · cases hroute
  · rename_i hzero
    have hzero' : ¬ parent.toList.contains '\x00' = true := by
      rw [hlist] at hzero
      simp only [List.contains_eq_mem, List.mem_append, decide_eq_true_eq, not_or] at hzero ⊢
      exact hzero.1
    split at hroute
    · cases hroute
    · split at hroute
      · cases hroute
      · rename_i hlong
        obtain ⟨hstart, rfl⟩ := Prod.mk.inj (Except.ok.inj hroute)
        rw [if_neg hzero', if_neg hne, if_neg (by omega), habsolute, hstart]
        exact ⟨rfl, hnames, hmore⟩

theorem leads_of_find {path : String} {t : FileTree} {node : FileNode}
    (h : t.find path = .ok node) :
    ∃ start names place, t.route path = .ok (start, names) ∧ t.Leads start names place ∧
      t.at? place = some node := by
  unfold find locate at h
  cases hroute : t.route path with
  | error e =>
    rw [hroute] at h
    cases h
  | ok found =>
    obtain ⟨start, names⟩ := found
    rw [hroute] at h
    dsimp only at h
    cases hfollow : t.follow start names with
    | error e =>
      rw [hfollow] at h
      cases h
    | ok found =>
      rw [hfollow] at h
      cases found with
      | vacant place => cases h
      | present place other =>
        obtain ⟨hleads, hnode⟩ := follow_eq_present_iff.mp hfollow
        refine ⟨start, names, place, rfl, hleads, ?_⟩
        cases other with
        | directory => exact hnode.trans (congrArg some (Except.ok.inj h))
        | file content =>
          dsimp only at h
          split at h
          · cases h
          · exact hnode.trans (congrArg some (Except.ok.inj h))

theorem find_eq_directory_iff {path : String} {t : FileTree} :
    t.find path = .ok .directory ↔
      ∃ start names place, t.route path = .ok (start, names) ∧ t.Leads start names place ∧
        t.at? place = some .directory := by
  refine ⟨leads_of_find, ?_⟩
  rintro ⟨start, names, place, hroute, hleads, hplace⟩
  unfold find locate
  rw [hroute]
  dsimp only
  rw [follow_eq_present_iff.mpr ⟨hleads, hplace⟩]

/-- What a path leads to, it leads to in a tree that has grown. -/
theorem Grows.find {path : String} {t t' : FileTree} {node : FileNode} (h : Grows t t')
    (hfind : t.find path = .ok node) : t'.find path = .ok node := by
  have hkept : ∀ place, t.at? place = some .directory → t'.at? place = some .directory :=
    fun place hplace => h.keeps place .directory hplace
  cases node with
  | directory =>
    obtain ⟨start, names, place, hroute, hleads, hplace⟩ := find_eq_directory_iff.mp hfind
    exact find_eq_directory_iff.mpr ⟨start, names, place,
      (route_of_here_eq h.here path).trans hroute, hleads.mono hkept, hkept place hplace⟩
  | file content =>
    obtain ⟨hopen, start, names, place, hroute, hleads, hplace⟩ := find_eq_file_iff.mp hfind
    exact find_eq_file_iff.mpr ⟨hopen, start, names, place,
      (route_of_here_eq h.here path).trans hroute, hleads.mono hkept, h.keeps place _ hplace⟩

/-! ## A save that fails -/

/-- A path leads to nothing as long as the directory that it stands in cannot be made. -/
theorem find_of_makeParent_error {path : String} {t t' : FileTree} {e : String × Obstacle}
    (h : t.makeParent path = (.error e, t')) (node : FileNode) : t'.find path ≠ .ok node := by
  intro hfind
  obtain ⟨start, names, place, hroute, hleads, -⟩ := leads_of_find hfind
  unfold makeParent at h
  cases hparent : Path.parent? path with
  | none =>
    rw [hparent] at h
    cases h
  | some parent =>
    rw [hparent] at h
    by_cases hempty : parent = ""
    · subst hempty
      cases h
    · obtain ⟨first, more, hfirst, rfl, hmore⟩ := route_of_parent? hparent hempty hroute
      obtain ⟨middle, hbefore, hafter⟩ := hleads.split
      obtain ⟨name, rest, rfl⟩ := List.exists_cons_of_ne_nil hmore
      have hmiddle : t'.at? middle = some .directory := by
        cases hafter with
        | onward directory steps others => exact directory
      cases hmade : t.makeDirectories parent with
      | mk result made =>
        simp only [hmade] at h
        cases result with
        | ok => cases h
        | error obstacle =>
          cases h
          have hgrows := grows_makeDirectories parent t
          rw [hmade] at hgrows
          unfold makeDirectories at hmade
          rw [← route_of_here_eq hgrows.here, hfirst] at hmade
          exact not_leads_of_makeMissing_error first hmade middle hbefore hmiddle

/-- A directory is not written. -/
theorem write_of_directory {path : String} {t : FileTree} (h : t.find path = .ok .directory)
    (content : FileContent) : t.write path content = .error .isDirectory := by
  obtain ⟨start, names, place, hroute, hleads, hplace⟩ := find_eq_directory_iff.mp h
  have hfollow : ∀ isOpen : Bool, ∃ last,
      t.follow start (if isOpen then names.dropLast else names) = .ok (.present last .directory) := by
    intro isOpen
    cases isOpen with
    | false => exact ⟨place, follow_eq_present_iff.mpr ⟨hleads, hplace⟩⟩
    | true =>
      rcases List.eq_nil_or_concat names with rfl | ⟨before, name, rfl⟩
      · exact ⟨place, follow_eq_present_iff.mpr ⟨hleads, hplace⟩⟩
      · rw [List.concat_eq_append] at hleads ⊢
        obtain ⟨middle, hbefore, hafter⟩ := hleads.split
        refine ⟨middle, follow_eq_present_iff.mpr ⟨?_, ?_⟩⟩
        · rw [if_pos rfl, List.dropLast_concat]
          exact hbefore
        · cases hafter with
          | onward directory steps others => exact directory
  obtain ⟨last, hlast⟩ := hfollow (Path.endsOpen path)
  unfold write
  rw [hroute]
  dsimp only
  rw [hlast]

theorem readIfExists_of_error {path : String} {t : FileTree} {e : Obstacle}
    (h : t.find path = .error e) : t.readIfExists path = .ok none := by
  unfold readIfExists exists?
  rw [h]
  rfl

theorem readIfExists_of_directory {path : String} {t : FileTree}
    (h : t.find path = .ok .directory) :
    t.readIfExists path = .error (.unreadable path .isDirectory) := by
  unfold readIfExists exists? read
  rw [h]
  rfl

theorem readIfExists_of_find_eq {path : String} {t t' : FileTree}
    (h : t'.find path = t.find path) : t'.readIfExists path = t.readIfExists path := by
  unfold readIfExists exists? read
  rw [h]

/-- **What is read by a path after a save by it has failed**: what was read before, unless a
directory was made on the way that lets the path lead to a directory. -/
theorem readIfExists_of_save_error {path text : String} {t t' : FileTree} {e : Failure}
    (h : t.save path text = (.error e, t')) :
    t'.readIfExists path = t.readIfExists path ∨
      t.readIfExists path = .ok none ∧ t'.find path = .ok .directory ∧
        e = .unwritable path .isDirectory := by
  have hgrows := grows_of_save_error h
  cases hbefore : t.find path with
  | ok node => exact .inl (readIfExists_of_find_eq (by rw [hbefore, hgrows.find hbefore]))
  | error missing =>
    have hnothing := readIfExists_of_error hbefore
    cases hafter : t'.find path with
    | error still => exact .inl (by rw [hnothing, readIfExists_of_error hafter])
    | ok node =>
      -- The directory was made, so it is the write that has failed.
      unfold save at h
      split at h
      · rename_i hparent
        cases h
        exact absurd hafter (find_of_makeParent_error hparent node)
      · split at h
        · cases h
        · rename_i obstacle hwrite
          cases h
          cases node with
          | directory =>
            rw [write_of_directory hafter] at hwrite
            cases hwrite
            exact .inr ⟨hnothing, rfl, rfl⟩
          | file content =>
            obtain ⟨hopen, start, names, place, hroute, hleads, hplace⟩ :=
              find_eq_file_iff.mp hafter
            rw [write_of_leads hopen hroute hleads (by rw [hplace]; simp)] at hwrite
            cases hwrite

end FileTree
end TriggerFlow
