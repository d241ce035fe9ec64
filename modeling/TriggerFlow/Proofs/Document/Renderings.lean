import Mathlib.Data.List.Forall2
import TriggerFlow.Document.Codec
import TriggerFlow.Proofs.Json.Members
import TriggerFlow.Proofs.Json.Printed

/-!
# Every rendering of a document

A document may be saved by others, with its members in any order, with blanks and escapes of their
own and with members that this program knows nothing of. **All that matters are the values of the
known keys**: where they are what they have to be, the document is read, and where one of them is
missing, of another kind or there twice, nothing is.
-/

set_option autoImplicit false

namespace TriggerFlow

open Json

/-! ## Actions -/

namespace Action

/-- The components of an action. -/
def components : List (Component Partial) :=
  [⟨"id", String, Tree.text?, (·.id), fun p s => { p with id := some s }⟩,
    ⟨"type", String, Tree.text?, (·.kind), fun p s => { p with kind := some s }⟩,
    ⟨"label", String, Tree.text?, (·.label), fun p s => { p with label := some s }⟩,
    ⟨"param", Option String, Tree.optionalText?, (·.param),
      fun p s => { p with param := some s }⟩]

theorem makeUp_components : Component.MakeUp components record where
  fields := by simp [components, record, Component.Matches]
  unique := by simp [components]
  get_set := by simp [components]
  get_set_of_ne := by simp [components]
  ext := by
    rintro ⟨id, kind, label, param⟩ ⟨id', kind', label', param'⟩
    simp [components]

def ofTree (t : Tree) : Option Action :=
  (record.ofTree (Component.decode components) t).map Partial.complete

theorem agrees_read : Agrees read ofTree := by
  refine (Record.agrees_read fun field hfield p => ?_).map Partial.complete
  simp only [record, List.mem_cons, List.not_mem_nil, or_false] at hfield
  rcases hfield with rfl | rfl | rfl | rfl
  · exact agrees_string.map fun s => { p with id := some s }
  · exact agrees_string.map fun s => { p with kind := some s }
  · exact agrees_string.map fun s => { p with label := some s }
  · exact agrees_optional.map fun s => { p with param := some s }

theorem ofMembers_eq_some_iff {members : List (Option String × Tree)} {p q : Partial} :
    record.ofMembers (Component.decode components) p members = some q ↔
      (∀ m ∈ members, m.1.isSome = true) ∧
      (Slot Tree.text? (valuesOf "id" members) p.id q.id ∧
        Slot Tree.text? (valuesOf "type" members) p.kind q.kind ∧
        Slot Tree.text? (valuesOf "label" members) p.label q.label ∧
        Slot Tree.optionalText? (valuesOf "param" members) p.param q.param) ∧
      q.id.isSome = true ∧ q.kind.isSome = true ∧ q.label.isSome = true := by
  rw [makeUp_components.ofMembers_eq_some_iff]
  simp [components, Record.missing?, record]

/-- **Members hold an action**: its id, its kind and its label are there once each, its parameter
once or, where there is none, not at all. Other members may be anything. -/
structure HeldBy (a : Action) (members : List (Option String × Tree)) : Prop where
  names : ∀ m ∈ members, m.1.isSome = true
  id : valuesOf "id" members = [.text (some a.id)]
  kind : valuesOf "type" members = [.text (some a.kind)]
  label : valuesOf "label" members = [.text (some a.label)]
  param : valuesOf "param" members = [.optional a.param] ∨
    a.param = none ∧ valuesOf "param" members = []

theorem ofTree_object_eq_some_iff {members : List (Option String × Tree)} {a : Action} :
    ofTree (.object members) = some a ↔ a.HeldBy members := by
  unfold ofTree
  rw [Option.map_eq_some_iff]
  simp only [Record.ofTree, ofMembers_eq_some_iff]
  constructor
  · rintro ⟨⟨id, kind, label, param⟩, ⟨names, ⟨hid, hkind, hlabel, hparam⟩, isId, isKind, isLabel⟩,
      rfl⟩
    obtain ⟨id, rfl⟩ := Option.isSome_iff_exists.mp isId
    obtain ⟨kind, rfl⟩ := Option.isSome_iff_exists.mp isKind
    obtain ⟨label, rfl⟩ := Option.isSome_iff_exists.mp isLabel
    refine ⟨names, slot_text_iff.mp hid, slot_text_iff.mp hkind, slot_text_iff.mp hlabel, ?_⟩
    cases param with
    | none => exact .inr ⟨rfl, slot_none_none_iff.mp hparam⟩
    | some param => exact .inl (slot_optionalText_iff.mp hparam)
  · rintro ⟨names, hid, hkind, hlabel, hparam⟩
    obtain ⟨param, hparam, hdefault⟩ : ∃ param,
        Slot Tree.optionalText? (valuesOf "param" members) none param ∧
          param.getD none = a.param := by
      rcases hparam with hparam | ⟨hnone, hparam⟩
      · exact ⟨_, slot_optionalText_iff.mpr hparam, rfl⟩
      · exact ⟨none, slot_none_none_iff.mpr hparam, hnone.symm⟩
    refine ⟨⟨some a.id, some a.kind, some a.label, param⟩, ⟨names, ?_, rfl, rfl, rfl⟩, ?_⟩
    · exact ⟨slot_text_iff.mpr hid, slot_text_iff.mpr hkind, slot_text_iff.mpr hlabel, hparam⟩
    · rw [Partial.complete, hdefault]
      rfl

/-- What no action can be read from: a field that has to be there is missing or is no text, or a
field is there twice. -/
inductive Broken (members : List (Option String × Tree)) : Prop where
  | lacks {key : String} (required : key ∈ ["id", "type", "label"])
      (lacks : valuesOf key members = [])
  | mistyped {key : String} {t : Tree} (required : key ∈ ["id", "type", "label"])
      (has : t ∈ valuesOf key members) (mistyped : ∀ s, t ≠ .text s)
  | twice {key : String} (known : key ∈ ["id", "type", "label", "param"])
      (twice : 2 ≤ (valuesOf key members).length)

/-- A field that has to be there is there once, as a text. -/
theorem HeldBy.required {a : Action} {members : List (Option String × Tree)} {key : String}
    (h : a.HeldBy members) (hkey : key ∈ ["id", "type", "label"]) :
    ∃ s, valuesOf key members = [.text (some s)] := by
  simp only [List.mem_cons, List.not_mem_nil, or_false] at hkey
  rcases hkey with rfl | rfl | rfl
  · exact ⟨_, h.id⟩
  · exact ⟨_, h.kind⟩
  · exact ⟨_, h.label⟩

theorem Broken.not_heldBy {members : List (Option String × Tree)} (h : Broken members)
    (a : Action) : ¬ a.HeldBy members := by
  intro held
  cases h with
  | lacks required lacks =>
    obtain ⟨s, hs⟩ := held.required required
    rw [lacks] at hs
    cases hs
  | mistyped required has mistyped =>
    obtain ⟨s, hs⟩ := held.required required
    rw [hs, List.mem_singleton] at has
    exact mistyped _ has
  | @twice key known twice =>
    have hle : (valuesOf key members).length ≤ 1 := by
      by_cases hparam : key = "param"
      · subst hparam
        rcases held.param with hvalues | ⟨-, hvalues⟩ <;> simp [hvalues]
      · obtain ⟨s, hs⟩ := held.required (by simpa [hparam] using known)
        simp [hs]
    omega

end Action

/-! ## Documents -/

namespace Document

/-- The components of a document. -/
def components : List (Component Partial) :=
  [⟨"buttonLabel", String, Tree.text?, (·.label), fun p s => { p with label := some s }⟩,
    ⟨"actions", List Action, Tree.items? Action.ofTree, (·.actions),
      fun p as => { p with actions := some as }⟩]

theorem makeUp_components : Component.MakeUp components record where
  fields := by simp [components, record, Component.Matches]
  unique := by simp [components]
  get_set := by simp [components]
  get_set_of_ne := by simp [components]
  ext := by
    rintro ⟨label, actions⟩ ⟨label', actions'⟩
    simp [components]

def ofTree (t : Tree) : Option Document :=
  (record.ofTree (Component.decode components) t).map Partial.complete

theorem agrees_read : Agrees read ofTree := by
  refine (Record.agrees_read fun field hfield p => ?_).map Partial.complete
  simp only [record, List.mem_cons, List.not_mem_nil, or_false] at hfield
  rcases hfield with rfl | rfl
  · exact agrees_string.map fun s => { p with label := some s }
  · exact (agrees_list Action.agrees_read).map fun as => { p with actions := some as }

theorem ofMembers_eq_some_iff {members : List (Option String × Tree)} {p q : Partial} :
    record.ofMembers (Component.decode components) p members = some q ↔
      (∀ m ∈ members, m.1.isSome = true) ∧
      Slot Tree.text? (valuesOf "buttonLabel" members) p.label q.label ∧
      Slot (Tree.items? Action.ofTree) (valuesOf "actions" members) p.actions q.actions := by
  rw [makeUp_components.ofMembers_eq_some_iff]
  simp [components, Record.missing?, record]

/-- **Members hold a document**: its label is there once or, where it is empty, not at all, and so
are its actions, each of them an object that holds it. Other members may be anything. -/
structure HeldBy (d : Document) (members : List (Option String × Tree)) : Prop where
  names : ∀ m ∈ members, m.1.isSome = true
  label : valuesOf "buttonLabel" members = [.text (some d.label)] ∨
    d.label = "" ∧ valuesOf "buttonLabel" members = []
  actions : (∃ each : List (List (Option String × Tree)),
      valuesOf "actions" members = [.list (each.map .object)] ∧
        List.Forall₂ Action.HeldBy d.actions each) ∨
    d.actions = [] ∧ valuesOf "actions" members = []

/-- What no document can be read from: its label or its list of actions is of another kind or there
twice, or one of its actions is broken. -/
inductive Broken (members : List (Option String × Tree)) : Prop where
  | label {t : Tree} (has : t ∈ valuesOf "buttonLabel" members) (mistyped : ∀ s, t ≠ .text s)
  | actions {t : Tree} (has : t ∈ valuesOf "actions" members) (mistyped : ∀ items, t ≠ .list items)
  | twice {key : String} (known : key ∈ ["buttonLabel", "actions"])
      (twice : 2 ≤ (valuesOf key members).length)
  | action {items : List Tree} {each : List (Option String × Tree)}
      (has : .list items ∈ valuesOf "actions" members) (isItem : .object each ∈ items)
      (broken : Action.Broken each)

variable {members : List (Option String × Tree)}

theorem HeldBy.ofTree_eq {d : Document} (h : d.HeldBy members) :
    ofTree (.object members) = some d := by
  obtain ⟨names, hlabel, hactions⟩ := h
  -- A default is what the document has where nothing was read.
  obtain ⟨label, hlabel, hdefault⟩ : ∃ label,
      Slot Tree.text? (valuesOf "buttonLabel" members) none label ∧ label.getD "" = d.label := by
    rcases hlabel with hvalues | ⟨hempty, hvalues⟩
    · exact ⟨_, slot_text_iff.mpr hvalues, rfl⟩
    · exact ⟨none, slot_none_none_iff.mpr hvalues, hempty.symm⟩
  obtain ⟨actions, hactions, hdefault'⟩ : ∃ actions,
      Slot (Tree.items? Action.ofTree) (valuesOf "actions" members) none actions ∧
        actions.getD [] = d.actions := by
    rcases hactions with ⟨each, hvalues, heach⟩ | ⟨hempty, hvalues⟩
    · have hitems : (each.map Tree.object).mapM Action.ofTree = some d.actions := by
        rw [mapM_eq_some_iff, List.map_map, ← List.forall₂_eq_eq_eq, List.forall₂_map_left_iff,
          List.forall₂_map_right_iff]
        exact (heach.imp fun a ms ha => Action.ofTree_object_eq_some_iff.mpr ha).flip
      exact ⟨_, slot_none_some_iff.mpr ⟨_, hvalues, hitems⟩, rfl⟩
    · exact ⟨none, slot_none_none_iff.mpr hvalues, hempty.symm⟩
  have hmembers : record.ofMembers (Component.decode components) record.blank members =
      some ⟨label, actions⟩ :=
    ofMembers_eq_some_iff.mpr ⟨names, hlabel, hactions⟩
  rw [ofTree, Record.ofTree, hmembers, Option.map_some, Partial.complete, hdefault, hdefault']

theorem Broken.ofTree_eq (h : Broken members) : ofTree (.object members) = none := by
  rw [Option.eq_none_iff_forall_ne_some]
  intro d hd
  obtain ⟨q, hq, -⟩ := Option.map_eq_some_iff.mp hd
  obtain ⟨-, hlabel, hactions⟩ := ofMembers_eq_some_iff.mp hq
  cases h with
  | @label t has mistyped =>
    obtain ⟨s, hs⟩ := hlabel.decodes_of_mem has
    cases t with
    | text s => exact mistyped s rfl
    | null | bool | number | list | object => cases hs
  | @actions t has mistyped =>
    obtain ⟨as, has⟩ := hactions.decodes_of_mem has
    cases t with
    | list items => exact mistyped items rfl
    | null | bool | number | text | object => cases has
  | twice known twice =>
    have hlabel := hlabel.length_le
    have hactions := hactions.length_le
    simp only [List.mem_cons, List.not_mem_nil, or_false] at known
    rcases known with rfl | rfl <;> omega
  | @action items each has isItem broken =>
    obtain ⟨as, has⟩ := hactions.decodes_of_mem has
    have hitem : Action.ofTree (.object each) ∈ items.map Action.ofTree :=
      List.mem_map_of_mem isItem
    rw [mapM_eq_some_iff.mp has] at hitem
    obtain ⟨a, -, ha⟩ := List.mem_map.mp hitem
    exact broken.not_heldBy a (Action.ofTree_object_eq_some_iff.mp ha.symm)

/-- **A document is read from every text that holds it**, whatever the order of members, the blanks,
the escapes and the other members are, and nothing is read from a text with a broken one. -/
theorem reads_every_rendering {cs before after : List Char}
    (hwritten : (Tree.object members).Written cs) (hbefore : Blank before) (hafter : Blank after) :
    (∀ d : Document, d.HeldBy members →
      parse (String.ofList (before ++ (cs ++ after))) = .ok d) ∧
    (Broken members → ∃ e, parse (String.ofList (before ++ (cs ++ after))) = .error e) := by
  have hparse : (parse (String.ofList (before ++ (cs ++ after)))).toOption =
      ofTree (.object members) := agrees_read.readAll hwritten hbefore hafter
  constructor
  · intro d held
    exact Text.eq_ok_of_toOption (hparse.trans held.ofTree_eq)
  · intro broken
    exact Text.eq_error_of_toOption (hparse.trans broken.ofTree_eq)

theorem reads_shuffled_rendering :
    parse (" \x7b\"x\": [1e2, \x7b\x7d], \"actions\": [\x7b\"type\": \"wait\", \"label\": \"\", " ++
        "\"\\u0069d\": \"\\ud83d\\ude00\"\x7d]\x7d") = .ok ⟨"", [⟨"😀", "wait", "", none⟩]⟩ ∧
    ∃ e, parse "\x7b\"actions\": [\x7b\x7d]\x7d" = .error e := by
  have hblank : Blank [' '] := by simp [Blank, isSpace]
  have hone : ∀ c ∈ ['1'], Text.isDigit c = true := List.forall_mem_singleton.mpr rfl
  have htwo : ∀ c ∈ ['2'], Text.isDigit c = true := List.forall_mem_singleton.mpr rfl
  have hnumber : Tree.number.Written ['1', 'e', '2'] :=
    .number ⟨[], ['1'], [], ['e', '2'], rfl, .inl rfl, .inr ⟨⟨by simp, hone⟩, by decide⟩, .inl rfl,
      .inr ⟨'e', [], ['2'], rfl, .inl rfl, .inl rfl, by simp, htwo⟩⟩
  have hempty : (Tree.object []).Written ['{', '}'] :=
    @Tree.Written.object [] _ (by simp) (.close .nil)
  have hunknown : (Tree.list [.number, .object []]).Written _ :=
    @Tree.Written.list [(_, _), (_, _)] _ (by simpa using ⟨hnumber, hempty⟩)
      (.first .nil (.next .nil hblank (.close .nil)))
  have hid : Names [.unit ⟨'0', 0, rfl⟩ ⟨'0', 0, rfl⟩ ⟨'6', 6, rfl⟩ ⟨'9', 9, rfl⟩,
      .plain 'd' (by decide)] "id".toList := .unit rfl (.plain .nil)
  have hface : Names [.unit ⟨'d', 13, rfl⟩ ⟨'8', 8, rfl⟩ ⟨'3', 3, rfl⟩ ⟨'d', 13, rfl⟩,
      .unit ⟨'d', 13, rfl⟩ ⟨'e', 14, rfl⟩ ⟨'0', 0, rfl⟩ ⟨'0', 0, rfl⟩] "😀".toList :=
    .pair (by decide) (by decide) rfl .nil
  have hkind : (Tree.text (some "wait")).Written _ :=
    .text (.named (@names_plainPieces "wait".toList (by simp)))
  have hlabel : (Tree.text (some "")).Written _ := .text (.named .nil)
  have haction : (Tree.object [(some "type", .text (some "wait")), (some "label", .text (some "")),
      (some "id", .text (some "😀"))]).Written _ :=
    @Tree.Written.object [plainMember "type" (by simp) _ _, plainMember "label" (by simp) _ _,
        ⟨_, some "id", [], [' '], _, _, .named hid, .nil, hblank⟩] _
      (by simpa [plainMember] using ⟨hkind, hlabel, .text (.named hface)⟩)
      (.first .nil (.next .nil hblank (.next .nil hblank (.close .nil))))
  have hactions : (Tree.list [.object [(some "type", .text (some "wait")),
      (some "label", .text (some "")), (some "id", .text (some "😀"))]]).Written _ :=
    @Tree.Written.list [(_, _)] _ (by simpa using haction) (.first .nil (.close .nil))
  have hdocument : (Tree.object [(some "x", .list [.number, .object []]), (some "actions",
      .list [.object [(some "type", .text (some "wait")), (some "label", .text (some "")),
        (some "id", .text (some "😀"))]])]).Written _ :=
    @Tree.Written.object [plainMember "x" (by simp) _ _, plainMember "actions" (by simp) _ _] _
      (by simpa [plainMember] using ⟨hunknown, hactions⟩)
      (.first .nil (.next .nil hblank (.close .nil)))
  have hlacking : (Tree.list [.object []]).Written _ :=
    @Tree.Written.list [(_, _)] _ (by simpa using hempty) (.first .nil (.close .nil))
  have hbroken : (Tree.object [(some "actions", .list [.object []])]).Written _ :=
    @Tree.Written.object [plainMember "actions" (by simp) _ _] _
      (by simpa [plainMember] using hlacking) (.first .nil (.close .nil))
  exact ⟨(reads_every_rendering hdocument hblank .nil).1 ⟨"", [⟨"😀", "wait", "", none⟩]⟩
      ⟨by simp, .inr ⟨rfl, rfl⟩,
        .inl ⟨[_], rfl, .cons ⟨by simp, rfl, rfl, rfl, .inr ⟨rfl, rfl⟩⟩ .nil⟩⟩,
    (reads_every_rendering hbroken .nil .nil).2
      (.action (List.mem_singleton.mpr rfl) (List.mem_singleton.mpr rfl)
        (.lacks List.mem_cons_self rfl))⟩

end Document

/-! ## The saved form -/

/-- The members that are saved for an action. -/
def Action.members (a : Action) : List (Option String × Tree) :=
  [(some "id", .text (some a.id)), (some "type", .text (some a.kind)),
    (some "label", .text (some a.label)), (some "param", .optional a.param)]

theorem Action.heldBy_members (a : Action) : a.HeldBy a.members where
  names := by simp [members]
  id := rfl
  kind := rfl
  label := rfl
  param := .inl rfl

/-- The members that are saved for a document. -/
def Document.members (d : Document) : List (Option String × Tree) :=
  [(some "buttonLabel", .text (some d.label)),
    (some "actions", .list (d.actions.map fun a => .object a.members))]

theorem Document.heldBy_members (d : Document) : d.HeldBy d.members where
  names := by simp [members]
  label := .inl rfl
  actions := by
    refine .inl ⟨d.actions.map Action.members, by rw [List.map_map]; rfl, ?_⟩
    exact List.forall₂_map_right_iff.mpr (List.forall₂_same.mpr fun a _ => a.heldBy_members)

theorem Action.written_toJson {s : Spacing} (hs : s.IsBlank) (depth : Nat) (a : Action) :
    (Tree.object a.members).Written (a.toJson.chars s depth) :=
  @written_object s hs depth
    [("id", .text (some a.id), .text a.id), ("type", .text (some a.kind), .text a.kind),
      ("label", .text (some a.label), .text a.label),
      ("param", .optional a.param, .optional a.param)]
    (by simp [written_text, written_optional])

theorem Document.written_toJson {s : Spacing} (hs : s.IsBlank) (depth : Nat) (d : Document) :
    (Tree.object d.members).Written (d.toJson.chars s depth) := by
  have hactions := written_list hs (depth + 1) fun a (_ : a ∈ d.actions) =>
    a.written_toJson hs (depth + 2)
  exact @written_object s hs depth
    [("buttonLabel", .text (some d.label), .text d.label), ("actions", .list _, .list _)]
    (by simpa [written_text] using hactions)

/-- **What is saved is one of the renderings** of the document. -/
theorem Document.render_isRendering (d : Document) : ∃ cs, d.render = String.ofList cs ∧
    (Tree.object d.members).Written cs ∧ d.HeldBy d.members :=
  ⟨_, rfl, d.written_toJson isBlank_indented 0, d.heldBy_members⟩

end TriggerFlow
