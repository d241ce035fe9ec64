import TriggerFlow.Proofs.Run.Orders
import TriggerFlow.Proofs.Storage.Keeping
import TriggerFlow.Proofs.StorageParam

/-!
# What a run reads back

An action that reads shows what an earlier one saved, and between the two the run may have done
anything: saved other keys, saved under a text that is no key, been refused. **It shows the last
value that was accepted for the key**, and if there is none, the one that the store had when the run
began. What carries this over the positions of a run is that a store that keeps is moved by no
action but one that saves, and by that one only if the store accepts.
-/

set_option autoImplicit false

namespace TriggerFlow

variable {η κ γ σ : Type} [KeyValueStore κ]

namespace Action

/-- The action saves this value for this key in a store as it stands: the first colon divides its
parameter into the two, and the store accepts them. -/
structure Saves (a : Action) (store : κ) (key value : String) : Prop where
  kind : a.kind? = some .setStorage
  param : ∃ before after, a.paramOrEmpty.toList = before ++ ':' :: after ∧ ':' ∉ before ∧
    key = Text.trim (String.ofList before) ∧ value = Text.trim (String.ofList after)
  accepted : (KeyValueStore.set key value store).1 = .ok ()

theorem store_performAs [Host η] [ColorSource γ] (mode : StorageMode) (a : Action)
    (w : World η κ γ) {kind : Kind} (hset : kind ≠ .setStorage) (hget : kind ≠ .getStorage) :
    (a.performAs mode w kind).world.store = w.store := by
  cases kind with
  | setStorage => exact absurd rfl hset
  | getStorage => exact absurd rfl hget
  | recolorTrigger =>
    simp only [performAs, recolor]
    split <;> rfl
  | alert | showText | showImage | refresh | growTrigger | close | promptAndShow
  | disableTrigger => rfl

variable [KeepingStore κ]

theorem Saves.held {a : Action} {w : World η κ γ} {key value : String}
    (h : a.Saves w.store key value) (mode : StorageMode) :
    KeepingStore.held (a.saveValue mode w).world.store key = some value := by
  have hparse := StorageParam.parse_eq_ok_iff.mpr h.param
  have hheld := KeepingStore.held_set_ok h.accepted key
  unfold saveValue
  rw [hparse]
  dsimp only
  cases hset : KeyValueStore.set key value w.store with
  | mk answer store =>
    rw [if_pos rfl, hset] at hheld
    cases answer <;> exact hheld

/-- An action that saves nothing for a key leaves what is held for it. -/
theorem held_saveValue_of_not_saves {a : Action} {w : World η κ γ} {key : String}
    (hkind : a.kind? = some .setStorage) (h : ∀ value, ¬ a.Saves w.store key value)
    (mode : StorageMode) :
    KeepingStore.held (a.saveValue mode w).world.store key = KeepingStore.held w.store key := by
  unfold saveValue
  cases hparse : StorageParam.parse a.paramOrEmpty with
  | error e => rfl
  | ok param =>
    obtain ⟨other, value⟩ := param
    have hparam := StorageParam.parse_eq_ok_iff.mp hparse
    have hok := @KeepingStore.held_set_ok κ _ _ other value w.store
    have herror := @KeepingStore.held_set_error κ _ _ other value w.store
    dsimp only
    cases hset : KeyValueStore.set other value w.store with
    | mk answer store =>
      rw [hset] at hok herror
      cases answer with
      | error e => exact congrFun (herror rfl) key
      | ok =>
        have hne : key ≠ other := by
          rintro rfl
          exact h value ⟨hkind, hparam, by rw [hset]⟩
        have hother := hok rfl key
        rwa [if_neg hne] at hother

theorem held_showValue (mode : StorageMode) (a : Action) (w : World η κ γ) :
    KeepingStore.held (a.showValue mode w).world.store = KeepingStore.held w.store := by
  have hget := KeepingStore.held_get (Text.trim a.paramOrEmpty) w.store
  unfold showValue
  dsimp only
  split <;>
  · rename_i hread
    rw [hread] at hget
    exact hget

variable [Host η] [ColorSource γ]

/-- **One action moves what is held for a key only by saving a value for it.** -/
theorem held_perform (mode : StorageMode) (a : Action) (w : World η κ γ) (key : String) :
    (∀ value, a.Saves w.store key value →
      KeepingStore.held (a.perform mode w).world.store key = some value) ∧
    ((∀ value, ¬ a.Saves w.store key value) →
      KeepingStore.held (a.perform mode w).world.store key = KeepingStore.held w.store key) := by
  unfold perform
  cases hkind : a.kind? with
  | none =>
    refine ⟨?_, fun _ => rfl⟩
    intro value h
    have := hkind.symm.trans h.kind
    cases this
  | some kind =>
    by_cases hset : kind = .setStorage
    · subst hset
      exact ⟨fun value h => h.held mode, fun h => held_saveValue_of_not_saves hkind h mode⟩
    · have hkeeps : KeepingStore.held (a.performAs mode w kind).world.store key =
          KeepingStore.held w.store key := by
        by_cases hget : kind = .getStorage
        · subst hget
          exact congrFun (held_showValue mode a w) key
        · rw [store_performAs mode a w hset hget]
      refine ⟨?_, fun _ => hkeeps⟩
      intro value h
      have := hkind.symm.trans h.kind
      exact absurd (Option.some.inj this) hset

/-- A value as it is told: one that is missing or empty is not found. -/
theorem valueLine_eq (key : String) (value : Option String) :
    valueLine key value =
      key ++ ": " ++ (match value with | none | some "" => "Not found" | some s => s) := by
  unfold valueLine
  split
  · rfl
  · rfl
  · rename_i s hne
    have hs : s ≠ "" := fun h => hne (h ▸ rfl)
    simp [Option.filter, hs]

end Action

namespace Course

variable [Host η] [ColorSource γ] [Sink σ]

/-- A course with something left to do was only ever stepped. -/
theorem Standing.eq_reached {actions : List Action} (hne : actions ≠ []) {mode : StorageMode}
    {w : World η κ γ} {shown : σ} {c : Course η κ γ σ} (h : Standing actions mode w shown c)
    {j : Nat} (hj : c.run.phase.next? = some j) :
    c = reached actions mode w shown j ∧ j < (Action.upToEnd actions).length := by
  cases h with
  | cancelled n left => cases hj
  | stepped n =>
    have hnext : (Run.phaseAt actions n).next? = some j := hj
    rw [Run.next?_phaseAt hne] at hnext
    split at hnext
    · cases hnext
      exact ⟨rfl, ‹_›⟩
    · cases hnext

variable [KeepingStore κ]

/-- The action at a position of a run saves this value for this key when its turn comes. -/
def SavesAt (origin : Course η κ γ σ) (i : Nat) (key value : String) : Prop :=
  ∃ a, origin.run.actions[i]? = some a ∧ a.Saves (origin.after i).world.store key value

/-- What was saved last for a key before a position of a run. -/
inductive LastSaved (origin : Course η κ γ σ) (j : Nat) (key : String) : Option String → Prop where
  | saved {i : Nat} {value : String} (before : i < j) (saves : origin.SavesAt i key value)
    (last : ∀ k, i < k → k < j → ∀ other, ¬ origin.SavesAt k key other) :
    LastSaved origin j key (some value)
  /-- Nothing was saved, so there is what the store held at the start. -/
  | never (unsaved : ∀ k < j, ∀ other, ¬ origin.SavesAt k key other) :
    LastSaved origin j key (KeepingStore.held origin.world.store key)

theorem LastSaved.succ_of_savesAt {origin : Course η κ γ σ} {j : Nat} {key value : String}
    (h : origin.SavesAt j key value) : LastSaved origin (j + 1) key (some value) :=
  .saved (Nat.lt_succ_self j) h fun k hlo hhi => absurd hhi (by omega)

theorem LastSaved.succ_of_not_savesAt {origin : Course η κ γ σ} {j : Nat} {key : String}
    {found : Option String} (h : LastSaved origin j key found)
    (hnot : ∀ other, ¬ origin.SavesAt j key other) : LastSaved origin (j + 1) key found := by
  cases h with
  | saved before saves last =>
    refine .saved (Nat.lt_succ_of_lt before) saves fun k hlo hhi => ?_
    rcases Nat.lt_succ_iff_lt_or_eq.mp hhi with hlt | rfl
    · exact last k hlo hlt
    · exact hnot
  | never unsaved =>
    refine .never fun k hk => ?_
    rcases Nat.lt_succ_iff_lt_or_eq.mp hk with hlt | rfl
    · exact unsaved k hlt
    · exact hnot

/-- **What a store holds is what was saved last**, wherever a run has come to. -/
theorem lastSaved_held {d : Document} {mode : StorageMode} {r : Run}
    (hstart : Run.start d mode = .ok r) (w : World η κ γ) (shown : σ) (key : String) (n : Nat)
    (hn : n ≤ (Action.upToEnd d.actions).length) :
    let origin : Course η κ γ σ := ⟨r, w, shown⟩
    LastSaved origin n key (KeepingStore.held (origin.after n).world.store key) := by
  intro origin
  have hafter := after_eq hstart w shown
  induction n with
  | zero => exact .never fun k hk => absurd hk (Nat.not_lt_zero k)
  | succ n ih =>
    have hget := List.getElem?_eq_getElem (show n < (Action.upToEnd d.actions).length by omega)
    have hact : origin.run.actions[n]? = some (Action.upToEnd d.actions)[n] := by
      rw [show origin.run = r from rfl, (Run.start_eq_ok_iff.mp hstart).2]
      exact Action.getElem?_of_upToEnd hget
    have hworld : (origin.after (n + 1)).world =
        (((Action.upToEnd d.actions)[n]).perform mode (origin.after n).world).world := by
      rw [hafter, hafter]
      simp only [reached, Progress.upTo_succ hget, Progress.add]
    obtain ⟨hsaves, hkeeps⟩ :=
      Action.held_perform mode (Action.upToEnd d.actions)[n] (origin.after n).world key
    rw [hworld]
    by_cases h : ∃ value, origin.SavesAt n key value
    · obtain ⟨value, a, ha, hsave⟩ := h
      obtain rfl : (Action.upToEnd d.actions)[n] = a := Option.some.inj (hact.symm.trans ha)
      rw [hsaves value hsave]
      exact .succ_of_savesAt ⟨_, ha, hsave⟩
    · have hnot : ∀ value, ¬ origin.SavesAt n key value := fun value hvalue => h ⟨value, hvalue⟩
      rw [hkeeps fun value hsave => hnot value ⟨_, hact, hsave⟩]
      exact (ih (by omega)).succ_of_not_savesAt hnot

/-- **An action that reads shows the last value that was accepted for its key**, however the run was
told to get there; without one it shows what the store held for the key at the start. A key is the
same with and without blanks around it, and a value that is missing or empty is not found. -/
theorem obey_step_shows_lastSaved {d : Document} {mode : StorageMode} {r : Run}
    (hstart : Run.start d mode = .ok r) (w : World η κ γ) (shown : σ) (orders : List Order) :
    let origin : Course η κ γ σ := ⟨r, w, shown⟩
    ∀ c ∈ origin :: (origin.follow orders).map (·.course), ∀ j a value,
      c.run.phase.next? = some j → d.actions[j]? = some a → a.kind? = some .getStorage →
      (KeyValueStore.get (Text.trim a.paramOrEmpty) c.world.store).1 = .ok value →
      ∃ found, origin.LastSaved j (Text.trim a.paramOrEmpty) found ∧
        (c.obey .step).course.shown =
          Sink.applyAll
            ((if j = 0 then [.reset] else []) ++
              [.push (.text (Text.trim a.paramOrEmpty ++ ": " ++
                (match found with | none | some "" => "Not found" | some s => s)))])
            c.shown := by
  intro origin c hc j a value hj ha hkind hread
  obtain ⟨hne, hr⟩ := Run.start_eq_ok_iff.mp hstart
  have horigin : Standing d.actions mode w shown origin := by
    simp only [origin, hr]
    exact .stepped 0
  have hstanding : Standing d.actions mode w shown c := by
    rcases List.mem_cons.mp hc with rfl | hc
    · exact horigin
    · obtain ⟨stage, hstage, rfl⟩ := List.mem_map.mp hc
      exact horigin.follow hne orders stage hstage
  obtain ⟨rfl, hlt⟩ := hstanding.eq_reached hne hj
  have hlast := lastSaved_held hstart w shown (Text.trim a.paramOrEmpty) j (Nat.le_of_lt hlt)
  have hvalue := KeepingStore.get_ok hread
  dsimp only at hlast
  rw [after_eq hstart, ← hvalue] at hlast
  refine ⟨value, hlast, ?_⟩
  have hget : (Action.upToEnd d.actions)[j]? = some a := by
    have hget := List.getElem?_eq_getElem hlt
    rw [← ha, Action.getElem?_of_upToEnd hget, hget]
  have hchange : (a.perform mode (reached d.actions mode w shown j).world).change =
      some (.push (.text (Action.valueLine (Text.trim a.paramOrEmpty) value))) := by
    unfold Action.perform
    rw [hkind]
    simp only [Action.performAs, Action.showValue]
    split
    · rename_i hshown
      rw [hshown] at hread
      cases hread
      rfl
    · rename_i hshown
      rw [hshown] at hread
      cases hread
  have hstep := Run.step_reached_of_getElem? hget mode w
  rw [← Action.valueLine_eq]
  simp only [reached] at hchange
  simp only [obey, reached, hstep, hchange, Option.toList_some]

def remembering : Document :=
  ⟨"Go", [⟨"1", "set-storage", "", some "a: 1"⟩, ⟨"2", "set-storage", "", some " a :2"⟩,
    ⟨"3", "set-storage", "", some "a"⟩, ⟨"4", "get-storage", "", some "\u2003a "⟩]⟩

/-- Neither a value that was refused nor one without a key comes between a value and the action
that reads it. -/
theorem obey_step_shows_remembering :
    let w : World ScriptedHost (FitfulStore MemoryStore) Palette :=
      ⟨.withAnswers [], ⟨.empty, [none, some "full"]⟩, .ofList []⟩
    let run : Run := ⟨remembering.actions, .strict, .idle, 0, []⟩
    let origin : Course ScriptedHost (FitfulStore MemoryStore) Palette Presentation :=
      ⟨run, w, .initial⟩
    Run.start remembering .strict = .ok run ∧
    ∃ c ∈ origin :: (origin.follow [.step, .step, .step]).map (·.course),
      c.run.phase.next? = some 3 ∧
      (KeyValueStore.get "a" c.world.store).1 = .ok (some "1") ∧
      c.shown.log = [.text "Saved: a = 1"] ∧
      ∃ found, origin.LastSaved 3 "a" found ∧
        (c.obey .step).course.shown =
          Sink.applyAll
            [.push (.text ("a" ++ ": " ++
              (match found with | none | some "" => "Not found" | some s => s)))]
            c.shown ∧
        (c.obey .step).course.shown.log = [.text "Saved: a = 1", .text "a: 1"] := by
  intro w run origin
  have hstart : Run.start remembering .strict = .ok run :=
    Run.start_of_isRunnable (by decide) .strict
  let last : Course ScriptedHost (FitfulStore MemoryStore) Palette Presentation :=
    (((origin.obey .step).course.obey .step).course.obey .step).course
  have hlast : last ∈ origin :: (origin.follow [.step, .step, .step]).map (·.course) := by
    simp [follow, last]
  have hnext : last.run.phase.next? = some 3 := by decide +kernel
  have hread : (KeyValueStore.get "a" last.world.store).1 = .ok (some "1") := by rfl
  let reading : Action := ⟨"4", "get-storage", "", some "\u2003a "⟩
  have hkey : Text.trim reading.paramOrEmpty = "a" := by decide +kernel
  obtain ⟨found, hfound, hshown⟩ :=
    obey_step_shows_lastSaved hstart w Presentation.initial [.step, .step, .step] last hlast 3
      reading (some "1") hnext rfl (by decide +kernel) (by rw [hkey]; exact hread)
  rw [hkey] at hfound hshown
  exact ⟨hstart, last, hlast, hnext, hread, by decide +kernel, found, hfound, hshown,
    by decide +kernel⟩

end Course
end TriggerFlow
