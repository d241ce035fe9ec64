import TriggerFlow.Engine

/-!
# The store of an engine

An engine has no way to its store but the two calls of a store. So **what neither call changes, no
event changes**, whatever document runs and however it ends.
-/

set_option autoImplicit false

namespace TriggerFlow

variable {η κ γ σ : Type} [KeyValueStore κ]

/-- A property of stores that no call takes away. -/
structure KeptByCalls (p : κ → Prop) : Prop where
  get : ∀ key s, p s → p (KeyValueStore.get key s).2
  set : ∀ key value s, p s → p (KeyValueStore.set key value s).2

namespace KeptByCalls

variable {p : κ → Prop}

theorem saveValue (hp : KeptByCalls p) (mode : StorageMode) (a : Action) {w : World η κ γ}
    (h : p w.store) : p (a.saveValue mode w).world.store := by
  unfold Action.saveValue
  split
  · exact h
  · rename_i param _
    have hset := hp.set param.key param.value w.store h
    split <;> rename_i heq <;> rw [heq] at hset <;> exact hset

theorem showValue (hp : KeptByCalls p) (mode : StorageMode) (a : Action) {w : World η κ γ}
    (h : p w.store) : p (a.showValue mode w).world.store := by
  have hget := hp.get (Text.trim a.paramOrEmpty) w.store h
  unfold Action.showValue
  dsimp only
  split <;> rename_i heq <;> rw [heq] at hget <;> exact hget

variable [Host η] [ColorSource γ]

/-- Of the kinds of actions only two ask the store for anything. -/
theorem perform (hp : KeptByCalls p) (mode : StorageMode) (a : Action) {w : World η κ γ}
    (h : p w.store) : p (a.perform mode w).world.store := by
  unfold Action.perform
  split
  · rename_i kind _
    cases kind with
    | setStorage => exact hp.saveValue mode a h
    | getStorage => exact hp.showValue mode a h
    | recolorTrigger =>
      unfold Action.performAs Action.recolor
      dsimp only
      split <;> exact h
    | alert | showText | showImage | refresh | growTrigger | close | promptAndShow
    | disableTrigger => exact h
  · exact h

theorem step (hp : KeptByCalls p) (r : Run) {w : World η κ γ} (h : p w.store) :
    p (r.step w).world.store := by
  unfold Run.step
  split
  · exact h
  · split
    · exact h
    · exact hp.perform r.mode _ h

variable [Sink σ]

theorem proceed (hp : KeptByCalls p) {e : Engine η κ γ σ} (h : p e.world.store) (f : Flight) :
    p (e.proceed f).2.world.store := by
  unfold Engine.proceed
  dsimp only
  split <;> exact hp.step _ h

theorem call (hp : KeptByCalls p) {e : Engine η κ γ σ} (h : p e.world.store) (caller : Nat)
    (document : Option Document) (cell : Nat) :
    p (e.call caller document cell).2.world.store := by
  unfold Engine.call
  split
  · exact h
  · split
    · exact h
    · exact hp.proceed h _

/-- **What no call takes away no event takes away.** -/
theorem handle (hp : KeptByCalls p) {e : Engine η κ γ σ} (h : p e.world.store) (event : Event) :
    p (e.handle event).2.world.store := by
  cases event with
  | call caller document cell => exact hp.call h caller document cell
  | fire caller => exact h
  | pauseEnd =>
    simp only [Engine.handle]
    split
    · exact hp.proceed h _
    · exact h
  | notice =>
    simp only [Engine.handle]
    split
    · split
      · exact hp.proceed h _
      · exact h
    · exact h
  | drop caller =>
    simp only [Engine.handle]
    split <;> exact h

end KeptByCalls
end TriggerFlow
