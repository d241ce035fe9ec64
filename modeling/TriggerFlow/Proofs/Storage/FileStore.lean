import TriggerFlow.Proofs.FileTree.Saving
import TriggerFlow.Proofs.Storage.Codec
import TriggerFlow.Storage.FileStore

/-!
# A store in a file answers like a store in memory

Seen from outside, a store in a file is a store in memory that some calls never reached: the ones
that it refused. **What others do to the files meanwhile makes no difference to any answer**, it can
only make a later call be refused; and a value that was saved is in the file, together with all that
was saved before it. The file and the entries are changed one after the other, and what carries the
proof is that the entries only follow a file that has been written.
-/

set_option autoImplicit false

namespace TriggerFlow

/-- What is asked of a store. -/
inductive StoreCall where
  | get (key : String)
  | set (key value : String)
  | entries

inductive StoreAnswer where
  | found (value : Option String)
  | saved
  | listed (entries : Entries)
  | refused (cause : Failure)

def StoreAnswer.isRefusal : StoreAnswer → Bool
  | .refused _ => true
  | .found _ | .saved | .listed _ => false

def StoreAnswer.ofGet : Except Failure (Option String) → StoreAnswer
  | .ok value => .found value
  | .error cause => .refused cause

def StoreAnswer.ofSet : Except Failure Unit → StoreAnswer
  | .ok () => .saved
  | .error cause => .refused cause

/-- Asks a store, of which `list` says what it holds. -/
def StoreCall.ask {κ : Type} [KeyValueStore κ] (list : κ → Entries) (s : κ) :
    StoreCall → StoreAnswer × κ
  | .get key => (KeyValueStore.get key s).map .ofGet id
  | .set key value => (KeyValueStore.set key value s).map .ofSet id
  | .entries => (.listed (list s), s)

/-- The calls that were not refused. -/
def accepted (history : List (StoreCall × StoreAnswer)) : List (StoreCall × StoreAnswer) :=
  history.filter fun x => !x.2.isRefusal

/-- Asks a store in memory one thing after the other. -/
def MemoryStore.replay (s : MemoryStore) : List StoreCall → List StoreAnswer × MemoryStore
  | [] => ([], s)
  | call :: calls =>
    let (answer, s) := call.ask MemoryStore.entries s
    let (answers, s) := s.replay calls
    (answer :: answers, s)

/-- What happens while a store in a file is open. -/
inductive StoreEvent where
  | call (call : StoreCall)
  /-- Others have written, moved or removed files, and these are there now. -/
  | meddled (files : FileTree)

namespace FileStore

/-- The calls that a store has answered while something happened, and the store afterwards. -/
def live (s : FileStore) : List StoreEvent → List (StoreCall × StoreAnswer) × FileStore
  | [] => ([], s)
  | .call call :: events =>
    let (answer, s) := call.ask FileStore.entries s
    let (history, s) := s.live events
    ((call, answer) :: history, s)
  | .meddled files :: events => ({ s with files } : FileStore).live events

/-! ## One call -/

theorem set_eq_ok {key value : String} {s s' : FileStore} (h : s.set key value = (.ok (), s')) :
    ∃ files, s.files.save s.path (s.entries.insert key value).render = (.ok (), files) ∧
      s' = ⟨s.path, s.entries.insert key value, files⟩ := by
  unfold set at h
  dsimp only at h
  split at h
  · rename_i files hsave
    cases h
    exact ⟨files, hsave, rfl⟩
  · cases h

theorem set_eq_error {key value : String} {s s' : FileStore} {e : Failure}
    (h : s.set key value = (.error e, s')) :
    ∃ files, s.files.save s.path (s.entries.insert key value).render = (.error e, files) ∧
      s' = { s with files } := by
  unfold set at h
  dsimp only at h
  split at h
  · cases h
  · rename_i cause files hsave
    cases h
    exact ⟨files, hsave, rfl⟩

/-- **One call is one of a store in memory, or it is refused** and leaves the entries. -/
theorem ask_cases (call : StoreCall) (s : FileStore) :
    (∃ answer s', call.ask FileStore.entries s = (answer, s') ∧ s'.path = s.path ∧
        answer.isRefusal = false ∧
        call.ask MemoryStore.entries ⟨s.entries⟩ = (answer, ⟨s'.entries⟩)) ∨
      ∃ key value e s', call = .set key value ∧
        call.ask FileStore.entries s = (.refused e, s') ∧ s'.path = s.path ∧
        s'.entries = s.entries := by
  cases call with
  | get key => exact .inl ⟨_, s, rfl, rfl, rfl, rfl⟩
  | entries => exact .inl ⟨_, s, rfl, rfl, rfl, rfl⟩
  | set key value =>
    have hask : (StoreCall.set key value).ask FileStore.entries s =
        (s.set key value).map .ofSet id := rfl
    cases hset : s.set key value with
    | mk result s' =>
      rw [hset] at hask
      cases result with
      | ok =>
        obtain ⟨files, hsave, rfl⟩ := set_eq_ok hset
        exact .inl ⟨.saved, _, hask, rfl, rfl, rfl⟩
      | error e =>
        obtain ⟨files, hsave, rfl⟩ := set_eq_error hset
        exact .inr ⟨key, value, e, _, rfl, hask, rfl, rfl⟩

/-! ## Any number of calls -/

/-- The calls that were not refused, made of a store in memory, are answered alike. -/
theorem replay_accepted (events : List StoreEvent) :
    ∀ s : FileStore, (⟨s.entries⟩ : MemoryStore).replay ((accepted (s.live events).1).map (·.1)) =
      ((accepted (s.live events).1).map (·.2), ⟨(s.live events).2.entries⟩) := by
  induction events with
  | nil =>
    intro s
    rfl
  | cons event events ih =>
    intro s
    cases event with
    | meddled files => exact ih { s with files }
    | call call =>
      rcases ask_cases call s with
        ⟨answer, s', hask, -, hkept, hmemory⟩ | ⟨key, value, e, s', -, hask, -, hentries⟩
      · have hhistory : accepted (s.live (.call call :: events)).1 =
            (call, answer) :: accepted (s'.live events).1 := by
          simp [live, hask, accepted, hkept]
        have hafter : (s.live (.call call :: events)).2 = (s'.live events).2 := by
          simp [live, hask]
        rw [hhistory, hafter, List.map_cons, List.map_cons, MemoryStore.replay, hmemory]
        dsimp only
        rw [ih s']
      · -- A refused call is struck out, and the entries are the same after it.
        have hhistory : accepted (s.live (.call call :: events)).1 =
            accepted (s'.live events).1 := by
          simp [live, hask, accepted, StoreAnswer.isRefusal]
        have hafter : (s.live (.call call :: events)).2 = (s'.live events).2 := by
          simp [live, hask]
        rw [hhistory, hafter, ← hentries]
        exact ih s'

theorem path_live (events : List StoreEvent) : ∀ s : FileStore, (s.live events).2.path = s.path := by
  induction events with
  | nil =>
    intro s
    rfl
  | cons event events ih =>
    intro s
    cases event with
    | meddled files => exact ih { s with files }
    | call call =>
      rcases ask_cases call s with
        ⟨answer, s', hask, hpath, -⟩ | ⟨key, value, e, s', -, hask, hpath, -⟩ <;>
      · rw [live, hask]
        exact (ih s').trans hpath

/-- Only a value that was to be saved is ever refused. -/
theorem refused_live (events : List StoreEvent) :
    ∀ s : FileStore, ∀ x ∈ (s.live events).1, x.2.isRefusal = true →
      ∃ key value, x.1 = .set key value := by
  induction events with
  | nil =>
    intro s x hx
    cases hx
  | cons event events ih =>
    intro s x hx hrefused
    cases event with
    | meddled files => exact ih { s with files } x hx hrefused
    | call call =>
      rcases ask_cases call s with
        ⟨answer, s', hask, -, hkept, -⟩ | ⟨key, value, e, s', hcall, hask, -, -⟩ <;>
      rw [live, hask] at hx <;>
      rcases List.mem_cons.mp hx with rfl | hx
      · rw [hkept] at hrefused
        cases hrefused
      · exact ih s' x hx hrefused
      · exact ⟨key, value, hcall⟩
      · exact ih s' x hx hrefused

/-! ## The file -/

/-- The entries that a store starts with: those in its file, none if there is no file. -/
theorem load_eq_ok {path : String} {files : FileTree} {s : FileStore}
    (h : load path files = .ok s) :
    s.path = path ∧ s.files = files ∧
      (files.exists? path = false ∧ s.entries = .empty ∨
        ∃ text, files.read path = .ok text ∧ Entries.parse text = .ok s.entries) := by
  unfold load FileTree.readIfExists at h
  cases hexists : files.exists? path with
  | false =>
    simp only [hexists, Bool.false_eq_true, if_false] at h
    cases h
    exact ⟨rfl, rfl, .inl ⟨rfl, rfl⟩⟩
  | true =>
    simp only [hexists, if_true] at h
    cases hread : files.read path with
    | error e =>
      rw [hread] at h
      cases h
    | ok text =>
      rw [hread] at h
      dsimp only at h
      cases hparse : Entries.parse text with
      | error e =>
        rw [hparse] at h
        cases h
      | ok entries =>
        rw [hparse] at h
        cases h
        exact ⟨rfl, rfl, .inr ⟨text, rfl, hparse⟩⟩

theorem load_of_find {path text : String} {files : FileTree} {entries : Entries}
    (hfind : files.find path = .ok (.file (.text text))) (hparse : Entries.parse text = .ok entries) :
    load path files = .ok ⟨path, entries, files⟩ := by
  unfold load
  rw [FileTree.readIfExists_of_find hfind]
  dsimp only
  rw [hparse]

theorem load_of_set {key value : String} {s s' : FileStore} (h : s.set key value = (.ok (), s')) :
    s'.files.read s.path = .ok s'.entries.render ∧ load s.path s'.files = .ok s' := by
  obtain ⟨files, hsave, rfl⟩ := set_eq_ok h
  have hfind := FileTree.find_of_save hsave
  refine ⟨?_, load_of_find hfind (Entries.parse_render _)⟩
  unfold FileTree.read
  rw [hfind]

/-- **A store in a file refines a store in memory.** Whatever is asked of it and whatever others do
to the files, it answers like a store in memory that started with the entries of the file and that
only got the calls which were not refused, and only a value to be saved is ever refused. At every
moment, a value that can be saved is then in the file with everything else, in a form that opens as
the same store; one that cannot leaves the entries and every file. -/
theorem live_refines_memory {path : String} {files : FileTree} {s : FileStore}
    (h : load path files = .ok s) (events : List StoreEvent) :
    let history := (s.live events).1
    let now := (s.live events).2
    (files.exists? path = false ∧ s.entries = .empty ∨
      ∃ text, files.read path = .ok text ∧ Entries.parse text = .ok s.entries) ∧
    (⟨s.entries⟩ : MemoryStore).replay ((accepted history).map (·.1)) =
      ((accepted history).map (·.2), ⟨now.entries⟩) ∧
    (∀ x ∈ history, x.2.isRefusal = true → ∃ key value, x.1 = .set key value) ∧
    (∀ key value s', now.set key value = (.ok (), s') →
      s'.entries = now.entries.insert key value ∧
      s'.files.read path = .ok s'.entries.render ∧
      Entries.parse s'.entries.render = .ok s'.entries ∧ load path s'.files = .ok s') ∧
    ∀ key value e s', now.set key value = (.error e, s') →
      s'.entries = now.entries ∧
      ∀ place content, s'.files.at? place = some (.file content) ↔
        now.files.at? place = some (.file content) := by
  intro history now
  obtain ⟨hpath, -, hopened⟩ := load_eq_ok h
  have hnow : now.path = path := (path_live events s).trans hpath
  refine ⟨hopened, replay_accepted events s, refused_live events s, ?_, ?_⟩
  · intro key value s' hset
    obtain ⟨hread, hload⟩ := load_of_set hset
    rw [hnow] at hread hload
    obtain ⟨saved, -, rfl⟩ := set_eq_ok hset
    exact ⟨rfl, hread, Entries.parse_render _, hload⟩
  · intro key value e s' hset
    obtain ⟨left, hsave, rfl⟩ := set_eq_error hset
    exact ⟨rfl, (FileTree.grows_of_save_error hsave).file_iff⟩

/-- A store whose file is replaced by a directory keeps what was saved before and refuses what
comes after. -/
theorem live_blocked :
    let entries := Entries.ofList [("", "\"\n")]
    let files : FileTree :=
      ⟨[(FileTree.key ["storage.json"], .file (.text entries.render))], []⟩
    let blocked : FileTree := ⟨[(FileTree.key ["storage.json"], .directory)], []⟩
    let s : FileStore := ⟨"storage.json", entries, files⟩
    let events : List StoreEvent :=
      [.call (.set "é" "\x01"), .meddled blocked, .call (.set "x" "y"), .call .entries]
    let now := (s.live events).2
    load "storage.json" files = .ok s ∧
    (s.live events).1.map (·.2.isRefusal) = [false, true, false] ∧
    now.entries.pairs = [("", "\"\n"), ("é", "\x01")] ∧
    (⟨s.entries⟩ : MemoryStore).replay ((accepted (s.live events).1).map (·.1)) =
      ((accepted (s.live events).1).map (·.2), ⟨now.entries⟩) := by
  intro entries files blocked s events now
  have hfind : files.find "storage.json" = .ok (.file (.text entries.render)) := by rfl
  have hload : load "storage.json" files = .ok s :=
    load_of_find hfind (Entries.parse_render entries)
  obtain ⟨-, hreplay, -⟩ := live_refines_memory hload events
  exact ⟨hload, by decide +kernel, by decide +kernel, hreplay⟩

end FileStore
end TriggerFlow
