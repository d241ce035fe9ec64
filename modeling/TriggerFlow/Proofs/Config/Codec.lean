import TriggerFlow.Config.Codec
import TriggerFlow.Proofs.Toml.Tables

/-!
# A configuration survives its file

Every configuration that can be written is read again as it was, **an absent section as absent and
one with its defaults as present**. The only one that cannot be written has a pacing beyond the
whole numbers of a file, and no file leads to such a one.
-/

set_option autoImplicit false

namespace TriggerFlow
namespace Config

open Toml (Value Written)

/-! ## What is written -/

theorem largestInteger_eq : largestInteger = 2 ^ 63 - 1 := by
  decide +kernel

theorem render?_eq_none_iff {c : Config} :
    c.render? = none ↔ ∃ e, c.engine = some e ∧ 2 ^ 63 - 1 < e.pacing := by
  unfold render?
  rw [largestInteger_eq]
  cases c.engine with
  | none => simp
  | some e => simp

/-- The engine section, if there is one, has a pacing that a file can hold. -/
def HasFile (c : Config) : Prop :=
  ∀ e, c.engine = some e → e.pacing ≤ 2 ^ 63 - 1

theorem render?_eq_some {c : Config} (h : c.HasFile) :
    c.render? = some (Toml.render c.sections) := by
  have hsome : c.render? ≠ none := fun hnone => by
    obtain ⟨e, he, hlarge⟩ := render?_eq_none_iff.mp hnone
    exact absurd (h e he) (Nat.not_le_of_lt hlarge)
  unfold render? at hsome ⊢
  split
  · rename_i hlarge
    rw [if_pos hlarge] at hsome
    exact absurd rfl hsome
  · rfl

def engineTable (s : Settings) : String × List (String × Written) :=
  ("engine", [("pacing_ms", .natural s.pacing), ("storage_mode", .text s.mode.name)])

def pathsTable (s : PathsSection) : String × List (String × Written) :=
  ("paths", (s.dataDirectory.map fun path => ("data_dir", .text path)).toList)

def loggingTable (s : LoggingSection) : String × List (String × Written) :=
  ("logging", [("file", .bool s.file)])

theorem sections_eq (c : Config) :
    c.sections = (c.engine.map engineTable).toList ++ (c.paths.map pathsTable).toList ++
      (c.logging.map loggingTable).toList := rfl

theorem isBareKey_of_mem {key : String}
    (h : key ∈ ["engine", "pacing_ms", "storage_mode", "paths", "data_dir", "logging", "file"]) :
    Toml.IsBareKey key := by
  revert key
  decide

theorem areReadable_sections {c : Config} (h : c.HasFile) : Toml.AreReadable c.sections := by
  have hcases : ∀ t ∈ c.sections, (∃ s, c.engine = some s ∧ engineTable s = t) ∨
      (∃ s, c.paths = some s ∧ pathsTable s = t) ∨
      ∃ s, c.logging = some s ∧ loggingTable s = t := by
    intro t ht
    simpa [sections_eq, or_assoc] using ht
  constructor
  · rw [sections_eq]
    cases c.engine <;> cases c.paths <;> cases c.logging <;>
      simp [engineTable, pathsTable, loggingTable]
  · intro t ht
    obtain ⟨s, -, rfl⟩ | ⟨s, -, rfl⟩ | ⟨s, -, rfl⟩ := hcases t ht <;>
      exact isBareKey_of_mem (by simp [engineTable, pathsTable, loggingTable])
  · intro t ht
    obtain ⟨s, -, rfl⟩ | ⟨⟨_ | path⟩, -, rfl⟩ | ⟨s, -, rfl⟩ := hcases t ht <;>
      simp [engineTable, pathsTable, loggingTable]
  · intro t ht m hm
    obtain ⟨s, hs, rfl⟩ | ⟨⟨_ | path⟩, -, rfl⟩ | ⟨s, -, rfl⟩ := hcases t ht
    · rcases List.mem_pair.mp hm with rfl | rfl
      · exact ⟨isBareKey_of_mem (by simp), h s hs⟩
      · exact ⟨isBareKey_of_mem (by simp), trivial⟩
    · cases hm
    · rw [List.mem_singleton.mp hm]
      exact ⟨isBareKey_of_mem (by simp), trivial⟩
    · rw [List.mem_singleton.mp hm]
      exact ⟨isBareKey_of_mem (by simp), trivial⟩

/-! ## Reading what was written -/

section Decode

variable (c : Config)

theorem decode_engine (s : Settings) : Toml.decodeMembers fields c
    (Toml.readTables [engineTable s]) = .ok { c with engine := some s } := by
  obtain ⟨pacing, mode⟩ := s
  cases mode <;> rfl

theorem decode_paths (s : PathsSection) : Toml.decodeMembers fields c
    (Toml.readTables [pathsTable s]) = .ok { c with paths := some s } := by
  obtain ⟨_ | path⟩ := s <;> rfl

theorem decode_logging (s : LoggingSection) : Toml.decodeMembers fields c
    (Toml.readTables [loggingTable s]) = .ok { c with logging := some s } := rfl

end Decode

/-- **Each section is taken on its own**, and one that was not written stays absent. -/
theorem decode_sections (c : Config) :
    Toml.decodeMembers fields .empty (Toml.readTables c.sections) = .ok c := by
  obtain ⟨engine, paths, logging⟩ := c
  have hengine : Toml.decodeMembers fields .empty
      (Toml.readTables (engine.map engineTable).toList) = .ok ⟨engine, none, none⟩ := by
    cases engine with
    | none => rfl
    | some s => exact decode_engine _ s
  have hpaths : Toml.decodeMembers fields ⟨engine, none, none⟩
      (Toml.readTables (paths.map pathsTable).toList) = .ok ⟨engine, paths, none⟩ := by
    cases paths with
    | none => rfl
    | some s => exact decode_paths _ s
  have hlogging : Toml.decodeMembers fields ⟨engine, paths, none⟩
      (Toml.readTables (logging.map loggingTable).toList) = .ok ⟨engine, paths, logging⟩ := by
    cases logging with
    | none => rfl
    | some s => exact decode_logging _ s
  rw [sections_eq]
  unfold Toml.readTables Toml.decodeMembers at *
  rw [List.map_append, List.map_append, List.foldlM_append, List.foldlM_append, hengine]
  show (List.foldlM _ _ _ >>= _) = _
  rw [hpaths]
  exact hlogging

theorem parse_render {c : Config} (h : c.HasFile) :
    Config.parse (Toml.render c.sections) = .ok c := by
  unfold Config.parse
  rw [Toml.parse_render (areReadable_sections h)]
  exact decode_sections c

/-! ## What a file can say -/

theorem pacing_of_record {v : Value} (hv : v.Bounded) {s : Settings}
    (h : v.record "struct EngineSection" Settings.fields .default = .ok s) :
    s.pacing ≤ 2 ^ 63 - 1 := by
  refine hv.record (·.pacing ≤ 2 ^ 63 - 1) (fun field hfield s hs w hw next hnext => ?_)
    (by decide) h
  rcases List.mem_pair.mp hfield with rfl | rfl
  · obtain ⟨pacing, hpacing, rfl⟩ := Text.eq_ok_of_map hnext
    exact hw.natural hpacing
  · obtain ⟨mode, -, rfl⟩ := Text.eq_ok_of_map hnext
    exact hs

/-- **A file leads to no pacing that it could not hold.** -/
theorem hasFile_of_parse {s : String} {c : Config} (h : Config.parse s = .ok c) : c.HasFile := by
  unfold Config.parse at h
  split at h
  · cases h
  · rename_i t ht
    refine Toml.decodeMembers_keeps HasFile (fun field hfield c hc v hv next hnext => ?_)
      (Toml.bounded_of_parse ht) (fun e he => by cases he) h
    simp only [fields, List.mem_cons, List.not_mem_nil, or_false] at hfield
    rcases hfield with rfl | rfl | rfl
    · obtain ⟨settings, hsettings, rfl⟩ := Text.eq_ok_of_map hnext
      intro e he
      cases he
      exact pacing_of_record hv hsettings
    · obtain ⟨paths, -, rfl⟩ := Text.eq_ok_of_map hnext
      exact hc
    · obtain ⟨logging, -, rfl⟩ := Text.eq_ok_of_map hnext
      exact hc

/-- **A configuration survives its own file**, and the only ones without a file are those that no
file leads to. -/
theorem survives_its_file (c : Config) :
    ((∀ e, c.engine = some e → e.pacing ≤ 2 ^ 63 - 1) →
      ∃ s, c.render? = some s ∧ Config.parse s = .ok c) ∧
    (c.render? = none ↔ ∃ e, c.engine = some e ∧ 2 ^ 63 - 1 < e.pacing) ∧
    ∀ s, Config.parse s = .ok c →
      (∀ e, c.engine = some e → e.pacing ≤ 2 ^ 63 - 1) ∧ c.render?.isSome = true := by
  refine ⟨fun h => ⟨_, render?_eq_some h, parse_render h⟩, render?_eq_none_iff, fun s hs => ?_⟩
  have h := hasFile_of_parse hs
  rw [render?_eq_some h]
  exact ⟨h, rfl⟩

end Config
end TriggerFlow
