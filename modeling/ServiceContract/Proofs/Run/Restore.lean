import ServiceContract.Proofs.Run.Init

/-!
# Settings files that cannot be used

Every run starts by loading its settings, also one that is to replace them. So a file in the working
directory is replaced where its settings can be used, and only there (`init_force_restores_iff`).
-/

namespace ServiceContract

namespace Settings

variable {tree : FileTree} {entry : Entry} {directory : Option Path}

theorem load_initPath {content : String}
    (stands : tree.find? Command.initPath = some (.text content)) :
    load tree Command.initPath = parse Command.initPath .toml content := by
  have format : FileFormat.ofPath Command.initPath = .toml := by decide +kernel
  rw [load, stands, format]

section

variable (stands : tree.find? Command.initPath = some entry)

include stands

theorem loadFrom_of_find? (directory : Option Path) :
    loadFrom tree directory none = load tree Command.initPath :=
  loadFrom_initPath (Option.isSome_iff_exists.2 ⟨entry, stands⟩) directory

/-- The file in the working directory gives usable settings where it holds some. -/
theorem exists_effective_iff : (∃ s, effective tree directory none = .ok s) ↔
    ∃ content s, entry = .text content ∧ parse Command.initPath .toml content = .ok s ∧
      s.validate = .ok () := by
  simp only [effective_eq_ok_iff, loadFrom_of_find? stands]
  constructor
  · rintro ⟨s, loads, valid⟩
    obtain ⟨content, found, -⟩ := exists_text_of_load loads
    obtain rfl := Option.some.inj (stands.symm.trans found)
    exact ⟨content, s, rfl, load_initPath found ▸ loads, valid⟩
  · rintro ⟨content, s, rfl, reads, valid⟩
    exact ⟨s, (load_initPath stands).trans reads, valid⟩

theorem exitCode_of_effective (file : entry ≠ .directory) {failure : Failure}
    (fails : effective tree directory none = .error failure) :
    entry = .binary ∧ failure.exitCode = 1 ∨
      ∃ content, entry = .text content ∧ failure.exitCode = 5 := by
  obtain ⟨other, loads, outcome⟩ | ⟨s, loads, ⟨-, outcome⟩ | ⟨fault, -, outcome⟩⟩ :=
    effective_cases tree directory none
  · obtain rfl := Except.error.inj (outcome.symm.trans fails)
    rw [loadFrom_of_find? stands] at loads
    cases entry with
    | text content =>
      rw [load_initPath stands] at loads
      exact .inr ⟨content, rfl, exitCode_of_parse loads⟩
    | binary =>
      rw [load, stands] at loads
      cases loads
      exact .inl ⟨rfl, rfl⟩
    | directory => exact absurd rfl file
  · cases outcome.symm.trans fails
  · cases outcome.symm.trans fails
    rw [loadFrom_of_find? stands] at loads
    obtain ⟨content, found, -⟩ := exists_text_of_load loads
    exact .inr ⟨content, Option.some.inj (stands.symm.trans found), rfl⟩

end

end Settings

/-- The words that ask for a new settings file in the working directory, whatever is there. -/
def forcing : List String := ["config", "init", "--force"]

/-- A world with a file in the working directory. -/
def World.holding (entry : Entry) : World := .ofTree ⟨[(initPlace, entry)]⟩

end ServiceContract
