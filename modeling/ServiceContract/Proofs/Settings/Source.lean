import ServiceContract.Proofs.CommandLine
import ServiceContract.Proofs.FileTree
import ServiceContract.Proofs.Settings

/-!
# The settings of a run

A run takes the settings of the first file that decides, and checks them. Where settings are saved,
every path to the file reads them back, whatever name it has for the directories, and every other
file is read as before. So a run that had usable settings has some again, unless a default place is
found now that was not there before.
-/

namespace ServiceContract

open FileTree (above)

namespace Settings

variable {s written : Settings} {tree tree' : FileTree} {path target : Path} {place : Place}
  {directory named : Option Path}

/-! ## The settings of a run -/

/-- A run has settings that were loaded and are usable, or fails at the first thing wrong. -/
theorem effective_cases (tree : FileTree) (directory named : Option Path) :
    (∃ failure, loadFrom tree directory named = .error failure ∧
      effective tree directory named = .error failure) ∨
    ∃ s, loadFrom tree directory named = .ok s ∧
      (s.validate = .ok () ∧ effective tree directory named = .ok s ∨
        ∃ fault, s.validate = .error fault ∧
          effective tree directory named = .error (.settings fault)) := by
  unfold effective
  cases loadFrom tree directory named with
  | error failure => exact .inl ⟨failure, rfl, rfl⟩
  | ok s =>
    refine .inr ⟨s, rfl, ?_⟩
    show _ ∧ (s.validate.mapError Failure.settings >>= fun _ => pure s) = _ ∨
      ∃ fault, _ ∧ (s.validate.mapError Failure.settings >>= fun _ => pure s) = _
    cases s.validate with
    | error fault => exact .inr ⟨fault, rfl, rfl⟩
    | ok => exact .inl ⟨rfl, rfl⟩

theorem effective_eq_ok_iff : effective tree directory named = .ok s ↔
    loadFrom tree directory named = .ok s ∧ s.validate = .ok () := by
  obtain ⟨failure, fails, outcome⟩ | ⟨r, loads, ⟨valid, outcome⟩ | ⟨fault, invalid, outcome⟩⟩ :=
    effective_cases tree directory named
  · rw [fails, outcome]
    exact ⟨nofun, fun h => nomatch h.1⟩
  · rw [loads, outcome]
    exact ⟨fun h => ⟨h, Except.ok.inj h ▸ valid⟩, And.left⟩
  · rw [loads, outcome]
    refine ⟨nofun, fun ⟨same, valid⟩ => ?_⟩
    cases same
    cases invalid.symm.trans valid

theorem exitCode_of_parse {format : FileFormat} {text : String} {failure : Failure}
    (fails : parse path format text = .error failure) : failure.exitCode = 5 := by
  cases format with
  | toml =>
    rw [parse] at fails
    cases read : (Toml.read? text).bind form.ofJson? with
    | none => rw [read] at fails; cases fails; rfl
    | some s => rw [read] at fails; cases fails
  | yaml =>
    rw [parse] at fails
    cases read : Yaml.readAs? form text with
    | none => rw [read] at fails; cases fails; rfl
    | some s => rw [read] at fails; cases fails
  | json =>
    rw [parse] at fails
    cases read : Json.readAs form text with
    | error e => rw [read] at fails; cases fails; rfl
    | ok s => rw [read] at fails; cases fails

theorem validate_default : Settings.default.validate = .ok () := by
  rfl

theorem exists_text_of_load (loads : load tree path = .ok s) :
    ∃ content, tree.find? path = some (.text content) ∧
      parse path (.ofPath path) content = .ok s := by
  unfold load at loads
  split at loads
  · cases loads
  · cases loads
  · cases loads
  · next content found => exact ⟨content, found, loads⟩

theorem has_of_load (loads : load tree path = .ok s) : tree.has path = true := by
  obtain ⟨content, found, -⟩ := exists_text_of_load loads
  rw [FileTree.has, found, Option.isSome_some]

theorem load_congr (same : tree'.find? path = tree.find? path) :
    load tree' path = load tree path := by
  rw [load, load, same]

/-! ## Settings that were saved -/

/-- Saving writes the settings in the notation of the path, or makes directories at most. -/
theorem save_cases (s : Settings) (tree : FileTree) (path : Path) :
    (∃ tree' place, s.save tree path = (tree', .ok ()) ∧
      tree.IsSave tree' path (s.render (.ofPath path)) place) ∨
    ∃ tree' failure, s.save tree path = (tree', .error failure) ∧
      (tree.save path (s.render (.ofPath path))).2 = false ∧ tree.GrowsAt tree' (above path) := by
  unfold save
  obtain ⟨tree', place, outcome, saved⟩ | ⟨tree', outcome, grows⟩ :=
    FileTree.save_cases tree path (s.render (.ofPath path))
  · exact .inl ⟨tree', place, by rw [outcome], saved⟩
  · exact .inr ⟨tree', _, by rw [outcome], by rw [outcome], grows⟩

theorem ofPath_congr {path' : Path} (same : path'.fileName? = path.fileName?) :
    FileFormat.ofPath path' = .ofPath path := by
  rw [FileFormat.ofPath, FileFormat.ofPath, Path.extension?, Path.extension?, same]

section

variable (saved : tree.IsSave tree' target (written.render (.ofPath target)) place)

include saved

/-- Whatever leads to the file reads the settings back. -/
theorem load_written (leads : tree'.place? path = some place) : load tree' path = .ok written := by
  have found : tree'.find? path = some (.text (written.render (.ofPath path))) := by
    rw [FileTree.find?, leads, Option.bind_some, saved.written,
      ofPath_congr (saved.fileName?_eq leads)]
  rw [load, found]
  exact parse_render written path _

/-- A file that could be read is read as before, or as the settings that were written. -/
theorem load_kept (loads : load tree path = .ok s) :
    load tree' path = .ok s ∨ load tree' path = .ok written := by
  obtain ⟨content, stands, -⟩ := exists_text_of_load loads
  rcases saved.find?_cases stands with leads | ⟨-, found⟩
  · exact .inr (load_written saved leads)
  · exact .inl ((load_congr (found.trans stands.symm)).trans loads)

/-- What decides later and was there before has decided before. -/
theorem source?_of_has (decides : source? tree' directory named = some path)
    (stood : tree.has path = true) : source? tree directory named = some path := by
  cases named with
  | some file => exact decides
  | none =>
    obtain ⟨-, before, after, split, absent⟩ := List.find?_eq_some_iff_append.1 decides
    refine List.find?_eq_some_iff_append.2 ⟨stood, before, after, split, fun p h => ?_⟩
    have still : tree'.has p = false := by simpa using absent p h
    cases stands : tree.has p with
    | false => rfl
    | true => rw [saved.has_mono stands] at still; cases still

/-- Where usable settings were saved, a run with usable settings has some again, unless another
default place is found now that was not there before. -/
theorem effective_again (usable : written.validate = .ok ())
    (found : effective tree directory named = .ok s) :
    (∃ s', effective tree' directory named = .ok s') ∨
      named = none ∧ ∃ path failure, findFile? tree' directory = some path ∧
        tree.has path = false ∧ tree'.place? path ≠ some place ∧
        effective tree' directory named = .error failure := by
  obtain ⟨loads, valid⟩ := effective_eq_ok_iff.1 found
  cases decides : source? tree' directory named with
  | none =>
    refine .inl ⟨default, effective_eq_ok_iff.2 ⟨?_, validate_default⟩⟩
    rw [loadFrom, decides]
  | some path =>
    have again : loadFrom tree' directory named = load tree' path := by rw [loadFrom, decides]
    by_cases leads : tree'.place? path = some place
    · exact .inl ⟨written, effective_eq_ok_iff.2 ⟨again.trans (load_written saved leads), usable⟩⟩
    cases stood : tree.has path with
    | true =>
      rw [loadFrom, source?_of_has saved decides stood] at loads
      rcases load_kept saved loads with kept | new
      · exact .inl ⟨s, effective_eq_ok_iff.2 ⟨again.trans kept, valid⟩⟩
      · exact .inl ⟨written, effective_eq_ok_iff.2 ⟨again.trans new, usable⟩⟩
    | false =>
      cases later : effective tree' directory named with
      | ok s' => exact .inl ⟨s', rfl⟩
      | error failure =>
        cases named with
        | none => exact .inr ⟨rfl, path, failure, decides, stood, leads, rfl⟩
        | some file =>
          cases decides
          rw [has_of_load loads] at stood
          cases stood

end

end Settings

end ServiceContract
