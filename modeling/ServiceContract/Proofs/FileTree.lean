import Mathlib.Data.List.Basic
import ServiceContract.FileTree

/-!
# What is written is found, and nothing else has changed

Saving a text makes directories on the way, where nothing stood, and puts the text at one place,
never in place of a directory; whatever stands elsewhere stays. So every path still leads where it
has led, though more paths may lead somewhere. Around a file are directories only, so the last part
of a path to a file names it, and two paths to one file have the same name at the end.
-/

namespace ServiceContract

namespace Place

/-- One component of a path further on. -/
def step (place : Place) : Path.Component → Place
  | .name name => place.child name
  | .parent => place.parent
  | .root | .here => place

/-- The places that components lead through. -/
def way : Place → List Path.Component → List Place
  | _, [] => []
  | place, component :: components => place.step component :: (place.step component).way components

theorem isGiven_parent {place : Place} (given : place.isGiven = true) :
    place.parent.isGiven = true := by
  rw [parent, if_pos given]
  split
  · exact given
  · simpa [isGiven] using given

end Place

namespace FileTree

variable {tree tree' : FileTree} {place other found : Place} {entry : Entry} {path : Path}
  {content : String}

/-- The places above the end of a path. -/
def above (path : Path) : List Place := (startOf path).way path.components.dropLast

/-! ## One place -/

theorem not_isGiven_of_not_isDirectory (free : tree.isDirectory place = false) :
    place.isGiven = false := by
  refine Bool.eq_false_iff.2 fun given => ?_
  rw [isDirectory, at?, if_pos given] at free
  cases free

theorem at?_put_self (given : place.isGiven = false) :
    (tree.put place entry).at? place = some entry := by
  simp [at?, put, given]

theorem lookup_filter_ne {entries : List (Place × Entry)} (different : other ≠ place) :
    (entries.filter fun e => e.1 ≠ place).lookup other = entries.lookup other := by
  induction entries with
  | nil => rfl
  | cons e entries ih =>
    obtain ⟨p, e⟩ := e
    by_cases same : p = place
    · subst same
      rw [List.filter_cons_of_neg (by simp), ih, List.lookup_cons, beq_false_of_ne different]
    · rw [List.filter_cons_of_pos (by simpa using same), List.lookup_cons, List.lookup_cons, ih]

/-- Other places keep what stands there. -/
theorem at?_put_other (different : other ≠ place) :
    (tree.put place entry).at? other = tree.at? other := by
  unfold at? put
  split
  · rfl
  split
  · rfl
  · rw [List.lookup_cons, beq_false_of_ne different]
    exact lookup_filter_ne different

/-- Directories stay where nothing is put in place of one. -/
theorem isDirectory_put (free : tree.isDirectory place = false)
    (directory : tree.isDirectory other = true) :
    (tree.put place entry).isDirectory other = true := by
  have different : other ≠ place := by
    rintro rfl
    rw [free] at directory
    cases directory
  rw [isDirectory, at?_put_other different]
  exact directory

/-! ## Directories on the way -/

/-- Directories were made at some places where nothing stood. -/
def GrowsAt (tree tree' : FileTree) (places : List Place) : Prop :=
  ∀ place, tree'.at? place = tree.at? place ∨
    place ∈ places ∧ tree.at? place = none ∧ tree'.at? place = some .directory

namespace GrowsAt

variable {places more : List Place}

theorem refl (tree : FileTree) (places : List Place) : tree.GrowsAt tree places := fun _ => .inl rfl

theorem mono (grows : tree.GrowsAt tree' places) (within : places ⊆ more) :
    tree.GrowsAt tree' more :=
  fun place => (grows place).imp_right fun ⟨made, new⟩ => ⟨within made, new⟩

theorem trans {between : FileTree} (first : tree.GrowsAt between places)
    (second : between.GrowsAt tree' more) : tree.GrowsAt tree' (places ++ more) := by
  intro place
  rcases second place with kept | ⟨made, nothing, directory⟩
  · rw [kept]
    exact (first place).imp_right fun ⟨made, new⟩ => ⟨List.mem_append_left _ made, new⟩
  · rcases first place with kept | ⟨-, -, already⟩
    · exact .inr ⟨List.mem_append_right _ made, kept ▸ nothing, directory⟩
    · rw [already] at nothing
      cases nothing

theorem at?_of_some (grows : tree.GrowsAt tree' places) (stands : tree.at? place = some entry) :
    tree'.at? place = some entry := by
  rcases grows place with kept | ⟨-, nothing, -⟩
  · rw [kept, stands]
  · rw [nothing] at stands
    cases stands

end GrowsAt

theorem isDirectory_iff : tree.isDirectory place = true ↔ tree.at? place = some .directory := by
  rw [isDirectory, beq_iff_eq]

theorem isDirectory_of_isGiven (given : place.isGiven = true) : tree.isDirectory place = true := by
  rw [isDirectory_iff, at?, if_pos given]

theorem growsAt_put (nothing : tree.at? place = none) :
    tree.GrowsAt (tree.put place .directory) [place] := by
  intro other
  by_cases same : other = place
  · subst same
    have free : tree.isDirectory other = false := by
      rw [isDirectory, nothing]
      rfl
    exact .inr ⟨List.mem_singleton_self _, nothing,
      at?_put_self (not_isGiven_of_not_isDirectory free)⟩
  · exact .inl (at?_put_other same)

theorem growsAt_makeDirectories (components : List Path.Component) :
    tree.GrowsAt (tree.makeDirectories place components).1 (place.way components) := by
  induction components generalizing tree place with
  | nil => exact .refl tree _
  | cons component components ih =>
    unfold makeDirectories
    split
    · cases component with
      | name name =>
        show tree.GrowsAt (makeDirectories _ (place.child name) components).1
          ([place.child name] ++ (place.child name).way components)
        refine GrowsAt.trans ?_ ih
        split
        · next nothing => exact growsAt_put (Option.isNone_iff_eq_none.1 nothing)
        · exact .refl tree _
      | parent => exact ih.mono (List.subset_cons_self ..)
      | root => exact ih.mono (List.subset_cons_self ..)
      | here => exact ih.mono (List.subset_cons_self ..)
    · exact .refl tree _

/-! ## Where paths lead -/

/-- What led to a place leads there wherever all directories are kept. -/
theorem follow?_mono
    (keeps : ∀ place, tree.isDirectory place = true → tree'.isDirectory place = true)
    {parts : List (List Char)} (leads : tree.follow? other parts = some found) :
    tree'.follow? other parts = some found := by
  induction parts generalizing other with
  | nil => exact leads
  | cons part parts ih =>
    rw [follow?] at leads ⊢
    split at leads
    · next directory =>
      rw [if_pos (keeps other directory)]
      exact ih leads
    · cases leads

theorem place?_mono
    (keeps : ∀ place, tree.isDirectory place = true → tree'.isDirectory place = true)
    (leads : tree.place? path = some found) : tree'.place? path = some found := by
  unfold place? at leads ⊢
  split at leads
  · cases leads
  · next nonempty =>
    rw [if_neg nonempty]
    exact follow?_mono keeps leads

theorem exists_of_find? (stands : tree.find? path = some entry) :
    ∃ place, tree.place? path = some place ∧ tree.at? place = some entry :=
  Option.bind_eq_some_iff.1 stands

theorem exists_of_follow?_concat {parts : List (List Char)} {last : List Char}
    (leads : tree.follow? place (parts ++ [last]) = some found) :
    ∃ before, tree.follow? place parts = some before ∧ tree.isDirectory before = true ∧
      found = before.enter last := by
  induction parts generalizing place with
  | nil =>
    rw [List.nil_append, follow?] at leads
    split at leads
    · next directory => exact ⟨place, rfl, directory, (Option.some.inj leads).symm⟩
    · cases leads
  | cons part parts ih =>
    rw [List.cons_append, follow?] at leads
    split at leads
    · next directory =>
      obtain ⟨before, within, rest⟩ := ih leads
      exact ⟨before, by rw [follow?, if_pos directory, within], rest⟩
    · cases leads

/-- All around a place are directories. -/
def IsEnclosed (tree : FileTree) (place : Place) : Prop :=
  ∀ names, names <+: place.names → names ≠ place.names →
    tree.isDirectory ⟨place.absolute, names⟩ = true

namespace IsEnclosed

theorem of_isGiven (given : place.isGiven = true) : tree.IsEnclosed place := by
  intro names before _
  refine isDirectory_of_isGiven (List.all_eq_true.2 fun name h => ?_)
  exact List.all_eq_true.1 given name (before.subset h)

theorem child (enclosed : tree.IsEnclosed place) (directory : tree.isDirectory place = true)
    (name : String) : tree.IsEnclosed (place.child name) := by
  intro names before shorter
  rcases List.prefix_concat_iff.1 before with whole | before
  · exact absurd whole shorter
  · by_cases all : names = place.names
    · rw [all]
      exact directory
    · exact enclosed names before all

/-- Around an enclosed place is a directory, enclosed itself. -/
theorem parent (enclosed : tree.IsEnclosed place) :
    tree.IsEnclosed place.parent ∧ tree.isDirectory place.parent = true := by
  cases given : place.isGiven with
  | true =>
    have above := Place.isGiven_parent given
    exact ⟨of_isGiven above, isDirectory_of_isGiven above⟩
  | false =>
    have up : place.parent = ⟨place.absolute, place.names.dropLast⟩ := by
      rw [Place.parent, if_neg (by simp [given])]
    have some : place.names ≠ [] := by
      intro none
      rw [Place.isGiven, none] at given
      cases given
    have shorter {names : List String} (h : names <+: place.names.dropLast) :
        names ≠ place.names := by
      have := h.length_le
      have := List.length_pos_of_ne_nil some
      rintro rfl
      rw [List.length_dropLast] at *
      omega
    rw [up]
    exact ⟨fun names before _ => enclosed names (before.trans (List.dropLast_prefix _))
      (shorter before), enclosed _ (List.dropLast_prefix _) (shorter (List.prefix_rfl))⟩

theorem enter (enclosed : tree.IsEnclosed place) (directory : tree.isDirectory place = true)
    (part : List Char) : tree.IsEnclosed (place.enter part) := by
  unfold Place.enter
  split
  · exact enclosed
  split
  · exact enclosed.parent.1
  · exact enclosed.child directory _

end IsEnclosed

theorem isEnclosed_of_follow? {parts : List (List Char)} (enclosed : tree.IsEnclosed place)
    (leads : tree.follow? place parts = some found) : tree.IsEnclosed found := by
  induction parts generalizing place with
  | nil =>
    cases leads
    exact enclosed
  | cons part parts ih =>
    rw [follow?] at leads
    split at leads
    · next directory => exact ih (enclosed.enter directory part) leads
    · cases leads

/-- A path to something other than a directory ends in the name of its place. -/
theorem fileName?_of_place? (leads : tree.place? path = some place)
    (file : tree.isDirectory place = false) : path.fileName? = place.names.getLast? := by
  unfold place? at leads
  split at leads
  · cases leads
  obtain none | ⟨parts, last, split⟩ :=
    List.eq_nil_or_concat (Path.splitSlashes path.text.toList [])
  · rw [none] at leads
    cases leads
    rw [isDirectory_of_isGiven (by rfl)] at file
    cases file
  rw [List.concat_eq_append] at split
  rw [split] at leads
  obtain ⟨before, within, directory, rfl⟩ := exists_of_follow?_concat leads
  have enclosed : tree.IsEnclosed before := isEnclosed_of_follow? (.of_isGiven (by rfl)) within
  unfold Place.enter at file ⊢
  split at file
  · rw [directory] at file
    cases file
  next solid =>
  split at file
  · rw [enclosed.parent.2] at file
    cases file
  next name =>
  have component : Path.component? last = some (.name (String.ofList last)) := by
    rw [Path.component?, if_neg solid, if_neg name]
  have ends : path.components.getLast? = some (.name (String.ofList last)) := by
    simp only [Path.components, split, List.filterMap_append, List.filterMap_cons, component,
      List.filterMap_nil, ← List.append_assoc, List.getLast?_concat]
  rw [Path.fileName?, ends, if_neg solid, if_neg name]
  simp [Place.child]

/-! ## Saving -/

/-- A text was put at the place a path leads to, after directories were made above it. -/
structure IsSave (tree tree' : FileTree) (path : Path) (content : String) (place : Place) :
    Prop where
  leads : tree'.place? path = some place
  written : tree'.at? place = some (.text content)
  free : tree.isDirectory place = false
  others : ∀ other, other ≠ place → tree'.at? other = tree.at? other ∨
    other ∈ above path ∧ tree.at? other = none ∧ tree'.at? other = some .directory

/-- Saving writes the text, or makes directories at most. -/
theorem save_cases (tree : FileTree) (path : Path) (content : String) :
    (∃ tree' place, tree.save path content = (tree', true) ∧
      tree.IsSave tree' path content place) ∨
    ∃ tree', tree.save path content = (tree', false) ∧ tree.GrowsAt tree' (above path) := by
  have grows : tree.GrowsAt (tree.makeDirectories (startOf path) path.components.dropLast).1
      (above path) := growsAt_makeDirectories _
  unfold save
  generalize tree.makeDirectories (startOf path) path.components.dropLast = made at grows ⊢
  obtain ⟨between, made⟩ := made
  cases made with
  | false => exact .inr ⟨between, rfl, grows⟩
  | true =>
    show (∃ tree' place, between.write path content = (tree', true) ∧ _) ∨
      ∃ tree', between.write path content = (tree', false) ∧ _
    unfold write
    split
    · exact .inr ⟨between, rfl, grows⟩
    next place leads =>
    split
    · next allowed =>
      simp only [Bool.and_eq_true, Bool.not_eq_true'] at allowed
      obtain ⟨-, free⟩ := allowed
      refine .inl ⟨_, place, rfl, ?_, ?_, ?_, ?_⟩
      · exact place?_mono (fun _ => isDirectory_put free) leads
      · exact at?_put_self (not_isGiven_of_not_isDirectory free)
      · refine Bool.eq_false_iff.2 fun directory => ?_
        rw [isDirectory_iff.2 (grows.at?_of_some (isDirectory_iff.1 directory))] at free
        cases free
      · intro other different
        rw [at?_put_other different]
        exact grows other
    · exact .inr ⟨between, rfl, grows⟩

namespace IsSave

variable (saved : tree.IsSave tree' path content place)

include saved

theorem find?_self : tree'.find? path = some (.text content) := by
  rw [find?, saved.leads, Option.bind_some, saved.written]

theorem has_self : tree'.has path = true := by
  rw [has, saved.find?_self, Option.isSome_some]

theorem at?_of_some (different : other ≠ place) (stands : tree.at? other = some entry) :
    tree'.at? other = some entry := by
  rcases saved.others other different with kept | ⟨-, nothing, -⟩
  · rw [kept, stands]
  · rw [nothing] at stands
    cases stands

theorem isDirectory (directory : tree.isDirectory other = true) :
    tree'.isDirectory other = true := by
  have different : other ≠ place := by
    rintro rfl
    rw [saved.free] at directory
    cases directory
  exact isDirectory_iff.2 (saved.at?_of_some different (isDirectory_iff.1 directory))

/-- Every file is found where it was, or is the one that was written. -/
theorem find?_cases {path' : Path} (stands : tree.find? path' = some entry) :
    tree'.place? path' = some place ∨
      tree'.place? path' ≠ some place ∧ tree'.find? path' = some entry := by
  obtain ⟨place', leads, stands⟩ := exists_of_find? stands
  have still : tree'.place? path' = some place' := place?_mono (fun _ => saved.isDirectory) leads
  by_cases same : place' = place
  · exact .inl (same ▸ still)
  · refine .inr ⟨by rw [still]; exact fun h => same (Option.some.inj h), ?_⟩
    rw [find?, still, Option.bind_some, saved.at?_of_some same stands]

theorem has_mono {path' : Path} (stands : tree.has path' = true) : tree'.has path' = true := by
  obtain ⟨entry, stands⟩ := Option.isSome_iff_exists.1 stands
  rw [has]
  rcases saved.find?_cases stands with leads | ⟨-, found⟩
  · rw [find?, leads, Option.bind_some, saved.written, Option.isSome_some]
  · rw [found, Option.isSome_some]

/-- What leads to the text that was written has the same name at the end. -/
theorem fileName?_eq {path' : Path} (leads : tree'.place? path' = some place) :
    path'.fileName? = path.fileName? := by
  have file : tree'.isDirectory place = false := by
    rw [FileTree.isDirectory, saved.written]
    rfl
  rw [fileName?_of_place? leads file, fileName?_of_place? saved.leads file]

end IsSave

/-- A text that was saved is found at its path. -/
theorem find?_of_save (saved : tree.save path content = (tree', true)) :
    tree'.find? path = some (.text content) := by
  obtain ⟨_, place, outcome, isSave⟩ | ⟨_, outcome, -⟩ := save_cases tree path content
  · cases saved.symm.trans outcome
    exact isSave.find?_self
  · cases saved.symm.trans outcome

end FileTree

end ServiceContract
