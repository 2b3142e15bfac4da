import ServiceContract.Batch
import ServiceContract.Proofs.Contract.Relocation

/-!
# What a batch reports

A batch reports what its documents come to on their own (`failures`), up to its limit: one defect
where it ends at the first, else as many as are asked for, else all. The walk looks at its limit
after each defect, so it goes on while fewer than that were found (`collect_of_limit`).
-/

namespace ServiceContract.Batch

/-- The defects of the documents from a position on, each document being checked on its own at the
root, with `$[i]` for the `$` that the path begins with. -/
def failures (scope : Scope) (index : Nat) (documents : List Json) : List Defect :=
  (documents.zipIdx index).flatMap fun (document, i) =>
    (Contract.defects scope document).list.map (·.relocate (Location.root.item i))

/-- How many defects a batch reports at most. -/
def limit? (batch : Batch) : Option Nat :=
  if batch.failFast then some 1
  else if 0 < batch.maxErrors then some batch.maxErrors
  else none

/-- The part of a list of defects that a batch reports. -/
def capped (batch : Batch) (list : List Defect) : List Defect :=
  match batch.limit? with
  | some n => list.take n
  | none => list

variable {batch : Batch} {scope : Scope} {found index n : Nat} {document : Json}
  {documents later : List Json} {e : Defect} {list : List Defect}

/-! ## Documents on their own -/

theorem failures_nil : failures scope index [] = [] := rfl

theorem failures_cons_of_ok (h : Contract.check scope document = .ok ()) :
    failures scope index (document :: documents) = failures scope (index + 1) documents := by
  have none : (Contract.defects scope document).list = [] := by rw [Contract.defects, h]; rfl
  simp [failures, List.zipIdx_cons, none]

theorem failures_cons_of_error (h : Contract.check scope document = .error e) :
    failures scope index (document :: documents) =
      e.relocate (Location.root.item index) :: failures scope (index + 1) documents := by
  have one : (Contract.defects scope document).list = [e] := by rw [Contract.defects, h]; rfl
  simp [failures, List.zipIdx_cons, one]

theorem failures_append : failures scope index (documents ++ later) =
    failures scope index documents ++ failures scope (index + documents.length) later := by
  rw [failures, List.zipIdx_append, List.flatMap_append, failures, failures]

/-! ## The limit -/

theorem limit?_pos (h : batch.limit? = some n) : 0 < n := by
  unfold limit? at h
  split at h
  · cases h
    exact Nat.one_pos
  · split at h
    · cases h
      assumption
    · cases h

/-- After a defect the walk ends when the limit is reached. -/
theorem reached_succ_iff :
    batch.reached (found + 1) ↔ ∃ n, batch.limit? = some n ∧ n ≤ found + 1 := by
  unfold reached limit?
  cases batch.failFast with
  | true => simp
  | false => by_cases h : 0 < batch.maxErrors <;> simp [h]

theorem capped_of_limit (h : batch.limit? = some n) : batch.capped list = list.take n := by
  rw [capped, h]

theorem capped_of_unlimited (h : batch.limit? = none) : batch.capped list = list := by
  rw [capped, h]

theorem capped_eq_nil_iff : batch.capped list = [] ↔ list = [] := by
  cases h : batch.limit? with
  | none => rw [capped_of_unlimited h]
  | some n =>
    have hn : n ≠ 0 := Nat.pos_iff_ne_zero.1 (limit?_pos h)
    rw [capped_of_limit h, List.take_eq_nil_iff]
    simp [hn]

/-! ## The walk -/

theorem collect_cons_of_ok (h : Contract.check batch.scope document = .ok ()) :
    batch.collect found index (document :: documents) =
      batch.collect found (index + 1) documents := by
  rw [collect, Contract.checkDocument_eq_relocate, h]
  rfl

theorem collect_cons_of_error (h : Contract.check batch.scope document = .error e) :
    batch.collect found index (document :: documents) =
      e.relocate (Location.root.item index) :: if batch.reached (found + 1) then []
        else batch.collect (found + 1) (index + 1) documents := by
  rw [collect, Contract.checkDocument_eq_relocate, h]
  show (if batch.reached (found + 1) then _ else _) = _
  split <;> rfl

theorem collect_of_unlimited (h : batch.limit? = none) :
    batch.collect found index documents = failures batch.scope index documents := by
  induction documents generalizing found index with
  | nil => rfl
  | cons document documents ih =>
    have goesOn : ¬batch.reached (found + 1) := by simp [reached_succ_iff, h]
    cases hd : Contract.check batch.scope document with
    | ok => rw [collect_cons_of_ok hd, failures_cons_of_ok hd, ih]
    | error e => rw [collect_cons_of_error hd, failures_cons_of_error hd, if_neg goesOn, ih]

/-- With fewer defects found than the limit, as many are collected as are left of it. -/
theorem collect_of_limit (h : batch.limit? = some n) (left : found < n) :
    batch.collect found index documents =
      (failures batch.scope index documents).take (n - found) := by
  induction documents generalizing found index with
  | nil => simp [collect, failures_nil]
  | cons document documents ih =>
    have reached : batch.reached (found + 1) ↔ n ≤ found + 1 := by simp [reached_succ_iff, h]
    cases hd : Contract.check batch.scope document with
    | ok => rw [collect_cons_of_ok hd, failures_cons_of_ok hd, ih left]
    | error e =>
      obtain ⟨more, hmore⟩ : ∃ more, n - found = more + 1 := ⟨n - found - 1, by omega⟩
      rw [collect_cons_of_error hd, failures_cons_of_error hd, hmore, List.take_succ_cons]
      congr 1
      by_cases hn : n ≤ found + 1
      · obtain rfl : more = 0 := by omega
        rw [if_pos (reached.2 hn), List.take_zero]
      · rw [if_neg (mt reached.1 hn), ih (by omega)]
        congr 1
        omega

theorem collect_eq_capped (batch : Batch) (documents : List Json) :
    batch.collect 0 0 documents = batch.capped (failures batch.scope 0 documents) := by
  cases h : batch.limit? with
  | none => rw [collect_of_unlimited h, capped_of_unlimited h]
  | some n => rw [collect_of_limit h (limit?_pos h), capped_of_limit h, Nat.sub_zero]

theorem result_eq_ok_iff : (Defects.mk list).result = .ok () ↔ list = [] := by
  cases list with
  | nil => exact ⟨fun _ => rfl, fun _ => rfl⟩
  | cons => exact ⟨nofun, nofun⟩

theorem result_of_ne_nil (h : list ≠ []) : (Defects.mk list).result = .error ⟨list⟩ := by
  cases list with
  | nil => exact absurd rfl h
  | cons => rfl

theorem check_eq_capped (batch : Batch) (documents : List Json) :
    batch.check documents =
      (Defects.mk (batch.capped (failures batch.scope 0 documents))).result := by
  rw [check, collect_eq_capped]

theorem check_eq_ok_iff :
    batch.check documents = .ok () ↔ failures batch.scope 0 documents = [] := by
  rw [check_eq_capped, result_eq_ok_iff, capped_eq_nil_iff]

theorem check_of_failures (h : failures batch.scope 0 documents ≠ []) :
    batch.check documents = .error ⟨batch.capped (failures batch.scope 0 documents)⟩ := by
  rw [check_eq_capped, result_of_ne_nil (mt capped_eq_nil_iff.1 h)]

/-! ## Other limits, more documents -/

/-- A higher limit, or none, reports more at the end. -/
theorem capped_prefix {m : Nat} (hm : 0 < m) (h : m ≤ n ∨ n = 0) (batch : Batch)
    (list : List Defect) :
    { batch with maxErrors := m }.capped list <+: { batch with maxErrors := n }.capped list := by
  unfold capped limit?
  cases batch.failFast with
  | true => exact List.prefix_rfl
  | false =>
    rcases h with h | rfl
    · have hn : 0 < n := by omega
      simpa [hm, hn] using List.take_prefix_take_left h
    · simpa [hm] using List.take_prefix m list

theorem check_extends {m : Nat} {ds : Defects} (hm : 0 < m) (h : m ≤ n ∨ n = 0)
    (hds : { batch with maxErrors := m }.check documents = .error ds) :
    ∃ more, { batch with maxErrors := n }.check documents = .error ⟨ds.list ++ more⟩ := by
  have hne : failures batch.scope 0 documents ≠ [] := fun hnil => by
    have passes : { batch with maxErrors := m }.check documents = .ok () := check_eq_ok_iff.2 hnil
    rw [hds] at passes
    cases passes
  have reports (n : Nat) : { batch with maxErrors := n }.check documents =
      .error ⟨{ batch with maxErrors := n }.capped (failures batch.scope 0 documents)⟩ :=
    check_of_failures hne
  obtain rfl := Except.error.inj (hds.symm.trans (reports m))
  obtain ⟨more, hmore⟩ := capped_prefix hm h batch (failures batch.scope 0 documents)
  exact ⟨more, by rw [reports n, ← hmore]⟩

theorem check_append (h : batch.limit? = some n)
    (full : n ≤ (failures batch.scope 0 documents).length) (later : List Json) :
    batch.check (documents ++ later) = batch.check documents := by
  rw [check_eq_capped, check_eq_capped, capped_of_limit h, capped_of_limit h, failures_append,
    List.take_append_of_le_length full]

theorem check_failFast (batch : Batch) (documents : List Json) :
    { batch with failFast := true }.check documents =
      { batch with failFast := false, maxErrors := 1 }.check documents := by
  rw [check_eq_capped, check_eq_capped]
  rfl

/-- A batch reports the defects of its documents on their own, up to its limit. -/
theorem check_reports_failures (batch : Batch) (documents : List Json) :
    -- The path of a defect begins with `$`, for which a failure has the position of its document.
    (∀ document e, Contract.check batch.scope document = .error e → ∃ rest, e.path = "$" ++ rest ∧
      ∀ i, e.relocate (Location.root.item i) =
        { e with path := "$[" ++ toString i ++ "]" ++ rest }) ∧
    -- The failures are reported up to the limit.
    (batch.check documents = .ok () ↔ failures batch.scope 0 documents = []) ∧
    (failures batch.scope 0 documents ≠ [] →
      batch.check documents = .error ⟨batch.capped (failures batch.scope 0 documents)⟩) ∧
    -- To end at the first defect is to ask for one, whatever else is asked for.
    ({ batch with failFast := true }.check documents =
      { batch with failFast := false, maxErrors := 1 }.check documents) ∧
    -- A higher limit, or none, only reports more at the end.
    (∀ m n ds, 0 < m → m ≤ n ∨ n = 0 →
      { batch with maxErrors := m }.check documents = .error ds →
      ∃ more, { batch with maxErrors := n }.check documents = .error ⟨ds.list ++ more⟩) ∧
    -- Where the limit is reached, no later document matters.
    ∀ n later, batch.limit? = some n → n ≤ (failures batch.scope 0 documents).length →
      batch.check (documents ++ later) = batch.check documents := by
  refine ⟨fun document e rejected => ?_, check_eq_ok_iff, check_of_failures,
    check_failFast batch documents, fun m n ds => check_extends, fun n later h full =>
      check_append h full later⟩
  obtain ⟨rest, hrest⟩ := Contract.exists_path_of_rejected rejected
  exact ⟨rest, hrest, fun i => Defect.relocate_of_path hrest _⟩

/-- Every second document is no object. -/
def mixed : List Json := [.object [], .null, .object [], .array []]

def mixedDefect : Defect :=
  { code := .documentNotObject
    message := "Expected the services document to be an object, found null"
    path := "$[1]"
    violation := ⟨"value_shape", "object", "null"⟩ }

theorem check_reports_failures_mixed :
    (failures .all 0 mixed ≠ [] ∧
      (Batch.mk .all false 1).check mixed = .error ⟨(failures .all 0 mixed).take 1⟩) ∧
    ((0 < 1 ∧ (1 ≤ 0 ∨ 0 = 0)) ∧ (Batch.mk .all false 1).check mixed = .error ⟨[mixedDefect]⟩ ∧
      ∃ more, (Batch.mk .all false 0).check mixed = .error ⟨[mixedDefect] ++ more⟩) ∧
    ((Batch.mk .all false 1).limit? = some 1 ∧ 1 ≤ (failures .all 0 mixed).length ∧
      (Batch.mk .all false 1).check (mixed ++ [.null]) = (Batch.mk .all false 1).check mixed) := by
  obtain ⟨-, -, reports, -, raised, ends⟩ := check_reports_failures (Batch.mk .all false 1) mixed
  have first : (Batch.mk .all false 1).check mixed = .error ⟨[mixedDefect]⟩ := by rfl
  have some : failures .all 0 mixed ≠ [] := nofun
  exact ⟨⟨some, reports some⟩, ⟨by decide, first, raised 1 0 _ (by decide) (by decide) first⟩,
    rfl, by decide, ends 1 [.null] rfl (by decide)⟩

end ServiceContract.Batch
