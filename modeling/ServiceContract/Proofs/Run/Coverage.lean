import ServiceContract.Proofs.CommandLine
import ServiceContract.Proofs.Run.Options
import ServiceContract.Proofs.Summary

/-!
# Nothing passes unseen

A document can pass although nothing in it was checked, when no key of it is in scope. An accepted
command line with usable settings always has a scope that could include a key, and never mixes the
groups of the two. Where a document still has no key in scope, the run says so: the warnings are
exactly the ones about such documents (`warnings_run_of_takes`), and any other document that passes
has a group that was checked.
-/

namespace ServiceContract

open Document (Loaded)

/-! ## Scopes -/

namespace Scope

/-- A scope that could include a key. -/
def IsUsable (scope : Scope) : Prop := scope.allGroups = true ∨ scope.groups ≠ []

/-- A document in which a scope finds no group: an object none of whose keys it includes. -/
inductive FindsNothing (scope : Scope) : Json → Prop
  | intro {members : Members} (outside : ∀ key ∈ members.keys, ¬scope.includes key) :
      FindsNothing scope (.object members)

variable {scope : Scope} {document : Json}

theorem touches_eq_false_iff : scope.touches document = false ↔ scope.FindsNothing document := by
  cases document with
  | object members =>
    have any : scope.touches (.object members) = (Members.keys members).any scope.includes := rfl
    rw [any, List.any_eq_false]
    exact ⟨.intro, fun ⟨outside⟩ => outside⟩
  | _ => exact ⟨nofun, nofun⟩

/-- Where nothing is found, nothing is wrong and nothing is listed. -/
theorem FindsNothing.passes (h : scope.FindsNothing document) :
    Contract.check scope document = .ok () ∧ Contract.summarize scope document = .ok [] := by
  obtain @⟨members, outside⟩ := h
  have unselected : scope.select members = [] :=
    List.filter_eq_nil_iff.2 fun _ hm => outside _ (List.mem_map_of_mem hm)
  have passes : Contract.check scope (.object members) = .ok () :=
    Contract.checkDocument_eq_ok_iff.2 <| .intro fun member hm inScope =>
      absurd inScope (outside _ (List.mem_map_of_mem hm))
  have unlisted : ServiceSummary.ofDocument scope (.object members) = [] :=
    congrArg (List.flatMap fun m : String × Json => ServiceSummary.ofGroup m.1 m.2) unselected
  refine ⟨passes, ?_⟩
  rw [Contract.summarize, passes, unlisted]
  rfl

/-- A document that passes either has a group that was checked, or nothing was found in it. -/
theorem exists_group_of_passes (passes : Contract.check scope document = .ok ())
    (found : ¬scope.FindsNothing document) :
    ∃ members key value, document = .object members ∧ (key, value) ∈ members ∧
      scope.includes key ∧ Contract.IsGroup value := by
  have conforms : Contract.IsDocument scope document := Contract.checkDocument_eq_ok_iff.1 passes
  obtain @⟨members, conform⟩ := conforms
  have inside : ∃ key ∈ Members.keys members, scope.includes key := by
    by_contra none
    exact found (.intro fun key hk inScope => none ⟨key, hk, inScope⟩)
  obtain ⟨key, hk, inScope⟩ := inside
  obtain ⟨member, hm, rfl⟩ := List.mem_map.1 hk
  exact ⟨members, member.1, member.2, rfl, hm, inScope, conform member hm inScope⟩

end Scope

theorem Settings.isUsable_of_validate {settings : Settings} (h : settings.validate = .ok ()) :
    settings.validation.IsUsable := by
  unfold Settings.validate at h
  split at h
  · cases h
  split at h
  · cases h
  next notEmpty =>
    cases all : settings.validation.allGroups with
    | true => exact .inl all
    | false => exact .inr fun none => notEmpty (by simp [all, none])

namespace ValidateArguments

variable {arguments : ValidateArguments} {configured : Scope}

/-- The scope is one of three, as they are: every key, the groups on the command line, or the
configured scope. -/
theorem scope_cases (arguments : ValidateArguments) (configured : Scope)
    (notBoth : ¬(arguments.allGroups = true ∧ arguments.groups ≠ [])) :
    (arguments.allGroups = true → arguments.scope configured = .all) ∧
    (arguments.groups ≠ [] → arguments.scope configured = .only arguments.groups) ∧
    (arguments.allGroups = false → arguments.groups = [] →
      arguments.scope configured = configured) := by
  refine ⟨fun all => if_pos all, fun named => ?_, fun notAll unnamed => ?_⟩
  · have notAll : ¬arguments.allGroups = true := fun all => notBoth ⟨all, named⟩
    have notEmpty : ¬arguments.groups.isEmpty = true := mt List.isEmpty_iff.1 named
    rw [scope, if_neg notAll, if_neg notEmpty]
  · rw [scope, if_neg (by simp [notAll]), if_pos (by simp [unnamed])]

theorem isUsable_scope (arguments : ValidateArguments) (usable : configured.IsUsable) :
    (arguments.scope configured).IsUsable := by
  unfold scope
  split
  · exact .inl rfl
  · split
    · exact usable
    next notEmpty => exact .inr (mt List.isEmpty_iff.2 notEmpty)

end ValidateArguments

/-! ## Warnings -/

def Console.Step.isWarning : Console.Step → Bool
  | .warning _ => true
  | _ => false

/-- A path has one document. -/
theorem Document.Loaded.path_injective {world : World} :
    Function.Injective fun d : Loaded world => d.path := by
  rintro ⟨path, document, loads⟩ ⟨path', document', loads'⟩ (rfl : path = path')
  obtain rfl := Except.ok.inj (loads.symm.trans loads')
  rfl

namespace ValidateArguments

variable {arguments : ValidateArguments} {configured scope : Scope} {world : World}
  {taken : List (Loaded world)} {stop : Option (Failure × Nat)} {d : Loaded world}
  {steps : List Console.Step}

/-- The line of a warning, which a quiet run writes, too. -/
def warningLine (color : Bool) (path : Path) : String :=
  let text := path.text ++ ": no service groups in scope, nothing to check"
  (if color then Text.Style.yellow.apply text else "WARNING: " ++ text) ++ "\n"

theorem render_warning (color quiet : Bool) (path : Path) :
    (Console.mk .human color quiet).render (warning path) = warningLine color path := rfl

theorem warning_injective : Function.Injective warning := by
  rintro ⟨text⟩ ⟨text'⟩ h
  exact congrArg Path.mk ((String.append_left_inj _).1 (Console.Step.warning.inj h))

/-- A warning is written about each document in which nothing is found, and about no other. -/
theorem warnings_run_of_takes (once : arguments.inputCount ≤ 1)
    (takes : Takes arguments.failFast (arguments.scope configured) world arguments.files taken
      stop) :
    (arguments.run configured world).1.filter Console.Step.isWarning =
      ((arguments.scope configured).untouched taken).map warning := by
  have each : ∀ step ∈ ((arguments.scope configured).untouched taken).map warning,
      step.isWarning = true := List.forall_mem_map.2 fun _ _ => rfl
  rw [run_of_takes once takes (forall₂_isReport_iff.2 rfl), List.filter_append, opening,
    List.filter_cons_of_neg (by simp [Console.Step.isWarning]), List.filter_eq_self.2 each]
  split <;> simp [Console.Step.isWarning]

theorem mem_untouched_iff (h : d ∈ taken) :
    d.path ∈ scope.untouched taken ↔ scope.FindsNothing d.document := by
  rw [Scope.untouched, List.mem_map_of_injective Loaded.path_injective, List.mem_filter,
    ← Scope.touches_eq_false_iff]
  simp [h]

theorem warning_mem_iff (once : arguments.inputCount ≤ 1)
    (takes : Takes arguments.failFast (arguments.scope configured) world arguments.files taken stop)
    (h : d ∈ taken) : warning d.path ∈ (arguments.run configured world).1 ↔
      (arguments.scope configured).FindsNothing d.document := by
  have filtered : warning d.path ∈ (arguments.run configured world).1 ↔
      warning d.path ∈ (arguments.run configured world).1.filter Console.Step.isWarning :=
    ⟨fun hw => List.mem_filter.2 ⟨hw, rfl⟩, fun hw => (List.mem_filter.1 hw).1⟩
  rw [filtered, warnings_run_of_takes once takes, List.mem_map_of_injective warning_injective,
    mem_untouched_iff h]

/-- A step stands in the text of all steps. -/
theorem exists_renderAll_of_mem (console : Console) {step : Console.Step} (h : step ∈ steps) :
    ∃ before after, console.renderAll steps = before ++ console.render step ++ after := by
  obtain ⟨first, last, rfl⟩ := List.append_of_mem h
  refine ⟨String.join (first.map console.render), String.join (last.map console.render), ?_⟩
  rw [Console.renderAll, List.map_append, List.map_cons, String.join_append, String.join_cons,
    String.append_assoc]

/-- A run checks something in every document it passes, or it says that it does not. -/
theorem nothing_passes_unseen (environment : Option String) (words : List String)
    (invocation : Invocation) (arguments : ValidateArguments) (settings : Settings) (world : World)
    (accepted : Invocation.read environment words = .ok invocation)
    (validates : invocation.command = .validate arguments) (valid : settings.validate = .ok ()) :
    let scope := arguments.scope settings.validation
    -- The groups are those on the command line, in order, and named only where not all are asked
    -- for. There is a file.
    (∃ levels r, CommandLine.read environment words = .ok levels ∧
      levels.getLast? = some (.validate, r) ∧ arguments.allGroups = r.has .allGroups ∧
      arguments.groups = r.values .group) ∧
    ¬(arguments.allGroups = true ∧ arguments.groups ≠ []) ∧ arguments.files ≠ [] ∧
    -- The scope could include a key, and the two places it may come from are not mixed.
    scope.IsUsable ∧
    ((arguments.allGroups = true → scope = .all) ∧
      (arguments.groups ≠ [] → scope = .only arguments.groups) ∧
      (arguments.allGroups = false → arguments.groups = [] → scope = settings.validation)) ∧
    ∀ taken stop, arguments.inputCount ≤ 1 →
      Takes arguments.failFast scope world arguments.files taken stop →
      let steps := (arguments.run settings.validation world).1
      -- There is a warning for each document in which nothing is found, in order,
      steps.filter Console.Step.isWarning =
        (taken.filter fun d => !scope.touches d.document).map (fun d => warning d.path) ∧
      ∀ d ∈ taken,
        (warning d.path ∈ steps ↔ scope.FindsNothing d.document) ∧
        -- and people see it even where the run is quiet.
        (∀ color quiet, warning d.path ∈ steps → ∃ before after,
          Console.renderAll ⟨.human, color, quiet⟩ steps =
            before ++ warningLine color d.path ++ after) ∧
        -- Such a document passes, with nothing to list;
        (scope.FindsNothing d.document → Contract.check scope d.document = .ok () ∧
          Contract.summarize scope d.document = .ok []) ∧
        -- one that passes without a warning has a group in scope.
        (Contract.check scope d.document = .ok () → warning d.path ∉ steps →
          ∃ members key value, d.document = .object members ∧ (key, value) ∈ members ∧
            scope.includes key ∧ Contract.IsGroup value) := by
  intro scope
  obtain ⟨levels, r, read, last, -, asRead⟩ := exists_reading_of_read accepted validates
  obtain ⟨named, notBoth⟩ := validateArguments_of_read accepted validates
  refine ⟨⟨levels, r, read, last, congrArg allGroups asRead, congrArg groups asRead⟩, notBoth, named,
    isUsable_scope arguments (Settings.isUsable_of_validate valid),
    scope_cases arguments _ notBoth, ?_⟩
  intro taken stop once takes steps
  refine ⟨?_, fun d hd => ?_⟩
  · exact (warnings_run_of_takes once takes).trans (List.map_map ..)
  have warned : warning d.path ∈ steps ↔ scope.FindsNothing d.document :=
    warning_mem_iff once takes hd
  refine ⟨warned, fun color quiet written => ?_, Scope.FindsNothing.passes,
    fun passes silent => ?_⟩
  · exact exists_renderAll_of_mem _ written
  · exact Scope.exists_group_of_passes passes (mt warned.2 silent)

/-- The arguments of `validate -g sms -`. -/
def smsOnInput : ValidateArguments :=
  { files := [⟨"-"⟩], allGroups := false, groups := ["sms"], failFast := false, detailed := false }

def noGroup : Loaded (withInput "\x7b\x7d" .empty) := ⟨⟨"-"⟩, .object [], by rfl⟩

def emptyGroup : Loaded (withInput "\x7b\"sms\": []\x7d" .empty) :=
  ⟨⟨"-"⟩, .object [("sms", .array [])], by rfl⟩

/-- Two documents pass under the scope of a command line, one with a warning and one without. -/
theorem nothing_passes_unseen_smsOnInput :
    let words := ["validate", "-g", "sms", "-"]
    let invocation : Invocation := ⟨0, false, none, none, false, .validate smsOnInput⟩
    let scope := smsOnInput.scope Settings.default.validation
    (Invocation.read none words = .ok invocation ∧ invocation.command = .validate smsOnInput ∧
      Settings.default.validate = .ok () ∧ scope = .only ["sms"]) ∧
    (smsOnInput.inputCount ≤ 1 ∧
      Takes false scope (withInput "\x7b\x7d" .empty) smsOnInput.files [noGroup] none ∧
      scope.FindsNothing noGroup.document ∧
      (∀ quiet, ∃ before after, Console.renderAll ⟨.human, false, quiet⟩
        (smsOnInput.run Settings.default.validation (withInput "\x7b\x7d" .empty)).1 = before ++
          "WARNING: -: no service groups in scope, nothing to check\n" ++ after) ∧
      Contract.summarize scope noGroup.document = .ok []) ∧
    (Contract.check scope emptyGroup.document = .ok () ∧
      Takes false scope (withInput "\x7b\"sms\": []\x7d" .empty) smsOnInput.files [emptyGroup] none ∧
      warning ⟨"-"⟩ ∉
        (smsOnInput.run Settings.default.validation (withInput "\x7b\"sms\": []\x7d" .empty)).1 ∧
      ∃ members key value, emptyGroup.document = .object members ∧ (key, value) ∈ members ∧
        scope.includes key ∧ Contract.IsGroup value) := by
  intro words invocation scope
  have accepted : Invocation.read none words = .ok invocation := by rfl
  have once : smsOnInput.inputCount ≤ 1 := by decide
  have seen (world : World) := nothing_passes_unseen none words invocation smsOnInput .default world
    accepted rfl rfl
  obtain ⟨-, -, -, -, ⟨-, named, -⟩, warns⟩ := seen (withInput "\x7b\x7d" .empty)
  obtain ⟨-, -, -, -, -, silent⟩ := seen (withInput "\x7b\"sms\": []\x7d" .empty)
  have takes : Takes false scope (withInput "\x7b\x7d" .empty) smsOnInput.files [noGroup] none :=
    .all rfl nofun
  have takes' : Takes false scope (withInput "\x7b\"sms\": []\x7d" .empty) smsOnInput.files
      [emptyGroup] none := .all rfl nofun
  have finds : scope.FindsNothing noGroup.document := .intro nofun
  obtain ⟨warned, shown, nothing, -⟩ := (warns _ _ once takes).2 _ (List.mem_singleton_self _)
  obtain ⟨silenced, -, -, covered⟩ := (silent _ _ once takes').2 _ (List.mem_singleton_self _)
  have passes : Contract.check scope emptyGroup.document = .ok () := by rfl
  have found : ¬scope.FindsNothing emptyGroup.document := by
    rintro ⟨outside⟩
    exact outside "sms" (by decide) (by decide)
  exact ⟨⟨accepted, rfl, rfl, named (by decide)⟩,
    ⟨once, takes, finds, fun quiet => shown false quiet (warned.2 finds), (nothing finds).2⟩,
    passes, takes', mt silenced.1 found, covered passes (mt silenced.1 found)⟩

end ValidateArguments

end ServiceContract
