import Pulse.Api.RetryPolicies

/-! What the stored retry policies satisfy: a PATCH is checked field by field, and only creation
compares the two delays. -/
namespace Pulse.RetryPolicies
open Library.Lts

/-- No field is null and every field meets its constraints. -/
structure PolicyRow.FieldsMeet (row : PolicyRow) : Prop where
  name : row.name ≠ none
  strategy : row.strategy ≠ none
  base : ∃ base, row.baseDelaySec = some base ∧ 0 ≤ base
  max : ∃ max, row.maxDelaySec = some max ∧ 0 ≤ max
  attempts : ∃ attempts, row.maxAttempts = some attempts ∧ 1 ≤ attempts ∧ attempts ≤ 100
  jitter : ∃ jitter, row.jitterPct = some jitter ∧ 0 ≤ jitter ∧ jitter ≤ 1

/-- What creation requires of a row. -/
structure PolicyRow.WellFormed (row : PolicyRow) : Prop extends row.FieldsMeet where
  ordered : ∀ base ∈ row.baseDelaySec, ∀ max ∈ row.maxDelaySec, base ≤ max

def AllWellFormed (table : List PolicyRow) : Prop := ∀ row ∈ table, row.WellFormed

/-- The requests change a table of well-formed rows, which may be empty. -/
def policies : Machine (List PolicyRow) Request where
  init := AllWellFormed
  step := step

/-- Where an admitted PATCH is written, the delays which it sends and those which are stored are
in order. -/
def Orders (table : List PolicyRow) : Request → Prop
  | .update policyId access body => access.isOk = true → body.valid = true → ∀ row ∈ table,
      row.id = policyId → ∀ base ∈ body.baseDelaySec.getD row.baseDelaySec,
        ∀ max ∈ body.maxDelaySec.getD row.maxDelaySec, base ≤ max
  | .create .. => True

instance (table : List PolicyRow) : (request : Request) → Decidable (Orders table request)
  | .update policyId _ body => inferInstanceAs (Decidable (_ → _ → ∀ row ∈ table,
      row.id = policyId → ∀ base ∈ body.baseDelaySec.getD row.baseDelaySec,
        ∀ max ∈ body.maxDelaySec.getD row.maxDelaySec, base ≤ max))
  | .create .. => isTrue trivial

/-- What a request does to the table. -/
inductive Answered (rows : List PolicyRow) : Request → List PolicyRow → Prop where
  | created {id access body} (valid : body.valid = true) :
      Answered rows (.create id access body) (rows ++ [body.row id])
  | updated {policyId access body} (admitted : access.isOk = true) (valid : body.valid = true) :
      Answered rows (.update policyId access body) (rows.map (onId PolicyRow.id policyId body.write))
  | refused {request} : Answered rows request rows

section Rows
variable {row : PolicyRow} {table next : List PolicyRow} {request : Request}

/-! What a PATCH leaves in a field which it does not null. -/

theorem sent_value {α : Type} {constraint : α → Bool} {property : α → Prop} {sent : Sent α}
    {stored : Option α} (implies : ∀ value, constraint value = true → property value)
    (sound : ∃ value, stored = some value ∧ property value)
    (meets : sent.meets constraint = true) (given : sent.isNull = false) :
    ∃ value, sent.getD stored = some value ∧ property value := by
  cases sent with
  | none => exact sound
  | some value =>
    cases value with
    | none => cases given
    | some value => exact ⟨value, rfl, implies value meets⟩

theorem sent_some {α : Type} {sent : Sent α} {stored : Option α} (sound : stored ≠ none)
    (given : sent.isNull = false) : sent.getD stored ≠ none := by
  cases sent with
  | none => exact sound
  | some value =>
    cases value with
    | none => cases given
    | some value => exact Option.some_ne_none value

theorem RetryPolicyUpdate.not_null {body : RetryPolicyUpdate}
    (accepted : body.rejectNull.isEmpty = true) :
    body.name.isNull = false ∧ body.strategy.isNull = false ∧ body.baseDelaySec.isNull = false ∧
      body.maxDelaySec.isNull = false ∧ body.maxAttempts.isNull = false ∧
      body.jitterPct.isNull = false := by
  simpa [RetryPolicyUpdate.rejectNull, RetryPolicyUpdate.nulls, List.filterMap_eq_nil_iff] using
    accepted

/-- The check of the fields which are sent keeps every field sound. -/
theorem PolicyRow.FieldsMeet.write {body : RetryPolicyUpdate} (meets : row.FieldsMeet)
    (valid : body.valid = true) : (body.write row).FieldsMeet := by
  simp only [RetryPolicyUpdate.valid, Bool.and_eq_true] at valid
  obtain ⟨⟨⟨⟨⟨_, base⟩, max⟩, attempts⟩, jitter⟩, accepted⟩ := valid
  obtain ⟨name, strategy, based, capped, tried, jittered⟩ := RetryPolicyUpdate.not_null accepted
  refine ⟨sent_some meets.name name, sent_some meets.strategy strategy, ?_, ?_, ?_, ?_⟩
  · refine sent_value (fun value within => ?_) meets.base base based
    simp only [baseDelayField, Bool.and_eq_true, decide_eq_true_eq] at within
    exact within.1
  · refine sent_value (fun value within => ?_) meets.max max capped
    simp only [maxDelayField, Bool.and_eq_true, decide_eq_true_eq] at within
    exact within.1
  · refine sent_value (fun value within => ?_) meets.attempts attempts tried
    simpa [maxAttemptsField] using within
  · refine sent_value (fun value within => ?_) meets.jitter jitter jittered
    simpa [jitterField] using within

theorem RetryPolicyCreate.wellFormed {body : RetryPolicyCreate} (valid : body.valid = true)
    (id : Uuid) : (body.row id).WellFormed := by
  simp only [RetryPolicyCreate.valid, baseDelayField, maxDelayField, maxAttemptsField, jitterField,
    Bool.and_eq_true, decide_eq_true_eq] at valid
  obtain ⟨⟨⟨⟨⟨_, base, _⟩, max, _⟩, attempts⟩, jitter⟩, accepted⟩ := valid
  have ordered : body.baseDelaySec ≤ body.maxDelaySec := by
    unfold RetryPolicyCreate.maxNotBelowBase at accepted
    split at accepted
    · cases accepted
    · omega
  refine ⟨⟨Option.some_ne_none _, Option.some_ne_none _, ⟨_, rfl, base⟩, ⟨_, rfl, max⟩,
    ⟨_, rfl, attempts⟩, ⟨_, rfl, jitter⟩⟩, ?_⟩
  rintro _ ⟨rfl⟩ _ ⟨rfl⟩
  exact ordered

theorem createRetryPolicy_answered {id : Uuid} {access : Except ApiError Unit}
    {body : RetryPolicyCreate} (made : createRetryPolicy table id access body = .ok next) :
    Answered table (.create id access body) next := by
  unfold createRetryPolicy at made
  split at made
  · cases made
  · rename_i valid
    split at made
    · cases made
    · split at made
      · cases made
      · split at made
        · cases made
        · cases made
          exact .created (by simpa using valid)

theorem updateRetryPolicy_answered {policyId : Uuid} {access : Except ApiError Unit}
    {body : RetryPolicyUpdate} (made : updateRetryPolicy table policyId access body = .ok next) :
    Answered table (.update policyId access body) next := by
  unfold updateRetryPolicy at made
  split at made
  · cases made
  · rename_i valid
    split at made
    · cases made
    · split at made
      · cases made
      · split at made
        · cases made
        · cases made
          exact .updated rfl (by simpa using valid)

theorem step_answered (taken : step table request = some next) : Answered table request next := by
  unfold step at taken
  split at taken
  · rename_i rows made
    cases Option.some.inj taken
    cases request with
    | create => exact createRetryPolicy_answered made
    | update => exact updateRetryPolicy_answered made
  · cases Option.some.inj taken
    exact .refused

/-- An admitted PATCH of a stored row is written. -/
theorem update_written {policyId : Uuid} {access : Except ApiError Unit} {body : RetryPolicyUpdate}
    (sound : AllWellFormed table) (admitted : access.isOk = true) (valid : body.valid = true)
    (present : row ∈ table) (same : row.id = policyId) :
    step table (.update policyId access body) =
      some (table.map (onId PolicyRow.id policyId body.write)) := by
  obtain ⟨stored, found⟩ : ∃ stored, table.find? (fun row => row.id = policyId) = some stored :=
    Option.isSome_iff_exists.mp (List.find?_isSome.mpr ⟨row, present, by simpa using same⟩)
  have meets := (sound stored (List.mem_of_find?_eq_some found)).toFieldsMeet.write valid
  have complete : (body.write stored).complete = true := by
    obtain ⟨name, strategy, ⟨_, base, _⟩, ⟨_, max, _⟩, ⟨_, attempts, _⟩, ⟨_, jitter, _⟩⟩ := meets
    simp [PolicyRow.complete, base, max, attempts, jitter, Option.isSome_iff_ne_none, name, strategy]
  cases access with
  | error => cases admitted
  | ok =>
    simp only [step, answer, updateRetryPolicy, valid, found, complete, Bool.not_true,
      Bool.false_eq_true, if_false]

theorem AllWellFormed.step (sound : AllWellFormed table) (orders : Orders table request)
    (taken : step table request = some next) : AllWellFormed next := by
  cases step_answered taken with
  | @created id access body valid =>
    intro row member
    rcases List.mem_append.mp member with old | new
    · exact sound row old
    · rw [List.mem_singleton.mp new]
      exact RetryPolicyCreate.wellFormed valid id
  | @updated policyId access body admitted valid =>
    intro written member
    obtain ⟨stored, present, rfl⟩ := List.mem_map.mp member
    unfold onId
    split
    · rename_i same
      exact ⟨(sound stored present).write valid, orders admitted valid stored present same⟩
    · exact sound stored present
  | refused => exact sound

/-- A PATCH which puts the delays out of order leaves them so. -/
theorem misordered (sound : AllWellFormed table) (taken : step table request = some next)
    (broken : ¬ Orders table request) : ¬ AllWellFormed next := by
  intro kept
  apply broken
  cases request with
  | create => trivial
  | update policyId access body =>
    intro admitted valid stored present same base sent max bound
    rw [update_written sound admitted valid present same] at taken
    cases Option.some.inj taken
    have written : body.write stored ∈ table.map (onId PolicyRow.id policyId body.write) :=
      List.mem_map.mpr ⟨stored, present, if_pos same⟩
    exact (kept _ written).ordered base sent max bound

end Rows

/-- In every run in which no admitted PATCH puts the stored delays out of order, every stored
policy satisfies what creation requires; the first which does leaves a policy which does not. -/
theorem policies_wellFormed (table : List PolicyRow) :
    (policies.Reachable Orders table → AllWellFormed table) ∧
    ∀ request next, policies.Reachable Orders table → policies.step table request = some next →
      ¬ Orders table request → ¬ AllWellFormed next := by
  have holds : ∀ table, policies.Reachable Orders table → AllWellFormed table := by
    intro table reachable
    refine reachable.invariant (fun _ initial => initial) ?_
    intro state request next sound orders taken
    exact AllWellFormed.step sound orders taken
  refine ⟨holds table, ?_⟩
  intro request next reachable taken broken
  exact misordered (holds table reachable) taken broken

/-- A policy whose delays go from five seconds to five minutes. -/
def fiveMinutes : RetryPolicyCreate where
  projectId := 1
  name := "default"
  strategy := .exponential
  baseDelaySec := 5
  maxDelaySec := 300
  maxAttempts := 3

theorem no_policies : AllWellFormed [] :=
  fun _ member => absurd member List.not_mem_nil

/-- The maximum is raised first. -/
theorem policies_wellFormed_raised :
    AllWellFormed [{ fiveMinutes.row 2 with maxDelaySec := some 900, baseDelaySec := some 600 }] := by
  have ran : policies.run Orders [] [.create 2 (.ok ()) fiveMinutes,
      .update 2 (.ok ()) { maxDelaySec := some (some 900) },
      .update 2 (.ok ()) { baseDelaySec := some (some 600) }] =
        some [{ fiveMinutes.row 2 with maxDelaySec := some 900, baseDelaySec := some 600 }] := by
    decide +kernel
  exact (policies_wellFormed _).1 ⟨[], no_policies, Machine.path_of_run _ ran⟩

/-- Each request is admitted, and a retry now waits ten minutes at least and five at most. -/
theorem policies_misordered : ∃ table, policies.Reachable anyStep table ∧ ¬ AllWellFormed table := by
  have ran : policies.run anyStep [] [.create 2 (.ok ()) fiveMinutes,
      .update 2 (.ok ()) { baseDelaySec := some (some 600) }] =
        some [{ fiveMinutes.row 2 with baseDelaySec := some 600 }] := by
    decide +kernel
  refine ⟨_, ⟨[], no_policies, Machine.path_of_run _ ran⟩, fun sound => ?_⟩
  exact absurd ((sound _ List.mem_cons_self).ordered 600 rfl 300 rfl) (by decide)

end Pulse.RetryPolicies
