import Pulse.System.Fenced

/-! Finality: a completed or cancelled job keeps its status, provided no scheduler
tick writes over a cancellation which it has not seen. -/
namespace Pulse
open Library.RowLock Library.Lts

/-- A status which no transaction is to change. -/
def JobStatus.final : JobStatus → Bool
  | .completed | .cancelled => true
  | _ => false

theorem JobStatus.cancelled_of_parked {status : JobStatus} (final : status.final = true)
    (parked : status.parked = true) : status = .cancelled := by
  cases status <;> simp_all [JobStatus.final, JobStatus.parked]

/-- The UPDATE of a tick does not reach a job cancelled since it was selected, unless
to cancel it or to evaluate its conditions again. -/
def WritesWaiting (state : System) : Action → Prop
  | .next sid input => match state.sessions sid with
    | .tick current =>
      match current.targets.find? fun target => target.jobId = input.jobId with
      | some target => target.recheck = false → target.change.status ≠ .cancelled →
          ∀ record ∈ state.db.jobs, record.job.id = input.jobId → record.job.status ≠ .cancelled
      | none => True
    | _ => True
  | _ => True

/-- The row which the tick of a session visits next. -/
def Session.visiting (jobId : Uuid) : Session → Option Target
  | .tick current => current.targets.find? fun target => target.jobId = jobId
  | _ => none

instance (state : System) : (action : Action) → Decidable (WritesWaiting state action)
  | .next sid input => decidable_of_iff (∀ target ∈ (state.sessions sid).visiting input.jobId,
      target.recheck = false → target.change.status ≠ .cancelled →
        ∀ record ∈ state.db.jobs, record.job.id = input.jobId → record.job.status ≠ .cancelled) (by
    cases stage : state.sessions sid with
    | tick current =>
      cases found : current.targets.find? fun target => target.jobId = input.jobId <;>
        simp [WritesWaiting, stage, Session.visiting, found]
    | _ => simp [WritesWaiting, stage, Session.visiting])
  | .begin .. | .fail .. | .submit .. | .exit .. | .reregister .. => isTrue trivial

/-- Every row of the job has the status in every state to which permitted steps lead. -/
def StatusStays (env : Environment) (allowed : System → Action → Prop) (state : System)
    (jobId : Uuid) (status : JobStatus) : Prop :=
  ∀ later, (pulse env).Path allowed state later →
    ∀ record ∈ later.db.jobs, record.job.id = jobId → record.job.status = status

/-- A tick has written over no cancellation. -/
def Session.Waited : Session → Prop
  | .tick current => ∀ write ∈ current.writes, write.found = .cancelled →
      write.change.status = .cancelled
  | _ => True

def Waited (state : System) : Prop := ∀ sid, (state.sessions sid).Waited

section Writes
variable {env : Environment} {state after : System} {sid : Sid}

theorem visitTarget_writes {current next : Tick} {jobId : Uuid} {locks : List Lock}
    (taken : visitTarget state sid current jobId = some (.hold (.tick next) locks)) :
    next.writes = current.writes ∨ ∃ target record,
      current.targets.find? (fun target => target.jobId = jobId) = some target ∧
        record ∈ state.db.jobs ∧ record.job.id = jobId ∧
        (target.recheck = true → record.job.due current.now = true) ∧
        next.writes = ⟨jobId, target.change, record.job.status⟩ :: current.writes := by
  unfold visitTarget at taken
  split at taken
  · cases taken
  · rename_i target found
    dsimp only at taken
    split at taken
    · cases Option.some.inj taken
      exact .inl rfl
    · cases Option.some.inj taken
    · rename_i record present
      obtain ⟨member, same⟩ := Db.findJob_some present
      split at taken
      · cases taken
      · split at taken
        · cases Option.some.inj taken
          exact .inl rfl
        · rename_i passed
          cases Option.some.inj taken
          refine .inr ⟨target, record, found, member, same, ?_, rfl⟩
          intro rechecked
          simpa [rechecked] using passed

/-- A statement of a tick writes over no cancellation where the condition holds. -/
theorem tickEffect_waited {current next : Tick} {input : Input} {locks : List Lock}
    (ticking : state.sessions sid = .tick current)
    (waiting : WritesWaiting state (.next sid input))
    (waited : (Session.tick current).Waited)
    (taken : tickEffect env state sid current input = some (.hold (.tick next) locks)) :
    (Session.tick next).Waited := by
  intro write member cancelled
  by_cases empty : current.targets = []
  · have advance := tickEffect_advance taken
    cases advance with
    | tickRead writes => exact waited write (writes ▸ member) cancelled
    | tickWrite chosen =>
      rw [empty] at chosen
      cases chosen
  · rw [tickEffect, if_pos empty] at taken
    rcases visitTarget_writes taken with same | ⟨target, record, found, there, named, due, new⟩
    · exact waited write (same ▸ member) cancelled
    · rw [new] at member
      rcases List.mem_cons.mp member with rfl | older
      · by_contra revived
        have rechecked : target.recheck = true := by
          by_contra unchecked
          simp only [WritesWaiting, ticking, found] at waiting
          exact waiting (by simpa using unchecked) revived record there named cancelled
        rcases due_waiting (due rechecked) with status | status
        · exact absurd (status.symm.trans cancelled) (by decide)
        · exact absurd (status.symm.trans cancelled) (by decide)
      · exact waited write older cancelled

theorem Advance.waited {session next : Session} {locks : List Lock}
    (advance : Advance env state session next locks) (other : ∀ current, session ≠ .tick current) :
    next.Waited := by
  cases advance with
  | select =>
    unfold handingOver
    split <;> trivial
  | tickRead | tickWrite => exact absurd rfl (other _)
  | tryTick => exact fun _ member => nomatch member
  | _ => trivial

theorem Waited.update (waited : Waited state) {next : Session} (own : next.Waited) :
    ∀ other, (Function.update state.sessions sid next other).Waited :=
  System.update_sessions (fun _ session => session.Waited) own fun other _ => waited other

theorem Waited.commit (waited : Waited state) {next : Session} {patch : Patch}
    (commits : Commits state sid next patch) : Waited (state.commit sid next patch) := by
  refine waited.update ?_
  have leaves := commits.leaves
  generalize state.sessions sid = session at leaves
  cases leaves <;> trivial

theorem Waited.step (waited : Waited state) (fenced : Fenced state) {action : Action}
    (waiting : WritesWaiting state action)
    (taken : Pulse.step env state action = some after) : Waited after := by
  cases step_cases fenced.base (fenced.guards action) taken with
  | @begin sid request _ idle performs =>
    cases performs with
    | hold advance =>
      rw [idle] at advance
      exact waited.update (advance.waited (by simp))
    | commit commits => exact waited.commit commits
    | rollback => exact waited.update trivial
  | @next sid input _ _ performs =>
    cases ticking : state.sessions sid with
    | tick current =>
      obtain ⟨effect, made, performed⟩ := next_effect taken
      have before := waited sid
      rw [ticking] at made before
      cases effect with
      | hold next locks =>
        obtain ⟨_, rfl⟩ := System.perform_hold performed
        refine waited.update ?_
        cases tickEffect_advance made with
        | tickRead | tickWrite => exact tickEffect_waited ticking waiting before made
      | commit next locks patch =>
        obtain ⟨_, rfl⟩ := System.perform_commit performed
        rw [← ticking] at made
        exact waited.commit (Session.effect_commits fenced.base made)
      | rollback =>
        cases Option.some.inj performed
        exact waited.update trivial
    | _ =>
      cases performs with
      | hold advance => exact waited.update (advance.waited (by simp [ticking]))
      | commit commits => exact waited.commit commits
      | rollback => exact waited.update trivial
  | fail => exact waited.update trivial
  | @submit sid newSid workerId task rest =>
    have handed : (handingOver workerId rest).Waited := by
      unfold handingOver
      split <;> trivial
    exact System.handed_forall (fun _ session => session.Waited) trivial handed
      fun other _ => waited other
  | exit => exact waited
  | reregister => exact waited

end Writes

section Finality
variable {env : Environment} {state after : System} {sid : Sid}

/-- No commit takes a job out of a final status but a tick's, over a cancellation. -/
theorem Move.final {session : Session} {record moved : JobRecord}
    (move : Move state session record moved) (sound : record.Sound state.nextUuid)
    (waited : session.Waited) (final : record.job.status.final = true) :
    moved.job.status = record.job.status := by
  have resting : record.job.status.resting = true := by
    cases status : record.job.status <;> simp_all [JobStatus.final, JobStatus.resting]
  rcases move.rests sound resting with same | ⟨scheduled, _⟩ |
    ⟨current, write, rfl, member, _, found, parked, rfl⟩
  · exact same
  · simp [scheduled, JobStatus.final] at final
  · rw [found] at parked
    have cancelled := JobStatus.cancelled_of_parked final parked
    rw [Change.write_status, cancelled]
    exact waited _ member (found.trans cancelled)

/-- Every row of the job has the status. -/
structure Settled (jobId : Uuid) (status : JobStatus) (state : System) : Prop where
  known : jobId < state.nextUuid
  rows : ∀ record ∈ state.db.jobs, record.job.id = jobId → record.job.status = status

variable {jobId : Uuid} {status : JobStatus}

theorem Settled.performs (settled : Settled jobId status state) (final : status.final = true)
    (base : Base state) (waited : Waited state) (performs : Performs env state sid after) :
    Settled jobId status after := by
  have known := settled.known
  cases performs with
  | hold => exact ⟨show jobId < 2 * state.nextUuid by lia, settled.rows⟩
  | @commit next patch commits =>
    refine ⟨show jobId < 2 * state.nextUuid + patch.newJobs.length by lia, ?_⟩
    rintro record member rfl
    rcases commits.origin member with ⟨old, present, _, _, move⟩ | ⟨job, inserted, rfl⟩
    · have held := settled.rows old present move.job_id.symm
      rw [move.final (base.sound old present) (waited sid) (held ▸ final), held]
    · have above := (commits.inserted job inserted).2.1
      exact absurd known (Nat.not_lt.mpr above)
  | rollback => exact ⟨known, settled.rows⟩

theorem Settled.step (settled : Settled jobId status state) (final : status.final = true)
    (base : Base state) (waited : Waited state) {action : Action}
    (guards : GuardsToken state action)
    (taken : Pulse.step env state action = some after) : Settled jobId status after := by
  have known := settled.known
  cases step_cases base guards taken with
  | begin _ performs | next _ performs => exact settled.performs final base waited performs
  | fail => exact settled.performs final base waited (.rollback : Performs env state _ _)
  | submit | exit => exact ⟨known, settled.rows⟩
  | reregister => exact ⟨show jobId < 2 * state.nextUuid by lia, settled.rows⟩

theorem Waited.reachable (returning : env.handover = .returning)
    (reachable : (pulse env).Reachable WritesWaiting state) : Fenced state ∧ Waited state := by
  refine @Machine.Reachable.invariant _ _ (pulse env) WritesWaiting
    (fun state => Fenced state ∧ Waited state) ?_ ?_ state reachable
  · rintro _ rfl
    exact ⟨initial_fenced, fun _ => trivial⟩
  · rintro earlier action next ⟨fenced, waited⟩ waiting taken
    exact ⟨fenced.step (returning_hands returning earlier action) taken,
      waited.step fenced waiting taken⟩

theorem Settled.stays (settled : Settled jobId status state) (final : status.final = true)
    (returning : env.handover = .returning)
    (reachable : (pulse env).Reachable WritesWaiting state) :
    StatusStays env WritesWaiting state jobId status := by
  intro later path
  have kept : (Fenced later ∧ Waited later) ∧ Settled jobId status later := by
    refine @Machine.Path.preserves _ _ (pulse env) WritesWaiting
      (fun state => (Fenced state ∧ Waited state) ∧ Settled jobId status state) ?_ _ _ path
      ⟨Waited.reachable returning reachable, settled⟩
    rintro earlier action next ⟨⟨fenced, waited⟩, settled⟩ waiting taken
    exact ⟨⟨fenced.step (returning_hands returning earlier action) taken,
      waited.step fenced waiting taken⟩,
      settled.step final fenced.base waited (fenced.guards action) taken⟩
  exact kept.2.rows

/-- In every run whose ticks write over no cancellation: a completed or cancelled job
keeps its status in every later state, in particular from the commit which answers
`POST /cancel`. -/
theorem finality (returning : env.handover = .returning)
    (reachable : (pulse env).Reachable WritesWaiting state) :
    (∀ record ∈ state.db.jobs, record.job.status.final = true →
      StatusStays env WritesWaiting state record.job.id record.job.status) ∧
    ∀ sid jobId input after, state.sessions sid = .cancelling jobId →
      step env state (.next sid input) = some after → StatusStays env WritesWaiting after jobId .cancelled := by
  obtain ⟨fenced, waited⟩ := Waited.reachable returning reachable
  constructor
  · intro record member final
    refine Settled.stays ⟨(fenced.base.sound record member).id_lt, ?_⟩ final returning reachable
    intro other present same
    rw [unique_record fenced.base.distinct present member same]
  · intro sid jobId input after cancelling taken
    have permitted : WritesWaiting state (.next sid input) := by
      simp [WritesWaiting, cancelling]
    refine Settled.stays ?_ rfl returning (reachable.extend permitted taken)
    obtain ⟨effect, made, performed⟩ := next_effect taken
    rw [cancelling] at made
    cases Option.some.inj made
    obtain ⟨_, rfl⟩ := System.perform_commit performed
    obtain ⟨target, there, named, _⟩ := fenced.base.expects sid jobId (by
      rw [cancelling]
      exact List.mem_singleton.mpr rfl)
    have known := (fenced.base.sound target there).id_lt
    refine ⟨?_, ?_⟩
    · show jobId < 2 * state.nextUuid + 0
      lia
    · intro record member same
      rcases mem_apply_jobs.mp member with ⟨old, _, _, rfl⟩ | ⟨job, inserted, _⟩
      · dsimp only [onJob, onId] at same ⊢
        split
        · rfl
        · rename_i other
          rw [if_neg other] at same
          exact absurd same other
      · cases inserted

end Finality

/-- A job which waits for the completed one is about to be released when it is
cancelled. -/
def cancelledInTick : List Action := executedOnce ++ [
  .next 10 {},
  .next 10 {},
  .begin 0 (.api 0 (.createJob
    { queueId := 1, type := .immediate, handler := "noop", dependsOn := some [8] })),
  .begin 4 (.tick 0),
  .next 4 {},
  .next 4 {},
  .next 4 {},
  .next 4 {},
  .next 4 {},
  .begin 5 (.cancelJob 8704),
  .next 5 {}]

theorem finality_executed : ∃ state, (pulse (sample .returning)).Reachable WritesWaiting state ∧
    statusById state.db.jobs 8 = some .completed ∧
    statusById state.db.jobs 8704 = some .cancelled ∧
    (∀ record ∈ state.db.jobs, record.job.status.final = true →
      StatusStays (sample .returning) WritesWaiting state record.job.id record.job.status) ∧
    ∀ sid jobId input after, state.sessions sid = .cancelling jobId →
      step (sample .returning) state (.next sid input) = some after →
      StatusStays (sample .returning) WritesWaiting after jobId .cancelled := by
  have ran : ((pulse (sample .returning)).run WritesWaiting {} cancelledInTick).any (fun state =>
      statusById state.db.jobs 8 = some .completed &&
        statusById state.db.jobs 8704 = some .cancelled) = true := by
    decide +kernel
  obtain ⟨state, reachable, passes⟩ := Machine.reachable_of_check rfl cancelledInTick ran
  simp only [Bool.and_eq_true, decide_eq_true_eq] at passes
  exact ⟨state, reachable, passes.1, passes.2, finality rfl reachable⟩

/-- The tick's write by primary key puts the cancelled job back into its queue. -/
theorem tick_revives_cancelled : ∃ state, (pulse (sample .returning)).Reachable anyStep state ∧
    ∃ record ∈ state.db.jobs, record.job.status = .cancelled ∧
      ¬ StatusStays (sample .returning) anyStep state record.job.id .cancelled := by
  have ran : ((pulse (sample .returning)).run anyStep {} cancelledInTick).any (fun state =>
      statusById state.db.jobs 8704 = some .cancelled &&
        ((pulse (sample .returning)).run anyStep state [.next 4 { jobId := 8704 }, .next 4 {}]).any
          fun later => statusById later.db.jobs 8704 = some .queued) = true := by
    decide +kernel
  obtain ⟨state, reachable, passes⟩ := Machine.reachable_of_check rfl cancelledInTick ran
  simp only [Bool.and_eq_true, decide_eq_true_eq] at passes
  obtain ⟨record, member, named, cancelled⟩ := statusById_some passes.1
  obtain ⟨later, path, revived⟩ := Machine.path_of_check _ passes.2
  obtain ⟨kept, present, same, queued⟩ := statusById_some (by simpa using revived)
  refine ⟨state, reachable, record, member, cancelled, ?_⟩
  intro stays
  have still := stays later path kept present (same.trans named.symm)
  rw [queued] at still
  cases still

end Pulse
