import Pulse.Enqueue.Step

/-! One job for each idempotency key, whatever requests and other operations run at once. -/
namespace Pulse.Enqueue
open Library.RowLock Library.Lts
open Library.UniqueIndex (Insertion insertion Unique)

/-- The job with the key in the queue. -/
def HasKey (db : Db) (queueId : Uuid) (key : String) (id : Uuid) : Prop :=
  ∃ record ∈ db.jobs, record.job.queueId = queueId ∧ record.job.idempotencyKey = some key ∧
    record.job.id = id

/-- What a step of the rest of the engine keeps for a queue which it does not delete. -/
structure Keeps (queueId : Uuid) (before after : System) : Prop where
  keys : (after.db.jobs.filterMap fun record => record.job.indexKey).Sublist
    (before.db.jobs.filterMap fun record => record.job.indexKey)
  rows : ∀ key id, HasKey before.db queueId key id → HasKey after.db queueId key id
  queue : queueId ∈ before.db.queues.map Queue.id → queueId ∈ after.db.queues.map Queue.id
  ids : ∃ drawn : List Uuid, (after.db.jobs.map fun record => record.job.id).Sublist
    ((before.db.jobs.map fun record => record.job.id) ++ drawn) ∧ drawn.Nodup ∧
      ∀ id ∈ drawn, before.nextUuid ≤ id ∧ id < after.nextUuid
  grows : before.nextUuid ≤ after.nextUuid

section Engine
variable {env : Environment} {state after : System} {sid : Sid} {next : Session} {patch : Patch}
  {queueId : Uuid} {locks : List Lock}

theorem Keeps.of_db (jobs : after.db.jobs = state.db.jobs) (queues : after.db.queues = state.db.queues)
    (grows : state.nextUuid ≤ after.nextUuid) : Keeps queueId state after := by
  refine ⟨?_, ?_, ?_, ⟨[], ?_, List.nodup_nil, fun _ listed => nomatch listed⟩, grows⟩
  · rw [jobs]
  · unfold HasKey
    rw [jobs]
    exact fun _ _ => id
  · rw [queues]
    exact id
  · rw [jobs, List.append_nil]

/-- A commit which inserts no key and deletes no job of the queue. -/
theorem Keeps.commit (shape : Shape state) (publishes : Publishes env state sid next patch)
    (keyless : ∀ job ∈ patch.newJobs, job.idempotencyKey = none)
    (stays : ∀ record ∈ state.db.jobs, record.job.queueId = queueId →
      record.job.id ∉ patch.deletedJobs)
    (queue : queueId ∈ state.db.queues.map Queue.id →
      queueId ∈ (patch.queues state.db.queues).map Queue.id) :
    Keeps queueId state (state.commit sid next patch) := by
  obtain ⟨numbered, fresh⟩ := publishes.inserted shape.positive
  refine ⟨?_, ?_, queue, ⟨patch.newJobs.map Job.id, ?_, numbered, ?_⟩, ?_⟩
  · have fewer : patch.newJobs.filterMap Job.indexKey = [] := by
      refine List.filterMap_eq_nil_iff.mpr fun job inserted => ?_
      simp [Job.indexKey, keyless job inserted]
    have same : ∀ record : JobRecord, (patch.job record).job.indexKey = record.job.indexKey := by
      intro record
      have kept := publishes.kept record
      rw [Job.indexKey, Job.indexKey, kept.key, kept.queueId]
    rw [System.commit_db, Db.apply]
    simp only [List.filterMap_append, List.filterMap_map, Function.comp_def, same]
    rw [show patch.newJobs.filterMap (fun job => job.indexKey) = [] from fewer, List.append_nil]
    exact List.filter_sublist.filterMap _
  · rintro key id ⟨record, member, inside, named, rfl⟩
    have kept := publishes.kept record
    exact ⟨patch.job record, mem_apply_jobs.mpr (.inl ⟨record, member, stays record member inside, rfl⟩),
      kept.queueId.trans inside, kept.key.trans named, kept.job_id⟩
  · have same : ∀ record : JobRecord, (patch.job record).job.id = record.job.id :=
      fun record => (publishes.kept record).job_id
    simp only [System.commit_db, Db.apply, List.map_append, List.map_map, Function.comp_def, same]
    exact (List.filter_sublist.map _).append_right _
  · intro id listed
    obtain ⟨job, inserted, rfl⟩ := List.mem_map.mp listed
    exact fresh job inserted
  · rw [System.commit_nextUuid]
    lia

/-- Only ticks insert jobs here, and these have no key. -/
theorem Answers.keyless {now : Time} {call : ApiCall} (answers : Answers env state now call locks patch)
    (other : Action.creates (.begin sid (.api now call)) = false) : patch.newJobs = [] := by
  cases answers with
  | createJob | createBatch => cases other
  | deleteSchedule made | deleteQueue made =>
    cases made
    rfl
  | _ => rfl

theorem Answers.spares {now : Time} {call : ApiCall} (shape : Shape state)
    (answers : Answers env state now call locks patch) (other : call ≠ .deleteQueue queueId) :
    ∀ record ∈ state.db.jobs, record.job.queueId = queueId → record.job.id ∉ patch.deletedJobs := by
  intro record member inside
  cases answers with
  | @deleteQueue doomed _ _ made =>
    cases made
    intro listed
    obtain ⟨twin, present, same⟩ := List.mem_map.mp listed
    obtain ⟨there, queue⟩ := List.mem_filter.mp present
    have outside : twin.job.queueId = doomed := by simpa using queue
    rw [unique_record shape.distinct there member same, inside] at outside
    exact other (congrArg _ outside.symm)
  | deleteSchedule made =>
    cases made
    exact List.not_mem_nil
  | _ => exact List.not_mem_nil

/-- A tick inserts no job with a key. -/
def Keyless (state : System) : Prop :=
  ∀ sid current, state.sessions sid = .tick current → ∀ job ∈ current.spawned,
    job.idempotencyKey = none

theorem Keyless.step (keyless : Keyless state) {action : Action}
    (taken : Pulse.step env state action = some after) : Keyless after := by
  refine ticks_step (fun _ _ listed => nomatch listed) ?_ keyless taken
  intro current tick locks ticks before job listed
  rcases ticks.spawned with same | ⟨now, made⟩
  · exact before job (same ▸ listed)
  · obtain ⟨_, _, _, _, rfl, _⟩ := promoteCronJobs_spawned made job listed
    rfl

theorem Keeps.step (shape : Shape state) (keyless : Keyless state) {action : Action}
    (creates : action.creates = false)
    (kept : ∀ sid now, action ≠ .begin sid (.api now (.deleteQueue queueId)))
    (taken : Pulse.step env state action = some after) : Keeps queueId state after := by
  have grows : state.nextUuid ≤ 2 * state.nextUuid := by lia
  cases step_inverted taken with
  | @begin sid request effect _ idle made performed =>
    cases effect with
    | hold =>
      obtain ⟨_, rfl⟩ := System.perform_hold performed
      exact .of_db rfl rfl grows
    | commit next locks patch =>
      obtain ⟨free, rfl⟩ := System.perform_commit performed
      have publishes := Request.effect_publishes idle made free
      obtain ⟨now, call, rfl, rfl, answers⟩ := Request.effect_closes made
      have other : call ≠ .deleteQueue queueId := fun same => kept sid now (same ▸ rfl)
      refine .commit shape publishes ?_ (Answers.spares shape answers other) ?_
      · rw [Answers.keyless answers creates]
        exact fun _ listed => nomatch listed
      · intro listed
        rcases answers.houses listed with stays | same
        · exact stays
        · exact absurd same other
    | rollback =>
      cases Option.some.inj performed
      exact .of_db rfl rfl (le_refl _)
  | @next sid input effect _ _ made performed =>
    cases effect with
    | hold =>
      obtain ⟨_, rfl⟩ := System.perform_hold performed
      exact .of_db rfl rfl grows
    | commit next locks patch =>
      obtain ⟨_, rfl⟩ := System.perform_commit performed
      have closes := Session.effect_closes made
      have inserts := keyless sid
      refine .commit shape (Session.effect_publishes made) ?_ (by simp [closes.deletes]) ?_
      · generalize state.sessions sid = session at closes inserts
        cases closes with
        | tick =>
          intro job listed
          obtain ⟨spawned, there, _, _, rfl⟩ := numbered_member listed
          exact inserts _ rfl spawned there
        | _ => exact fun _ listed => nomatch listed
      · generalize state.sessions sid = session at closes
        cases closes <;> exact id
    | rollback =>
      cases Option.some.inj performed
      exact .of_db rfl rfl (le_refl _)
  | fail | submit | exit => exact .of_db rfl rfl (le_refl _)
  | reregister => exact .of_db rfl rfl grows

end Engine

/-! The requests. -/

/-- What the index sees of a row, and of the rows of a request. -/
def columns (job : Job) : Uuid × Option String :=
  (job.queueId, job.idempotencyKey)

def Call.columns : Call → List (Uuid × Option String)
  | .job body => [(body.queueId, body.idempotencyKey)]
  | .batch body => body.jobs.map fun item => (body.queueId, item.idempotencyKey)

/-- The queue which `create_job` has loaded. -/
structure Loads (queueId : Uuid) (db : Db) (body : JobCreate) (queue : Queue) : Prop where
  same : queue.id = body.queueId
  present : body.queueId = queueId → queueId ∈ db.queues.map Queue.id

/-- What a request has inserted so far, and what it knows. -/
inductive Fits (queueId : Uuid) (db : Db) (rows : List Job) : Creator → Prop where
  | idle (empty : rows = []) : Fits queueId db rows .idle
  | loaded {body queue maxAttempts} (empty : rows = []) (loads : Loads queueId db body queue) :
      Fits queueId db rows (.loaded body queue maxAttempts)
  | looked {body queue maxAttempts} (empty : rows = []) (loads : Loads queueId db body queue) :
      Fits queueId db rows (.looked body queue maxAttempts)
  | checked {body queue maxAttempts} (empty : rows = []) (loads : Loads queueId db body queue) :
      Fits queueId db rows (.checked body queue maxAttempts)
  | flushed {body} (made : rows.map columns = (Call.job body).columns) :
      Fits queueId db rows (.flushed body)
  | violated {body} (empty : rows = []) (taken : body.queueId = queueId →
      ∀ key, body.idempotencyKey = some key → ∃ id, HasKey db queueId key id) :
      Fits queueId db rows (.violated body)
  | filling {body left} (made : (rows ++ left).map columns = (Call.batch body).columns) :
      Fits queueId db rows (.filling body left)

/-- The errors of a request whose body, queue or dependencies are refused. -/
def refusals : List ApiError := [
  .unprocessable "Request validation failed",
  .notFound "Queue not found",
  .unprocessable "One or more depends_on job ids do not exist in this project"]

/-- The request is answered 201 for the key. -/
def Answer.creates (queueId : Uuid) (key : String) (answer : Answer) : Bool :=
  match answer.reply with
  | .created _ => answer.call.queueId = queueId && key ∈ answer.call.keys
  | _ => false

/-- What an answer says about the keys of the queue. -/
structure Answer.Right (queueId : Uuid) (db : Db) (answer : Answer) : Prop where
  rows : ∀ key, answer.creates queueId key = true → ∃ id, HasKey db queueId key id
  job : ∀ body key, answer.call = .job body → body.queueId = queueId →
    body.idempotencyKey = some key →
    (∃ id, (answer.reply = .created [id] ∨ answer.reply = .existing id) ∧
      HasKey db queueId key id) ∨ ∃ error ∈ refusals, answer.reply = .refused error
  batch : ∀ body, answer.call = .batch body → ∀ id, answer.reply ≠ .existing id

/-- What holds in every run which does not delete the queue. -/
structure Inv (queueId : Uuid) (state : State) : Prop where
  shape : Shape state.system
  keyless : Keyless state.system
  issued : Issued state.system.nextUuid ((state.system.db.jobs.map fun record => record.job.id) ++
    state.inserted.map fun entry => entry.2.id)
  unique : Unique state.committed state.entries
  fits : ∀ sid, Fits queueId state.system.db (state.rows sid) (state.creators sid)
  answered : ∀ answer ∈ state.answers, answer.Right queueId state.system.db
  once : ∀ key, state.answers.countP (Answer.creates queueId key) ≤ 1

section Requests
variable {queueId : Uuid} {db later : Db} {rows : List Job} {creator : Creator} {call : Call}
  {key : String}

theorem Fits.mono (fits : Fits queueId db rows creator)
    (kept : ∀ key id, HasKey db queueId key id → HasKey later queueId key id)
    (stays : queueId ∈ db.queues.map Queue.id → queueId ∈ later.queues.map Queue.id) :
    Fits queueId later rows creator := by
  have loads : ∀ {body queue}, Loads queueId db body queue → Loads queueId later body queue :=
    fun before => ⟨before.same, fun same => stays (before.present same)⟩
  cases fits with
  | idle empty => exact .idle empty
  | loaded empty before => exact .loaded empty (loads before)
  | looked empty before => exact .looked empty (loads before)
  | checked empty before => exact .checked empty (loads before)
  | flushed made => exact .flushed made
  | violated empty taken =>
    refine .violated empty ?_
    intro inside key named
    obtain ⟨id, present⟩ := taken inside key named
    exact ⟨id, kept key id present⟩
  | filling made => exact .filling made

theorem Answer.Right.mono {answer : Answer} (right : answer.Right queueId db)
    (kept : ∀ key id, HasKey db queueId key id → HasKey later queueId key id) :
    answer.Right queueId later := by
  refine ⟨?_, ?_, right.batch⟩
  · intro key creates
    obtain ⟨id, present⟩ := right.rows key creates
    exact ⟨id, kept key id present⟩
  · intro body key asked inside named
    rcases right.job body key asked inside named with ⟨id, reply, present⟩ | refused
    · exact .inl ⟨id, reply, kept key id present⟩
    · exact .inr refused

/-- The rows of a request have its keys in its queue. -/
theorem keys_of_columns (made : rows.map columns = call.columns) :
    rows.filterMap Job.indexKey = call.keys.map fun key => (call.queueId, key) := by
  have general : rows.filterMap Job.indexKey = (rows.map columns).filterMap fun pair =>
      pair.2.map fun key => (pair.1, key) := by
    rw [List.filterMap_map]
    rfl
  rw [general, made]
  cases call with
  | job body =>
    cases named : body.idempotencyKey <;> simp [Call.columns, Call.keys, Call.queueId, named]
  | batch body =>
    rw [Call.columns, Call.keys, Call.queueId, List.filterMap_map, List.map_filterMap]
    rfl

theorem mem_keys {id : Uuid} (present : HasKey db queueId key id) :
    (queueId, key) ∈ db.jobs.filterMap fun record => record.job.indexKey := by
  obtain ⟨record, member, rfl, named, _⟩ := present
  refine List.mem_filterMap.mpr ⟨record, member, ?_⟩
  rw [Job.indexKey, named]
  rfl

/-- The committed rows with the key. -/
theorem hasKey_of_mem (listed : (queueId, key) ∈ db.jobs.filterMap fun record => record.job.indexKey) :
    ∃ id, HasKey db queueId key id := by
  obtain ⟨record, member, indexed⟩ := List.mem_filterMap.mp listed
  rw [Job.indexKey, Option.map_eq_some_iff] at indexed
  obtain ⟨_, named, same⟩ := indexed
  cases same
  exact ⟨record.job.id, record, member, rfl, named, rfl⟩

theorem findKey_some {record : JobRecord} (found : db.findKey queueId key = some record) :
    HasKey db queueId key record.job.id := by
  have matched := List.find?_some found
  simp only [Bool.and_eq_true, decide_eq_true_eq] at matched
  exact ⟨record, List.mem_of_find?_eq_some found, matched.1, matched.2, rfl⟩

theorem findKey_isSome {id : Uuid} (present : HasKey db queueId key id) :
    (db.findKey queueId key).isSome = true := by
  obtain ⟨record, member, inside, named, _⟩ := present
  exact List.find?_isSome.mpr ⟨record, member, by simp [inside, named]⟩

@[simp] theorem apply_newJobs (jobs : List Job) :
    (db.apply { newJobs := jobs }).jobs = db.jobs ++ jobs.map fun job => ({ job } : JobRecord) := by
  simp [Db.apply]

end Requests

/-! The index and the open transactions. -/

section Index
variable {state : State} {sid other : Sid}

theorem entries_own (inserted : List (Sid × Job)) (sid : Sid) :
    Library.UniqueIndex.own (inserted.filterMap fun entry =>
      entry.2.indexKey.map fun key => (entry.1, key)) sid =
    ((inserted.filter fun entry => entry.1 = sid).map Prod.snd).filterMap Job.indexKey := by
  unfold Library.UniqueIndex.own
  induction inserted with
  | nil => rfl
  | cons entry rest ih =>
    by_cases mine : entry.1 = sid <;> cases indexed : entry.2.indexKey <;>
      simp [mine, indexed, ih]

theorem entries_release (inserted : List (Sid × Job)) (sid : Sid) :
    Library.UniqueIndex.release (inserted.filterMap fun entry =>
      entry.2.indexKey.map fun key => (entry.1, key)) sid =
    (inserted.filter fun entry => entry.1 ≠ sid).filterMap fun entry =>
      entry.2.indexKey.map fun key => (entry.1, key) := by
  unfold Library.UniqueIndex.release
  induction inserted with
  | nil => rfl
  | cons entry rest ih =>
    by_cases mine : entry.1 = sid <;> cases indexed : entry.2.indexKey <;>
      simp_all

/-- The rows of a transaction which has ended. -/
theorem rows_ended (inserted : List (Sid × Job)) (sid other : Sid) :
    ((inserted.filter fun entry => entry.1 ≠ sid).filter fun entry => entry.1 = other).map Prod.snd =
      if other = sid then [] else (inserted.filter fun entry => entry.1 = other).map Prod.snd := by
  rw [List.filter_filter]
  split
  · rename_i same
    simp [same]
  · rename_i different
    congr 2
    funext entry
    by_cases mine : entry.1 = other <;> simp [mine, different]

/-- What a request has inserted is among the rows of open transactions. -/
theorem State.rows_sublist (state : State) (sid : Sid) :
    (state.rows sid).Sublist (state.inserted.map Prod.snd) :=
  List.filter_sublist.map _

end Index

section Moves
variable {queueId : Uuid} {state : State} {sid : Sid} {next : Creator} {call : Call} {reply : Reply}

/-- The row is in, and the request goes on. -/
def State.entered (state : State) (sid : Sid) (row : Job) (next : Creator) : State :=
  { state with
    system := state.system.hold sid .idle [(.queue row.queueId, .keyShare)]
    creators := Function.update state.creators sid next
    inserted := state.inserted ++ [(sid, { row with id := state.system.nextUuid })] }

/-- INSERT inverted. -/
inductive Inserts (state : State) (sid : Sid) (row : Job) (next : Creator) (violated : State) :
    State → Prop where
  | enters (admitted : ∀ key, row.indexKey = some key →
        insertion state.committed state.entries sid key = .enters)
      (free : [(Key.queue row.queueId, Mode.keyShare)].any (state.system.waits sid) = false) :
      Inserts state sid row next violated (state.entered sid row next)
  | violates (taken : (∃ key, row.indexKey = some key ∧
        insertion state.committed state.entries sid key = .violates) ∨
      state.system.db.findQueue row.queueId = none) : Inserts state sid row next violated violated

theorem insert_inserts {row : Job} {violated after : State}
    (made : state.insert sid row next violated = some after) :
    Inserts state sid row next violated after := by
  simp only [State.insert] at made
  have indexed : ({ row with id := state.system.nextUuid } : Job).indexKey = row.indexKey := rfl
  cases admits : state.admits sid { row with id := state.system.nextUuid } with
  | violates =>
    rw [admits] at made
    cases Option.some.inj made
    refine .violates (.inl ?_)
    rw [State.admits, indexed] at admits
    split at admits
    · rename_i key keyed
      exact ⟨key, keyed, admits⟩
    · cases admits
  | waits =>
    rw [admits] at made
    cases made
  | enters =>
    rw [admits] at made
    simp only at made
    split at made
    · rename_i missing
      cases Option.some.inj made
      exact .violates (.inr (by simpa using missing))
    · obtain ⟨system, performed, rfl⟩ := Option.map_eq_some_iff.mp made
      obtain ⟨free, rfl⟩ := System.perform_hold performed
      refine .enters ?_ free
      intro key keyed
      rw [State.admits, indexed, keyed] at admits
      exact admits

/-- Only the request itself goes on, and what it has inserted stays as it was. -/
theorem fits_update {db : Db} {creators : Sid → Creator} {rows : Sid → List Job}
    (fits : ∀ sid, Fits queueId db (rows sid) (creators sid)) (own : Fits queueId db (rows sid) next) :
    ∀ other, Fits queueId db (rows other) (Function.update creators sid next other) :=
  (Function.forall_update_iff creators fun other creator => Fits queueId db (rows other) creator).mpr
    ⟨own, fun other _ => fits other⟩

theorem Inv.go (inv : Inv queueId state) (own : Fits queueId state.system.db (state.rows sid) next) :
    Inv queueId (state.go sid next) :=
  ⟨inv.shape, inv.keyless, inv.issued, inv.unique, fits_update inv.fits own, inv.answered, inv.once⟩

/-- An answer which creates nothing. -/
theorem Inv.answer (inv : Inv queueId state) (empty : state.rows sid = [])
    (creates : ∀ key, Answer.creates queueId key ⟨call, reply⟩ = false)
    (right : Answer.Right queueId state.system.db ⟨call, reply⟩) :
    Inv queueId (state.answer sid call reply) := by
  refine ⟨inv.shape, inv.keyless, inv.issued, inv.unique, fits_update inv.fits (.idle empty), ?_, ?_⟩
  · intro answer listed
    rcases List.mem_cons.mp listed with rfl | old
    · exact right
    · exact inv.answered answer old
  · intro key
    rw [State.answer, List.countP_cons_of_neg (by simp [creates key])]
    exact inv.once key

theorem State.rollback_rows (other : Sid) :
    (state.rollback sid).rows other = if other = sid then [] else state.rows other :=
  rows_ended ..

theorem Inv.rollback (inv : Inv queueId state) : Inv queueId (state.rollback sid) := by
  refine ⟨inv.shape.rollback sid, ?_, ?_, ?_, ?_, inv.answered, inv.once⟩
  · refine System.update_sessions (fun _ session => ∀ current, session = .tick current →
      ∀ job ∈ current.spawned, job.idempotencyKey = none) nofun ?_
    intro other _
    exact inv.keyless other
  · exact inv.issued.sublist ((List.filter_sublist.map _).append_left _)
  · rw [show (state.rollback sid).entries = _ from (entries_release state.inserted sid).symm]
    exact inv.unique.rollback sid
  · refine (Function.forall_update_iff state.creators fun other creator =>
      Fits queueId state.system.db ((state.rollback sid).rows other) creator).mpr ⟨?_, ?_⟩
    · exact .idle (by simp [State.rollback_rows])
    · intro other different
      rw [State.rollback_rows, if_neg different]
      exact inv.fits other

@[simp] theorem State.entered_inserted (row : Job) : (state.entered sid row next).inserted =
    state.inserted ++ [(sid, { row with id := state.system.nextUuid })] := rfl

@[simp] theorem State.entered_nextUuid (row : Job) :
    (state.entered sid row next).system.nextUuid = 2 * state.system.nextUuid := rfl

theorem State.entered_rows (row : Job) (other : Sid) :
    (state.entered sid row next).rows other = if other = sid then
      state.rows sid ++ [{ row with id := state.system.nextUuid }] else state.rows other := by
  simp only [State.rows, State.entered, List.filter_append, List.map_append]
  split
  · rename_i same
    simp [same]
  · rename_i different
    simp [Ne.symm different]

theorem Inv.entered {row : Job} (inv : Inv queueId state)
    (admitted : ∀ key, row.indexKey = some key →
      insertion state.committed state.entries sid key = .enters)
    (free : [(Key.queue row.queueId, Mode.keyShare)].any (state.system.waits sid) = false)
    (own : Fits queueId state.system.db
      (state.rows sid ++ [{ row with id := state.system.nextUuid }]) next) :
    Inv queueId (state.entered sid row next) := by
  have positive := inv.shape.positive
  refine ⟨?_, ?_, ?_, ?_, ?_, inv.answered, inv.once⟩
  · exact inv.shape.takes free fun _ member => nomatch member
  · refine System.update_sessions (fun _ session => ∀ current, session = .tick current →
      ∀ job ∈ current.spawned, job.idempotencyKey = none) nofun ?_
    intro other _
    exact inv.keyless other
  · rw [State.entered_inserted, State.entered_nextUuid, List.map_append, ← List.append_assoc]
    refine inv.issued.append (List.nodup_singleton _) ?_ (by lia)
    intro id listed
    cases List.mem_singleton.mp listed
    exact ⟨le_refl _, by lia⟩
  · rw [State.entries, State.entered_inserted, List.filterMap_append]
    cases keyed : row.indexKey with
    | none =>
      have indexed : ({ row with id := state.system.nextUuid } : Job).indexKey = none := keyed
      simp only [List.filterMap_cons, indexed, Option.map_none, List.filterMap_nil, List.append_nil]
      exact inv.unique
    | some key =>
      have indexed : ({ row with id := state.system.nextUuid } : Job).indexKey = some key := keyed
      simp only [List.filterMap_cons, indexed, Option.map_some, List.filterMap_nil]
      exact inv.unique.insert (admitted key keyed)
  · refine (Function.forall_update_iff state.creators fun other creator =>
      Fits queueId state.system.db ((state.entered sid row next).rows other) creator).mpr ⟨?_, ?_⟩
    · rwa [State.entered_rows, if_pos rfl]
    · intro other different
      rw [State.entered_rows, if_neg different]
      exact inv.fits other

/-- The rows of a request with their keys, where it commits. -/
theorem committed_keys (state : State) (sid : Sid) (call : Call) :
    (state.commit sid call).committed =
      state.committed ++ Library.UniqueIndex.own state.entries sid := by
  rw [State.entries, entries_own, State.committed, State.committed, State.commit, System.commit_db,
    apply_newJobs, List.filterMap_append, List.filterMap_map]
  rfl

theorem Inv.published (inv : Inv queueId state) (sid : Sid) (call : Call) :
    Issued (state.commit sid call).system.nextUuid
      (((state.commit sid call).system.db.jobs.map fun record => record.job.id) ++
        (state.commit sid call).inserted.map fun entry => entry.2.id) := by
  have parted : ((state.commit sid call).system.db.jobs.map fun record => record.job.id) ++
      ((state.commit sid call).inserted.map fun entry => entry.2.id) =
      (state.system.db.jobs.map fun record => record.job.id) ++
        ((state.inserted.filter fun entry => entry.1 = sid) ++
          state.inserted.filter fun entry => ¬ entry.1 = sid).map fun entry => entry.2.id := by
    simp [State.commit, State.rows, Function.comp_def]
  have all := (List.filter_append_perm (fun entry : Sid × Job => decide (entry.1 = sid))
    state.inserted).map fun entry => entry.2.id
  have wider : Issued (state.commit sid call).system.nextUuid
      ((state.system.db.jobs.map fun record => record.job.id) ++
        state.inserted.map fun entry => entry.2.id) := by
    refine inv.issued.mono ?_
    rw [State.commit, System.commit_nextUuid]
    lia
  rw [parted]
  exact wider.perm ((by simpa using all.symm : List.Perm _ _).append_left _)

/-- A key of an open transaction no earlier request was answered 201 for. -/
theorem Inv.unanswered (inv : Inv queueId state) {key : String}
    (entered : (sid, queueId, key) ∈ state.entries) :
    state.answers.countP (Answer.creates queueId key) = 0 := by
  refine List.countP_eq_zero.mpr fun answer listed creates => ?_
  obtain ⟨id, present⟩ := (inv.answered answer listed).rows key creates
  exact inv.unique.fresh entered (mem_keys present)

theorem State.commit_rows (call : Call) (other : Sid) :
    (state.commit sid call).rows other = if other = sid then [] else state.rows other :=
  rows_ended ..

/-- What was there stays, and the rows of the request are there. -/
theorem commit_hasKey {key : String} {id : Uuid} : HasKey (state.commit sid call).system.db queueId key id ↔
    HasKey state.system.db queueId key id ∨ ∃ row ∈ state.rows sid, row.queueId = queueId ∧
      row.idempotencyKey = some key ∧ row.id = id := by
  unfold HasKey
  rw [State.commit, System.commit_db, apply_newJobs]
  constructor
  · rintro ⟨record, member, found⟩
    rcases List.mem_append.mp member with old | new
    · exact .inl ⟨record, old, found⟩
    · obtain ⟨row, inserted, rfl⟩ := List.mem_map.mp new
      exact .inr ⟨row, inserted, found⟩
  · rintro (⟨record, member, found⟩ | ⟨row, inserted, found⟩)
    · exact ⟨record, List.mem_append_left _ member, found⟩
    · exact ⟨{ job := row }, List.mem_append_right _ (List.mem_map_of_mem inserted), found⟩

/-- The rows of a request answered 201 are in the database. -/
theorem commit_creates (made : (state.rows sid).map columns = call.columns) {key : String} {ids : List Uuid}
    (creates : Answer.creates queueId key ⟨call, .created ids⟩ = true) :
    ∃ row ∈ state.rows sid, row.queueId = queueId ∧ row.idempotencyKey = some key := by
  simp only [Answer.creates, Bool.and_eq_true, decide_eq_true_eq] at creates
  have listed : (queueId, key) ∈ (state.rows sid).filterMap Job.indexKey := by
    rw [keys_of_columns made]
    exact List.mem_map.mpr ⟨key, creates.2, by rw [creates.1]⟩
  obtain ⟨row, inserted, indexed⟩ := List.mem_filterMap.mp listed
  obtain ⟨_, named, same⟩ := Option.map_eq_some_iff.mp indexed
  cases same
  exact ⟨row, inserted, rfl, named⟩

theorem Inv.commit (inv : Inv queueId state) (made : (state.rows sid).map columns = call.columns) :
    Inv queueId (state.commit sid call) := by
  have kept : ∀ key id, HasKey state.system.db queueId key id →
      HasKey (state.commit sid call).system.db queueId key id :=
    fun key id present => commit_hasKey.mpr (.inl present)
  have present : ∀ {key ids}, Answer.creates queueId key ⟨call, .created ids⟩ = true →
      ∃ id, HasKey (state.commit sid call).system.db queueId key id := by
    intro key ids creates
    obtain ⟨row, inserted, inside, named⟩ := commit_creates made creates
    exact ⟨row.id, commit_hasKey.mpr (.inr ⟨row, inserted, inside, named, rfl⟩)⟩
  refine ⟨?_, ?_, inv.published sid call, ?_, ?_, ?_, ?_⟩
  · refine inv.shape.publishes ?_
    have sublist := (state.rows_sublist sid).map Job.id
    rw [List.map_map] at sublist
    exact inv.issued.sublist (sublist.append_left _)
  · refine System.update_sessions (fun _ session => ∀ current, session = .tick current →
      ∀ job ∈ current.spawned, job.idempotencyKey = none) nofun ?_
    intro other _
    exact inv.keyless other
  · rw [committed_keys, show (state.commit sid call).entries = _ from
      (entries_release state.inserted sid).symm]
    exact inv.unique.commit sid
  · refine (Function.forall_update_iff state.creators fun other creator =>
      Fits queueId (state.commit sid call).system.db ((state.commit sid call).rows other) creator).mpr
      ⟨?_, ?_⟩
    · exact .idle (by simp [State.commit_rows])
    · intro other different
      rw [State.commit_rows, if_neg different]
      exact (inv.fits other).mono kept id
  · intro answer listed
    rcases List.mem_cons.mp listed with rfl | old
    · refine ⟨fun key creates => present creates, ?_, fun _ _ _ => nofun⟩
      intro body key asked inside named
      cases asked
      obtain ⟨row, single, fields⟩ := List.map_eq_singleton_iff.mp made
      refine .inl ⟨row.id, .inl (by simp [single]), commit_hasKey.mpr (.inr ⟨row, by simp [single], ?_⟩)⟩
      have fields := Prod.mk.inj fields
      exact ⟨fields.1.trans inside, fields.2.trans named, rfl⟩
    · exact (inv.answered answer old).mono kept
  · intro key
    rw [State.commit, List.countP_cons]
    split
    · rename_i creates
      obtain ⟨row, inserted, inside, named⟩ := commit_creates made creates
      have entered : (sid, queueId, key) ∈ state.entries := by
        obtain ⟨entry, chosen, rfl⟩ := List.mem_map.mp inserted
        obtain ⟨member, mine⟩ := List.mem_filter.mp chosen
        refine List.mem_filterMap.mpr ⟨entry, member, ?_⟩
        rw [Job.indexKey, named, inside, show entry.1 = sid by simpa using mine]
        rfl
      rw [inv.unanswered entered]
    · exact inv.once key

/-- An answer to `create_job` which names the job with its key, or refuses the request. -/
theorem Inv.answer_job {body : JobCreate} (inv : Inv queueId state) (empty : state.rows sid = [])
    (created : ∀ ids, reply ≠ .created ids)
    (named : ∀ key, body.queueId = queueId → body.idempotencyKey = some key →
      (∃ id, reply = .existing id ∧ HasKey state.system.db queueId key id) ∨
        ∃ error ∈ refusals, reply = .refused error) :
    Inv queueId (state.answer sid (.job body) reply) := by
  have nothing : ∀ key, Answer.creates queueId key ⟨.job body, reply⟩ = false := by
    intro key
    cases reply with
    | created ids => exact absurd rfl (created ids)
    | _ => rfl
  refine inv.answer empty nothing ⟨fun key creates => absurd creates (by simp [nothing key]), ?_, nofun⟩
  intro asked key same inside keyed
  cases same
  rcases named key inside keyed with ⟨id, existing, present⟩ | refused
  · exact .inl ⟨id, .inr existing, present⟩
  · exact .inr refused

/-- A refused batch creates nothing. -/
theorem Inv.answer_batch {body : JobBatchCreate} {error : ApiError} (inv : Inv queueId state)
    (empty : state.rows sid = []) : Inv queueId (state.answer sid (.batch body) (.refused error)) :=
  inv.answer empty (fun _ => rfl)
    ⟨fun _ creates => (nomatch creates), fun _ _ asked => (nomatch asked), fun _ _ _ => nofun⟩

/-- A unique violation of `create_job` is of a committed row. -/
theorem violation_committed {row : Job} (empty : state.rows sid = [])
    (present : row.queueId = queueId → queueId ∈ state.system.db.queues.map Queue.id)
    (violates : (∃ key, row.indexKey = some key ∧
        insertion state.committed state.entries sid key = .violates) ∨
      state.system.db.findQueue row.queueId = none) (inside : row.queueId = queueId) {key : String}
    (named : row.idempotencyKey = some key) : ∃ id, HasKey state.system.db queueId key id := by
  rcases violates with ⟨pair, indexed, violates⟩ | missing
  · rw [Job.indexKey, named, inside] at indexed
    cases indexed
    rcases Library.UniqueIndex.violates_iff.mp violates with committed | own
    · exact hasKey_of_mem committed
    · have mine : (queueId, key) ∈ (state.rows sid).filterMap Job.indexKey := by
        rw [State.rows, ← entries_own]
        exact List.mem_map.mpr ⟨_, List.mem_filter.mpr ⟨own, by simp⟩, rfl⟩
      rw [empty] at mine
      cases mine
  · obtain ⟨queue, member, same⟩ := List.mem_map.mp (present inside)
    refine absurd same ?_
    rw [← inside]
    simpa using List.find?_eq_none.mp missing queue member

/-- The next statement of a request. -/
theorem Inv.statement {now : Time} {creator : Creator} {after : State} (inv : Inv queueId state)
    (running : state.creators sid = creator) (taken : Enqueue.next state sid now creator = some after) :
    Inv queueId after := by
  have fits := inv.fits sid
  rw [running] at fits
  cases fits with
  | idle => cases taken
  | @loaded body queue maxAttempts empty loads =>
    simp only [Enqueue.next] at taken
    split at taken
    · rename_i record found
      cases Option.some.inj taken
      obtain ⟨key, looked, lookup⟩ := Option.bind_eq_some_iff.mp found
      have present := findKey_some lookup
      refine inv.answer_job empty nofun ?_
      intro other inside named
      rw [named] at looked
      cases (Option.filter_eq_some_iff.mp looked).1
      rw [loads.same, inside] at present
      exact .inl ⟨_, rfl, present⟩
    · cases Option.some.inj taken
      exact inv.go (.looked empty loads)
  | @looked body queue maxAttempts empty loads =>
    simp only [Enqueue.next] at taken
    split at taken
    · cases Option.some.inj taken
      exact inv.go (.checked empty loads)
    · cases Option.some.inj taken
      exact inv.answer_job empty nofun fun _ _ _ => .inr ⟨_, by simp [refusals], rfl⟩
  | @checked body queue maxAttempts empty loads =>
    cases insert_inserts taken with
    | enters admitted free =>
      refine inv.entered admitted free (.flushed ?_)
      rw [empty]
      exact congrArg (fun id => [(id, body.idempotencyKey)]) loads.same
    | violates violates =>
      have ended : (state.rollback sid).rows sid = [] := by
        rw [State.rollback_rows, if_pos rfl]
      refine inv.rollback.go (.violated ended ?_)
      intro inside key named
      have same := loads.same.trans inside
      exact violation_committed empty (fun _ => loads.present inside) violates same named
  | flushed made =>
    cases Option.some.inj taken
    exact inv.commit made
  | @violated body empty present =>
    simp only [Enqueue.next] at taken
    split at taken
    · rename_i record found
      cases Option.some.inj taken
      obtain ⟨key, keyed, lookup⟩ := Option.bind_eq_some_iff.mp found
      refine inv.answer_job empty nofun ?_
      intro other inside named
      cases keyed.symm.trans named
      rw [inside] at lookup
      exact .inl ⟨_, rfl, findKey_some lookup⟩
    · rename_i missing
      cases Option.some.inj taken
      refine inv.answer_job empty nofun ?_
      intro key inside named
      obtain ⟨id, committed⟩ := present inside key named
      have found := findKey_isSome committed
      rw [named, Option.bind_some, inside] at missing
      simp [missing] at found
  | @filling body left made =>
    cases left with
    | nil =>
      cases Option.some.inj taken
      rw [List.append_nil] at made
      exact inv.commit made
    | cons row rest =>
      cases insert_inserts taken with
      | enters admitted free =>
        refine inv.entered admitted free (.filling ?_)
        simpa [columns] using made
      | violates =>
        refine inv.rollback.answer_batch ?_
        rw [State.rollback_rows, if_pos rfl]

theorem Inv.draws (inv : Inv queueId state) :
    Inv queueId { state with system := { state.system with nextUuid := 2 * state.system.nextUuid } } := by
  have positive := inv.shape.positive
  have grows : state.system.nextUuid ≤ 2 * state.system.nextUuid := by lia
  obtain ⟨jobs, queues, policies, workers, templates⟩ := inv.shape.issued
  exact ⟨⟨Nat.lt_of_lt_of_le positive grows, inv.shape.compatible, inv.shape.granted,
    ⟨jobs.mono grows, queues.mono grows, policies.mono grows, workers.mono grows,
      templates.mono grows⟩⟩, inv.keyless, inv.issued.mono grows, inv.unique, inv.fits,
    inv.answered, inv.once⟩

/-- A request is refused at once, or goes on with its queue. -/
theorem begins_cases {valid : Bool} {start : Queue → Creator} {after : State}
    (taken : begins state sid call valid start = some after) : state.creators sid = .idle ∧
      ((∃ error ∈ refusals, (valid = false ∨ state.system.db.findQueue call.queueId = none) ∧
        after = state.answer sid call (.refused error)) ∨
        ∃ queue, state.system.db.findQueue call.queueId = some queue ∧
          after = { state.go sid (start queue) with
            system := { state.system with nextUuid := 2 * state.system.nextUuid } }) := by
  unfold begins at taken
  split at taken
  · rename_i idle
    refine ⟨idle.1, ?_⟩
    split at taken
    · rename_i invalid
      cases Option.some.inj taken
      exact .inl ⟨_, by simp [refusals], .inl (by simpa using invalid), rfl⟩
    · split at taken
      · rename_i missing
        cases Option.some.inj taken
        exact .inl ⟨_, by simp [refusals], .inr missing, rfl⟩
      · rename_i queue found
        cases Option.some.inj taken
        exact .inr ⟨queue, found, rfl⟩
  · cases taken

theorem Inv.rows_idle (inv : Inv queueId state) (idle : state.creators sid = .idle) :
    state.rows sid = [] := by
  have fits := inv.fits sid
  rw [idle] at fits
  cases fits with
  | idle empty => exact empty

theorem batch_columns {db : Db} {now : Time} {first batchId : Uuid} {body : JobBatchCreate}
    {queue : Queue} (same : queue.id = body.queueId) :
    (body.rows db now first batchId queue).map columns = (Call.batch body).columns := by
  refine List.ext_getElem (by simp [JobBatchCreate.rows, Call.columns]) fun index _ _ => ?_
  simp [JobBatchCreate.rows, Call.columns, columns, same]

end Moves

section Steps
variable {env : Environment} {queueId : Uuid} {state after : State}

/-- The queue which a move deletes. -/
def Move.deletes : Move → Option Uuid
  | .engine (.begin _ (.api _ (.deleteQueue id))) => some id
  | _ => none

/-- The queue is not deleted. -/
def Stays (queueId : Uuid) (_ : State) (move : Move) : Prop :=
  move.deletes ≠ some queueId

instance (queueId : Uuid) (state : State) (move : Move) : Decidable (Stays queueId state move) :=
  inferInstanceAs (Decidable (_ ≠ _))

theorem Inv.engine (inv : Inv queueId state) {action : Action} {system : System}
    (creates : action.creates = false) (kept : ∀ sid now, action ≠ .begin sid (.api now (.deleteQueue queueId)))
    (taken : Pulse.step env state.system action = some system) : Inv queueId { state with system } := by
  have keeps := Keeps.step inv.shape inv.keyless creates kept taken
  obtain ⟨drawn, sublist, distinct, fresh⟩ := keeps.ids
  refine ⟨inv.shape.step taken, inv.keyless.step taken, ?_, inv.unique.sublist keeps.keys,
    fun sid => (inv.fits sid).mono keeps.rows keeps.queue,
    fun answer listed => (inv.answered answer listed).mono keeps.rows, inv.once⟩
  have wider := inv.issued.append distinct fresh keeps.grows
  refine (wider.perm ?_).sublist (sublist.append_right _)
  rw [List.append_assoc, List.append_assoc]
  exact List.perm_append_comm.append_left _

theorem Inv.step (inv : Inv queueId state) {move : Move} (stays : Stays queueId state move)
    (taken : Enqueue.step env state move = some after) : Inv queueId after := by
  cases move with
  | engine action =>
    simp only [Enqueue.step] at taken
    split at taken
    · cases taken
    · rename_i free
      simp only [Bool.or_eq_true, not_or, Bool.not_eq_true] at free
      obtain ⟨system, stepped, rfl⟩ := Option.map_eq_some_iff.mp taken
      refine inv.engine free.1 ?_ stepped
      rintro sid now rfl
      exact stays rfl
  | createJob sid body =>
    obtain ⟨idle, ⟨error, listed, _, rfl⟩ | ⟨queue, found, rfl⟩⟩ := begins_cases taken
    · exact inv.answer_job (inv.rows_idle idle) nofun fun _ _ _ => .inr ⟨error, listed, rfl⟩
    · have same : queue.id = (Call.job body).queueId := by simpa using List.find?_some found
      refine (inv.go (.loaded (inv.rows_idle idle) ⟨same, ?_⟩)).draws
      intro inside
      exact List.mem_map.mpr ⟨queue, List.mem_of_find?_eq_some found, same.trans inside⟩
  | createBatch sid now body =>
    obtain ⟨idle, ⟨error, listed, _, rfl⟩ | ⟨queue, found, rfl⟩⟩ := begins_cases taken
    · exact inv.answer_batch (inv.rows_idle idle)
    · refine (inv.go (.filling ?_)).draws
      rw [inv.rows_idle idle]
      have same : queue.id = (Call.batch body).queueId := by simpa using List.find?_some found
      exact batch_columns same
  | next sid now => exact inv.statement rfl taken
  | fail sid =>
    simp only [Enqueue.step] at taken
    split at taken
    · cases taken
    · cases Option.some.inj taken
      exact inv.rollback

theorem Inv.reachable (reachable : (enqueue env).Reachable (Stays queueId) state) :
    Inv queueId state := by
  refine reachable.invariant ?_ fun _ _ _ inv stays taken => inv.step stays taken
  rintro state ⟨shape, unique, idle, resting, inserted, answers⟩
  have ticks : Keyless state.system := by
    intro sid current ticking
    rw [idle sid] at ticking
    cases ticking
  refine ⟨shape, ticks, ?_, ?_, ?_, ?_, ?_⟩
  · simpa [inserted] using shape.issued.jobs
  · simpa [Library.UniqueIndex.Unique, State.entries, inserted] using unique
  · intro sid
    rw [resting sid]
    exact .idle (by simp [State.rows, inserted])
  · simp [answers]
  · simp [answers]

end Steps

/-! The property. -/

/-- The request which a creator works for. -/
def Creator.call : Creator → Option Call
  | .idle => none
  | .loaded body _ _ | .looked body _ _ | .checked body _ _ | .flushed body | .violated body =>
    some (.job body)
  | .filling body _ => some (.batch body)

/-- How many statements a request has left at most. -/
def Creator.rank : Creator → Nat
  | .idle => 0
  | .flushed _ | .violated _ => 1
  | .checked _ _ _ => 2
  | .looked _ _ _ => 3
  | .loaded _ _ _ => 4
  | .filling _ rows => rows.length + 1

/-- The moves of the requests. -/
def Move.requests : Move → Bool
  | .engine _ => false
  | _ => true

/-- An insert of the request waits for an open transaction which has inserted one of its keys,
or for a lock on its queue. -/
def Obstructed (state : State) (sid : Sid) (call : Call) : Prop :=
  (∃ other, other ≠ sid ∧ ∃ row ∈ state.rows other, ∃ key ∈ call.keys,
    row.indexKey = some (call.queueId, key)) ∨
  state.system.waits sid (.queue call.queueId, .keyShare) = true

/-- The moves which refuse a `create_job` request. -/
inductive Rejects (state : State) (body : JobCreate) : Move → Prop where
  | invalid {sid} (invalid : body.valid = false) : Rejects state body (.createJob sid body)
  | missing {sid} (missing : state.system.db.findQueue body.queueId = none) :
      Rejects state body (.createJob sid body)
  | dependencies {sid now queue maxAttempts}
      (running : state.creators sid = .looked body queue maxAttempts)
      (invalid : validateDependsOn state.system.db body.dependsOn queue.projectId = false) :
      Rejects state body (.next sid now)

/-- The request creates all its jobs and is answered with them. -/
def Completes (state after : State) : Prop :=
  ∃ call, ∃ rows : List Job, after.answers = ⟨call, .created (rows.map Job.id)⟩ :: state.answers ∧
    rows.map columns = call.columns ∧
    after.system.db.jobs = state.system.db.jobs ++ rows.map fun job => ({ job } : JobRecord)

/-- Nothing is created: the rows are as before and no request is answered with new ones. -/
def Quiet (state after : State) : Prop :=
  after.system.db = state.system.db ∧ ∀ call ids, after.answers ≠ ⟨call, .created ids⟩ :: state.answers

/-- One key of a queue in a state of a run: at most one row has it, open transactions
included; each `create_job` request with the key is answered with that row, or was refused for
its body, its queue or its dependencies; at most one request is answered 201. -/
structure EnqueuedOnce (env : Environment) (queueId : Uuid) (key : String) (state : State) :
    Prop where
  one : (state.system.db.jobs.map JobRecord.job ++ state.inserted.map Prod.snd).countP
    (fun job => job.queueId = queueId ∧ job.idempotencyKey = some key) ≤ 1
  answered : ∀ answer ∈ state.answers, ∀ body, answer.call = .job body → body.queueId = queueId →
    body.idempotencyKey = some key →
    (∃ id, (answer.reply = .created [id] ∨ answer.reply = .existing id) ∧
      HasKey state.system.db queueId key id) ∨ ∃ error ∈ refusals, answer.reply = .refused error
  refused : ∀ move after body error, step env state move = some after →
    after.answers = ⟨.job body, .refused error⟩ :: state.answers → body.queueId = queueId →
    body.idempotencyKey = some key → Rejects state body move
  created : state.answers.countP (Answer.creates queueId key) ≤ 1
  batches : ∀ answer ∈ state.answers, ∀ body, answer.call = .batch body → ∀ id,
    answer.reply ≠ .existing id
  whole : ∀ move after, move.requests = true → step env state move = some after →
    Completes state after ∨ Quiet state after
  undone : ∀ sid, state.creators sid = .idle → state.rows sid = []
  proceeds : ∀ sid now call, (state.creators sid).call = some call →
    (∃ after, step env state (.next sid now) = some after ∧
      (after.creators sid).rank < (state.creators sid).rank ∧
      ((after.creators sid).call = some call ∨
        ∃ reply, after.answers = ⟨call, reply⟩ :: state.answers)) ∨
    Obstructed state sid call ∧ ∀ body, call = .job body → state.rows sid = []

section Property
variable {env : Environment} {queueId : Uuid} {key : String} {state after : State} {sid : Sid}
  {call : Call}

/-- The rows with the key are those whose entries the index has. -/
theorem countP_indexKey (rows : List Job) (queueId : Uuid) (key : String) :
    rows.countP (fun job => job.queueId = queueId ∧ job.idempotencyKey = some key) =
      (rows.filterMap Job.indexKey).count (queueId, key) := by
  rw [List.count, List.countP_filterMap]
  refine List.countP_congr fun job _ => ?_
  cases keyed : job.idempotencyKey <;> simp [Job.indexKey, keyed]

theorem entries_keys (state : State) :
    state.entries.map Prod.snd = (state.inserted.map Prod.snd).filterMap Job.indexKey := by
  rw [State.entries, List.map_filterMap, List.filterMap_map]
  refine List.filterMap_congr fun entry _ => ?_
  rw [Function.comp_apply]
  cases entry.2.indexKey <;> rfl

theorem Inv.one (inv : Inv queueId state) (key : String) :
    (state.system.db.jobs.map JobRecord.job ++ state.inserted.map Prod.snd).countP
      (fun job => job.queueId = queueId ∧ job.idempotencyKey = some key) ≤ 1 := by
  have all : (state.system.db.jobs.map JobRecord.job ++ state.inserted.map Prod.snd).filterMap
      Job.indexKey = state.committed ++ state.entries.map Prod.snd := by
    rw [List.filterMap_append, List.filterMap_map, entries_keys]
    rfl
  rw [countP_indexKey, all]
  exact List.nodup_iff_count_le_one.mp inv.unique _

/-- A row of a request is in its queue and has one of its keys. -/
theorem mem_columns {row : Job} (listed : columns row ∈ call.columns) : row.queueId = call.queueId ∧
    ∀ key, row.idempotencyKey = some key → key ∈ call.keys := by
  cases call with
  | job body =>
    obtain ⟨inside, keyed⟩ := Prod.mk.inj (List.mem_singleton.mp listed)
    refine ⟨inside, fun key named => ?_⟩
    rw [keyed] at named
    simp [Call.keys, named]
  | batch body =>
    obtain ⟨item, member, same⟩ := List.mem_map.mp listed
    obtain ⟨inside, keyed⟩ := Prod.mk.inj same
    refine ⟨inside.symm, fun key named => ?_⟩
    exact List.mem_filterMap.mpr ⟨item, member, keyed.trans named⟩

/-- An INSERT ends where nobody else has entered its key and its queue is not locked. -/
theorem insert_obstructed {row : Job} {next : Creator} {violated : State}
    (listed : columns row ∈ call.columns) (waits : state.insert sid row next violated = none) :
    Obstructed state sid call := by
  obtain ⟨inside, keys⟩ := mem_columns listed
  simp only [State.insert] at waits
  have indexed : ({ row with id := state.system.nextUuid } : Job).indexKey = row.indexKey := rfl
  cases admits : state.admits sid { row with id := state.system.nextUuid } with
  | violates =>
    rw [admits] at waits
    cases waits
  | waits =>
    rw [State.admits, indexed] at admits
    split at admits
    · rename_i pair keyed
      obtain ⟨other, different, entered⟩ := Library.UniqueIndex.waits_other admits
      obtain ⟨key, named, rfl⟩ := Option.map_eq_some_iff.mp keyed
      have mine : (row.queueId, key) ∈ (state.rows other).filterMap Job.indexKey := by
        rw [State.rows, ← entries_own]
        exact List.mem_map.mpr ⟨_, List.mem_filter.mpr ⟨entered, by simp⟩, rfl⟩
      obtain ⟨twin, inserted, same⟩ := List.mem_filterMap.mp mine
      rw [inside] at same
      exact .inl ⟨other, different, twin, inserted, key, keys key named, same⟩
    · cases admits
  | enters =>
    rw [admits] at waits
    simp only at waits
    split at waits
    · cases waits
    · rw [Option.map_eq_none_iff, System.perform] at waits
      split at waits
      · rename_i blocked
        rw [inside] at blocked
        exact .inr (by simpa using blocked)
      · cases waits

theorem Quiet.silent (db : after.system.db = state.system.db) (same : after.answers = state.answers) :
    Quiet state after := by
  refine ⟨db, fun call ids grown => ?_⟩
  rw [same] at grown
  exact List.cons_ne_self _ _ grown.symm

theorem Quiet.replied {reply : Reply} (db : after.system.db = state.system.db)
    (replied : after.answers = ⟨call, reply⟩ :: state.answers)
    (creates : ∀ ids, reply ≠ .created ids) : Quiet state after := by
  refine ⟨db, fun other ids grown => ?_⟩
  rw [replied] at grown
  cases (List.cons.inj grown).1
  exact creates ids rfl

theorem commit_completes (made : (state.rows sid).map columns = call.columns) :
    Completes state (state.commit sid call) :=
  ⟨call, state.rows sid, rfl, made, apply_newJobs _⟩

theorem Inv.whole_statement (inv : Inv queueId state) {now : Time} {creator : Creator}
    (running : state.creators sid = creator) (taken : next state sid now creator = some after) :
    Completes state after ∨ Quiet state after := by
  have fits := inv.fits sid
  rw [running] at fits
  cases fits with
  | idle => cases taken
  | loaded =>
    simp only [next] at taken
    split at taken <;> cases Option.some.inj taken
    · exact .inr (.replied rfl rfl nofun)
    · exact .inr (.silent rfl rfl)
  | looked =>
    simp only [next] at taken
    split at taken <;> cases Option.some.inj taken
    · exact .inr (.silent rfl rfl)
    · exact .inr (.replied rfl rfl nofun)
  | checked =>
    cases insert_inserts taken with
    | enters => exact .inr (.silent rfl rfl)
    | violates => exact .inr (.silent rfl rfl)
  | flushed made =>
    cases Option.some.inj taken
    exact .inl (commit_completes made)
  | violated =>
    simp only [next] at taken
    split at taken <;> cases Option.some.inj taken
    · exact .inr (.replied rfl rfl nofun)
    · exact .inr (.replied rfl rfl nofun)
  | @filling body left made =>
    cases left with
    | nil =>
      cases Option.some.inj taken
      rw [List.append_nil] at made
      exact .inl (commit_completes made)
    | cons row rest =>
      cases insert_inserts taken with
      | enters => exact .inr (.silent rfl rfl)
      | violates => exact .inr (.replied rfl rfl nofun)

theorem Inv.whole (inv : Inv queueId state) {move : Move} (requests : move.requests = true)
    (taken : Enqueue.step env state move = some after) : Completes state after ∨ Quiet state after := by
  cases move with
  | engine => cases requests
  | createJob sid body | createBatch sid now body =>
    obtain ⟨_, ⟨error, _, _, rfl⟩ | ⟨queue, _, rfl⟩⟩ := begins_cases taken
    · exact .inr (.replied rfl rfl nofun)
    · exact .inr (.silent rfl rfl)
  | next sid now => exact inv.whole_statement rfl taken
  | fail sid =>
    simp only [Enqueue.step] at taken
    split at taken <;> cases taken
    exact .inr (.silent rfl rfl)

theorem grown_ne {answer : Answer} (same : after.answers = state.answers)
    (grown : after.answers = answer :: state.answers) : False :=
  List.cons_ne_self _ _ (grown.symm.trans same)

/-- A `create_job` request with a key is refused for its body, its queue or its dependencies:
behind these checks its job is found again. -/
theorem Inv.refused (inv : Inv queueId state) {move : Move} {body : JobCreate} {error : ApiError}
    (taken : Enqueue.step env state move = some after)
    (grown : after.answers = ⟨.job body, .refused error⟩ :: state.answers)
    (inside : body.queueId = queueId) (named : body.idempotencyKey = some key) :
    Rejects state body move := by
  cases move with
  | engine action =>
    simp only [Enqueue.step] at taken
    split at taken
    · cases taken
    · obtain ⟨system, _, rfl⟩ := Option.map_eq_some_iff.mp taken
      exact (grown_ne rfl grown).elim
  | createJob sid other =>
    obtain ⟨_, ⟨_, _, rejected, rfl⟩ | ⟨_, _, rfl⟩⟩ := begins_cases taken
    · cases (List.cons.inj grown).1
      rcases rejected with invalid | missing
      · exact .invalid invalid
      · exact .missing missing
    · exact (grown_ne rfl grown).elim
  | createBatch sid now batch =>
    obtain ⟨_, ⟨_, _, _, rfl⟩ | ⟨_, _, rfl⟩⟩ := begins_cases taken
    · cases (List.cons.inj grown).1
    · exact (grown_ne rfl grown).elim
  | fail sid =>
    simp only [Enqueue.step] at taken
    split at taken <;> cases taken
    exact (grown_ne rfl grown).elim
  | next sid now =>
    have fits := inv.fits sid
    simp only [Enqueue.step] at taken
    generalize running : state.creators sid = creator at fits taken
    cases fits with
    | idle => cases taken
    | loaded =>
      simp only [next] at taken
      split at taken <;> cases Option.some.inj taken
      · cases (List.cons.inj grown).1
      · exact (grown_ne rfl grown).elim
    | looked =>
      simp only [next] at taken
      split at taken <;> cases Option.some.inj taken
      · exact (grown_ne rfl grown).elim
      · rename_i invalid
        cases (List.cons.inj grown).1
        exact .dependencies running (by simpa using invalid)
    | checked =>
      cases insert_inserts taken with
      | enters => exact (grown_ne rfl grown).elim
      | violates => exact (grown_ne rfl grown).elim
    | flushed =>
      cases Option.some.inj taken
      cases (List.cons.inj grown).1
    | violated _ present =>
      simp only [next] at taken
      split at taken <;> cases Option.some.inj taken
      · cases (List.cons.inj grown).1
      · rename_i missing
        cases (List.cons.inj grown).1
        obtain ⟨id, committed⟩ := present inside key named
        have found := findKey_isSome committed
        rw [named, Option.bind_some, inside] at missing
        simp [missing] at found
    | @filling batch left made =>
      cases left with
      | nil =>
        cases Option.some.inj taken
        cases (List.cons.inj grown).1
      | cons row rest =>
        cases insert_inserts taken with
        | enters => exact (grown_ne rfl grown).elim
        | violates => cases (List.cons.inj grown).1

/-- A request which waits for nobody goes on to its end. -/
theorem Inv.proceeds (inv : Inv queueId state) (now : Time)
    (working : (state.creators sid).call = some call) :
    (∃ after, next state sid now (state.creators sid) = some after ∧
      (after.creators sid).rank < (state.creators sid).rank ∧
      ((after.creators sid).call = some call ∨
        ∃ reply, after.answers = ⟨call, reply⟩ :: state.answers)) ∨
    Obstructed state sid call ∧ ∀ body, call = .job body → state.rows sid = [] := by
  have fits := inv.fits sid
  generalize running : state.creators sid = creator at fits working
  cases fits with
  | idle => cases working
  | loaded =>
    cases working
    simp only [next]
    split
    · exact .inl ⟨_, rfl, by simp [State.answer, Creator.rank], .inr ⟨_, rfl⟩⟩
    · exact .inl ⟨_, rfl, by simp [State.go, Creator.rank], .inl (by simp [State.go, Creator.call])⟩
  | looked =>
    cases working
    simp only [next]
    split
    · exact .inl ⟨_, rfl, by simp [State.go, Creator.rank], .inl (by simp [State.go, Creator.call])⟩
    · exact .inl ⟨_, rfl, by simp [State.answer, Creator.rank], .inr ⟨_, rfl⟩⟩
  | @checked body queue maxAttempts empty loads =>
    cases working
    cases made : next state sid now (.checked body queue maxAttempts) with
    | none =>
      refine .inr ⟨insert_obstructed ?_ made, fun _ _ => empty⟩
      exact List.mem_singleton.mpr (congrArg (·, body.idempotencyKey) loads.same)
    | some after =>
      refine .inl ⟨after, rfl, ?_⟩
      cases insert_inserts made with
      | enters => exact ⟨by simp [State.entered, Creator.rank], .inl (by simp [State.entered, Creator.call])⟩
      | violates => exact ⟨by simp [State.go, Creator.rank], .inl (by simp [State.go, Creator.call])⟩
  | flushed =>
    cases working
    exact .inl ⟨_, rfl, by simp [State.commit, Creator.rank], .inr ⟨_, rfl⟩⟩
  | violated =>
    cases working
    simp only [next]
    split <;> exact .inl ⟨_, rfl, by simp [State.answer, Creator.rank], .inr ⟨_, rfl⟩⟩
  | @filling body left made =>
    cases working
    cases left with
    | nil => exact .inl ⟨_, rfl, by simp [State.commit, Creator.rank], .inr ⟨_, rfl⟩⟩
    | cons row rest =>
      cases taken : next state sid now (.filling body (row :: rest)) with
      | none =>
        refine .inr ⟨insert_obstructed ?_ taken, nofun⟩
        rw [← made]
        exact List.mem_map_of_mem (by simp)
      | some after =>
        refine .inl ⟨after, rfl, ?_⟩
        cases insert_inserts taken with
        | enters =>
          exact ⟨by simp [State.entered, Creator.rank], .inl (by simp [State.entered, Creator.call])⟩
        | violates => exact ⟨by simp [State.answer, Creator.rank], .inr ⟨_, rfl⟩⟩

/-- In every run which does not delete the queue, whatever requests and other operations do at
once: one job for each key, and every request with the key is answered with that job. -/
theorem enqueued_once (queueId : Uuid) (key : String)
    (reachable : (enqueue env).Reachable (Stays queueId) state) :
    EnqueuedOnce env queueId key state := by
  have inv := Inv.reachable reachable
  constructor
  · exact inv.one key
  · exact fun answer listed body asked inside named =>
      (inv.answered answer listed).job body key asked inside named
  · exact fun move after body error taken grown inside named =>
      inv.refused taken grown inside named
  · exact inv.once key
  · exact fun answer listed => (inv.answered answer listed).batch
  · exact fun move after requests taken => inv.whole requests taken
  · exact fun sid idle => inv.rows_idle idle
  · exact fun sid now call working => inv.proceeds now working

end Property

/-- Two requests with the empty key, which neither looks up, and a batch which has inserted
another key first. The second request inserts when the first has committed, and the batch after
both. -/
def racing : List Move := [
  .engine (.begin 0 (.api 0 (.createQueue { projectId := 0, name := "default" }))),
  .createJob 1 { queueId := 1, type := .immediate, handler := "sleep", idempotencyKey := some "" },
  .createJob 2 { queueId := 1, type := .immediate, handler := "echo", idempotencyKey := some "" },
  .createBatch 3 0 { queueId := 1, jobs := [
    { handler := "sleep", idempotencyKey := some "a" }, { handler := "sleep", idempotencyKey := some "" }] },
  .next 1 0,
  .next 2 0,
  .next 1 0,
  .next 2 0,
  .next 3 0,
  .next 1 0,
  .next 1 0,
  .next 2 0,
  .next 3 0,
  .next 2 0]

theorem enqueued_once_racing : ∃ state, (enqueue (sample .reread)).Reachable (Stays 1) state ∧
    state.answers.map (fun answer => answer.reply) = [.existing 32,
      .refused (.conflict "The request conflicts with existing data"), .created [32]] ∧
    state.system.db.jobs.map (fun record => record.job.handler) = ["sleep"] ∧
      EnqueuedOnce (sample .reread) 1 "" state := by
  have ran : ((enqueue (sample .reread)).run (Stays 1) {} racing).any (fun state =>
      state.answers.map (fun answer => answer.reply) = [.existing 32,
        .refused (.conflict "The request conflicts with existing data"), .created [32]] &&
      state.system.db.jobs.map (fun record => record.job.handler) = ["sleep"]) = true := by
    decide +kernel
  obtain ⟨state, reachable, passes⟩ := Machine.reachable_of_check
    (by exact ⟨initial_shape, List.nodup_nil, fun _ => rfl, fun _ => rfl, rfl, rfl⟩) racing ran
  simp only [Bool.and_eq_true, decide_eq_true_eq] at passes
  exact ⟨state, reachable, passes.1, passes.2, enqueued_once 1 "" reachable⟩


end Pulse.Enqueue
