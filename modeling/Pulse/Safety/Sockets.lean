import Pulse.Safety.Tokens
import Pulse.Ws.Sockets

/-! What is sent to a socket, and to whom it belongs: every message is about the project for which its
user was let in. -/
namespace Pulse.Ws
open Library Library.Lts Tokens

/-- The endpoint has let in the user of its socket, for the project of the pass. -/
def Endpoint.pass {Token : Type} : Endpoint Token → Option (Pass Token)
  | .connected pass => some pass
  | .closed pass => pass
  | _ => none

section Invariants
variable {Token : Type} (jwt : Jwt Token)

/-- A valid access token of the user, and a project which was there. -/
def Pass.Located (past : List Database) (pass : Pass Token) : Prop :=
  (∃ db ∈ past, userOf jwt db.directory pass.decodedAt pass.token .access = .ok pass.user) ∧
    ∃ db ∈ past, pass.project ∈ db.projects

/-- And the user's role in the organization of the project. -/
def Pass.Valid (past : List Database) (pass : Pass Token) : Prop :=
  pass.Located jwt past ∧ ∃ db ∈ past, ∃ membership,
    db.directory.findMembership pass.project.orgId pass.user.id = some membership ∧
      roleAtLeast membership.role .viewer = true

def Endpoint.Sound (past : List Database) : Endpoint Token → Prop
  | .identified token decodedAt user _ =>
    ∃ db ∈ past, userOf jwt db.directory decodedAt token .access = .ok user
  | .located pass => pass.Located jwt past
  | .authorized pass | .connected pass | .closed (some pass) => pass.Valid jwt past
  | .fresh | .closed none => True

/-- The socket was let in for the project. -/
def LetIn (endpoints : WebSocket → Endpoint Token) (projectId : Uuid) (websocket : WebSocket) : Prop :=
  ∃ pass, (endpoints websocket).pass = some pass ∧ pass.project.id = projectId

end Invariants

/-- The message tells of rows of the project, as they were committed. -/
inductive Concerns (past : List Database) (projectId : Uuid) : Message → Prop where
  | job {db : Database} {row : JobRow} (seen : db ∈ past) (inside : row ∈ db.tables.jobsOf projectId) :
      Concerns past projectId row.message
  | worker {db : Database} {row : WorkerRow} (seen : db ∈ past) (stored : row ∈ db.workers)
      (inside : row.projectId = projectId) : Concerns past projectId row.message
  | queue {db later : Database} {queue : Queue} (seen : db ∈ past) (stored : queue ∈ db.tables.queues)
      (inside : queue.projectId = projectId) (counted : later ∈ past) :
      Concerns past projectId (later.stats queue)
  | metrics {first second : Database} {oneMinAgo ts : Time} (seen : first ∈ past)
      (next : second ∈ past) : Concerns past projectId (.metricsTick
        (first.finished projectId oneMinAgo .completed)
        (second.finished projectId oneMinAgo .failed) ts)

section Sound
variable {Token : Type} (past : List Database) (endpoints : WebSocket → Endpoint Token)

/-- What is still to be sent in a visit, and to whom. -/
def Stage.Sound : Stage → Prop
  | .updating visit => ∀ row ∈ visit.rows, Concerns past visit.projectId row.message
  | .sending visit row targets _ =>
    (∀ row ∈ visit.rows, Concerns past visit.projectId row.message) ∧
      Concerns past visit.projectId row.message ∧
      ∀ websocket ∈ targets, LetIn endpoints visit.projectId websocket
  | _ => True

def Rest.Sound (projectId : Uuid) : Rest → Prop
  | .counts rows => ∀ queue ∈ rows, queue.projectId = projectId ∧
      ∃ db ∈ past, queue ∈ db.tables.queues
  | .failed oneMinAgo total => ∃ db ∈ past, total = db.finished projectId oneMinAgo .completed
  | .pushing messages after => (∀ message ∈ messages, Concerns past projectId message) ∧
      after.Sound projectId
  | .sending message targets _ messages after => Concerns past projectId message ∧
      (∀ message ∈ messages, Concerns past projectId message) ∧ after.Sound projectId ∧
      ∀ websocket ∈ targets, LetIn endpoints projectId websocket
  | _ => True

end Sound

section Invariants
variable {Token : Type} (jwt : Jwt Token)

structure Guarded (state : Sockets Token) : Prop where
  current : state.db ∈ state.past
  synced : state.publisher.tables = state.db.tables
  clients : ∀ projectId, ∀ websocket ∈ state.publisher.manager.conns projectId, ∃ pass,
    state.endpoints websocket = .connected pass ∧ pass.project.id = projectId
  endpoints : ∀ websocket, (state.endpoints websocket).Sound jwt state.past
  stage : state.publisher.stage.Sound state.past state.endpoints
  rest : ∀ visit, state.publisher.stage.visit = some visit →
    state.rest.Sound state.past state.endpoints visit.projectId
  delivered : ∀ delivery ∈ state.delivered,
    Concerns state.past delivery.projectId delivery.message ∧
      LetIn state.endpoints delivery.projectId delivery.websocket

end Invariants

section Frames
variable {Token : Type} {jwt : Jwt Token} {past later : List Database}
  {endpoints moved : WebSocket → Endpoint Token}

theorem Concerns.mono {projectId : Uuid} {message : Message} (grown : past ⊆ later)
    (concerns : Concerns past projectId message) : Concerns later projectId message := by
  cases concerns with
  | job seen inside => exact .job (grown seen) inside
  | worker seen stored inside => exact .worker (grown seen) stored inside
  | queue seen stored inside counted => exact .queue (grown seen) stored inside (grown counted)
  | metrics seen next => exact .metrics (grown seen) (grown next)

theorem Pass.Located.mono {pass : Pass Token} (grown : past ⊆ later) (located : pass.Located jwt past) :
    pass.Located jwt later := by
  obtain ⟨⟨first, seen, known⟩, second, also, stored⟩ := located
  exact ⟨⟨first, grown seen, known⟩, second, grown also, stored⟩

theorem Pass.Valid.mono {pass : Pass Token} (grown : past ⊆ later) (valid : pass.Valid jwt past) :
    pass.Valid jwt later := by
  obtain ⟨located, db, seen, member⟩ := valid
  exact ⟨located.mono grown, db, grown seen, member⟩

theorem Endpoint.Sound.mono {endpoint : Endpoint Token} (grown : past ⊆ later)
    (sound : endpoint.Sound jwt past) : endpoint.Sound jwt later := by
  cases endpoint with
  | fresh => trivial
  | identified =>
    obtain ⟨db, seen, known⟩ := sound
    exact ⟨db, grown seen, known⟩
  | located => exact Pass.Located.mono grown sound
  | authorized => exact Pass.Valid.mono grown sound
  | connected => exact Pass.Valid.mono grown sound
  | closed pass =>
    cases pass with
    | none => trivial
    | some => exact Pass.Valid.mono grown sound

theorem Stage.Sound.mono {stage : Stage} (grown : past ⊆ later)
    (stays : ∀ projectId websocket, LetIn endpoints projectId websocket →
      LetIn moved projectId websocket) (sound : stage.Sound past endpoints) :
    stage.Sound later moved := by
  cases stage with
  | updating => exact fun row member => (sound row member).mono grown
  | sending =>
    obtain ⟨rows, row, targets⟩ := sound
    exact ⟨fun row member => (rows row member).mono grown, row.mono grown,
      fun websocket member => stays _ _ (targets websocket member)⟩
  | _ => trivial

theorem Rest.Sound.mono {rest : Rest} {projectId : Uuid} (grown : past ⊆ later)
    (stays : ∀ projectId websocket, LetIn endpoints projectId websocket →
      LetIn moved projectId websocket) (sound : rest.Sound past endpoints projectId) :
    rest.Sound later moved projectId := by
  induction rest with
  | counts =>
    intro queue member
    obtain ⟨inside, db, seen, stored⟩ := sound queue member
    exact ⟨inside, db, grown seen, stored⟩
  | failed =>
    obtain ⟨db, seen, same⟩ := sound
    exact ⟨db, grown seen, same⟩
  | pushing _ _ ih =>
    exact ⟨fun message member => (sound.1 message member).mono grown, ih sound.2⟩
  | sending _ _ _ _ _ ih =>
    obtain ⟨message, messages, after, targets⟩ := sound
    exact ⟨message.mono grown, fun message member => (messages message member).mono grown, ih after,
      fun websocket member => stays _ _ (targets websocket member)⟩
  | _ => trivial

end Frames

section Steps
variable {Token : Type} {jwt : Jwt Token} {state after : Sockets Token}

theorem letIn_update {endpoints : WebSocket → Endpoint Token} {websocket : WebSocket}
    {endpoint : Endpoint Token}
    (kept : ∀ pass, (endpoints websocket).pass = some pass → endpoint.pass = some pass)
    (projectId : Uuid) (client : WebSocket) (letIn : LetIn endpoints projectId client) :
    LetIn (Function.update endpoints websocket endpoint) projectId client := by
  obtain ⟨pass, found, same⟩ := letIn
  refine ⟨pass, ?_, same⟩
  by_cases own : client = websocket
  · subst own
    rw [Function.update_self]
    exact kept pass found
  · rwa [Function.update_of_ne own]

/-- An endpoint goes on, which keeps what it has let in. -/
theorem Guarded.moved (guarded : Guarded jwt state) {websocket : WebSocket}
    {endpoint : Endpoint Token} {manager : ConnectionManager}
    (sound : endpoint.Sound jwt state.past)
    (kept : ∀ pass, (state.endpoints websocket).pass = some pass → endpoint.pass = some pass)
    (clients : ∀ projectId, ∀ client ∈ manager.conns projectId, ∃ pass,
      Function.update state.endpoints websocket endpoint client = .connected pass ∧
        pass.project.id = projectId) :
    Guarded jwt { state.moves websocket endpoint with
      publisher := { state.publisher with manager } } where
  current := guarded.current
  synced := guarded.synced
  clients := clients
  endpoints := (Function.forall_update_iff state.endpoints
    fun _ endpoint => endpoint.Sound jwt state.past).mpr
      ⟨sound, fun other _ => guarded.endpoints other⟩
  stage := guarded.stage.mono (List.Subset.refl _) (letIn_update kept)
  rest := fun visit under => (guarded.rest visit under).mono (List.Subset.refl _) (letIn_update kept)
  delivered := fun delivery member => (guarded.delivered delivery member).imp id (letIn_update kept _ _)

/-- The manager has no socket whose endpoint is not in its loop. -/
theorem Guarded.unconnected (guarded : Guarded jwt state) {websocket : WebSocket}
    (outside : ∀ pass, state.endpoints websocket ≠ .connected pass) (endpoint : Endpoint Token)
    (projectId : Uuid) : ∀ client ∈ state.publisher.manager.conns projectId, ∃ pass,
      Function.update state.endpoints websocket endpoint client = .connected pass ∧
        pass.project.id = projectId := by
  intro client member
  obtain ⟨pass, connected, same⟩ := guarded.clients projectId client member
  have other : client ≠ websocket := by
    rintro rfl
    exact outside pass connected
  exact ⟨pass, by rwa [Function.update_of_ne other], same⟩

theorem identify_sound {db : Database} {past : List Database} {token : Token} {projectId : Uuid}
    {now : Time} (current : db ∈ past) : (identify jwt db token projectId now).Sound jwt past := by
  unfold identify
  split
  · rename_i user known
    exact ⟨db, current, known⟩
  · trivial

theorem locate_sound {db : Database} {past : List Database} {token : Token} {decodedAt : Time}
    {user : User} {projectId : Uuid} (current : db ∈ past)
    (known : ∃ db ∈ past, userOf jwt db.directory decodedAt token .access = .ok user) :
    (locate db token decodedAt user projectId).Sound jwt past := by
  unfold locate
  split
  · rename_i project found
    exact ⟨known, db, current, List.mem_of_find?_eq_some found⟩
  · trivial

theorem admit_sound {db : Database} {past : List Database} {pass : Pass Token} (current : db ∈ past)
    (located : pass.Located jwt past) : (admission db pass).Sound jwt past := by
  unfold admission
  split
  · rename_i permitted
    unfold getOrgMembership at permitted
    split at permitted
    · rename_i membership found
      refine ⟨located, db, current, membership, found, ?_⟩
      simp only [bind, Except.bind, requireRole] at permitted
      split at permitted
      · assumption
      · cases permitted
    · cases permitted
  · trivial

theorem Guarded.commit (guarded : Guarded jwt state) (db : Database) : Guarded jwt { state with
    db
    publisher := { state.publisher with tables := db.tables }
    past := db :: state.past } where
  current := List.mem_cons_self
  synced := rfl
  clients := guarded.clients
  endpoints := fun websocket => (guarded.endpoints websocket).mono (List.subset_cons_self _ _)
  stage := guarded.stage.mono (List.subset_cons_self _ _) fun _ _ => id
  rest := fun visit under =>
    (guarded.rest visit under).mono (List.subset_cons_self _ _) fun _ _ => id
  delivered := fun delivery member =>
    (guarded.delivered delivery member).imp (.mono (List.subset_cons_self _ _)) id

theorem rest_after {rest next : Rest} {event : Event} (lets : rest.after event = some next) :
    next = .jobs := by
  unfold Rest.after at lets
  split at lets <;> cases lets <;> rfl

/-- A step of the publisher on its own. -/
theorem Guarded.publishes (guarded : Guarded jwt state) {event : Event} {publisher : Publisher}
    {rest : Rest} (inner : event.inner = true) (lets : state.rest.after event = some rest)
    (taken : Taken state.publisher event publisher) : Guarded jwt { state with
      publisher, rest, delivered := sends state.publisher.stage event ++ state.delivered } := by
  cases rest_after lets
  have stage := guarded.stage
  have done : ∀ {publisher : Publisher} {deliveries : List Delivery},
      publisher.tables = state.publisher.tables →
      (∀ projectId, publisher.manager.conns projectId ⊆ state.publisher.manager.conns projectId) →
      publisher.stage.Sound state.past state.endpoints →
      (∀ delivery ∈ deliveries, Concerns state.past delivery.projectId delivery.message ∧
        LetIn state.endpoints delivery.projectId delivery.websocket) →
      Guarded jwt { state with publisher, rest := .jobs, delivered := deliveries ++ state.delivered } := by
    intro publisher deliveries tables clients stage sent
    refine ⟨guarded.current, tables.trans guarded.synced, ?_, guarded.endpoints, stage,
      fun _ _ => trivial, ?_⟩
    · exact fun projectId client member => guarded.clients projectId client (clients projectId member)
    · exact fun delivery member => (List.mem_append.mp member).elim (sent delivery)
        (guarded.delivered delivery)
  have sent : ∀ delivery ∈ sends state.publisher.stage event,
      Concerns state.past delivery.projectId delivery.message ∧
        LetIn state.endpoints delivery.projectId delivery.websocket := by
    intro delivery member
    unfold sends at member
    split at member
    · rename_i sending
      rw [List.mem_singleton.mp member]
      rw [sending] at stage
      exact ⟨stage.2.1, stage.2.2 _ List.mem_cons_self⟩
    · cases member
  cases taken with
  | connect | disconnect | commit => cases inner
  | nobody => exact done rfl (fun _ => List.Subset.refl _) stage sent
  | tick | clock | finish | fail =>
    exact done rfl (fun _ => List.Subset.refl _) trivial sent
  | @select now projectId projectIds ordered looping arranged =>
    refine done rfl (fun _ => List.Subset.refl _) (fun row member => ?_) sent
    have later := arranged.1.mem_iff.mp (List.mem_of_mem_take member)
    exact .job guarded.current (guarded.synced ▸ List.mem_of_mem_filter later)
  | @broadcast visit row rows updating left =>
    rw [updating] at stage
    refine done rfl (fun _ => List.Subset.refl _) ⟨fun row member => ?_, ?_, fun client member => ?_⟩ sent
    · exact stage row (left ▸ List.mem_cons_of_mem _ member)
    · exact stage row (left ▸ List.mem_cons_self)
    · obtain ⟨pass, connected, same⟩ := guarded.clients _ client member
      exact ⟨pass, by rw [connected]; rfl, same⟩
  | send sending =>
    rw [sending] at stage
    exact done rfl (fun _ => List.Subset.refl _)
      ⟨stage.1, stage.2.1, fun client member => stage.2.2 client (List.mem_cons_of_mem _ member)⟩ sent
  | dropDead sending =>
    rw [sending] at stage
    exact done rfl (fun _ _ => disconnectAll_only) stage.1 sent
  | advance updating _ => exact done rfl (fun _ => List.Subset.refl _) trivial sent

/-- The rest of the visit goes on. -/
theorem Guarded.goes (guarded : Guarded jwt state) {visit : Visit} {rest : Rest}
    (updating : state.publisher.stage = .updating visit)
    (sound : rest.Sound state.past state.endpoints visit.projectId) :
    Guarded jwt (state.goes rest) := by
  refine { guarded with rest := fun other under => ?_ }
  have same : state.publisher.stage.visit = some other := under
  rw [updating] at same
  cases same
  exact sound

theorem Guarded.continues (guarded : Guarded jwt state) {visit : Visit} {event : Traffic Token}
    (updating : state.publisher.stage = .updating visit)
    (taken : continues state visit event = some after) : Guarded jwt after := by
  have sound := guarded.rest visit (by rw [updating]; rfl)
  cases event with
  | selectWorkers workers =>
    simp only [Ws.continues] at taken
    split at taken
    · rename_i selected
      cases taken
      refine guarded.goes updating ⟨fun message member => ?_, trivial⟩
      obtain ⟨row, listed, rfl⟩ := List.mem_map.mp member
      obtain ⟨stored, inside⟩ := List.mem_filter.mp (selected.2.mem_iff.mp listed)
      rw [Bool.and_eq_true] at inside
      exact .worker guarded.current stored (by simpa using inside.1)
    · cases taken
  | selectQueues queues =>
    simp only [Ws.continues] at taken
    split at taken
    · rename_i selected
      cases taken
      refine guarded.goes updating ?_
      split
      · trivial
      · intro queue listed
        obtain ⟨stored, inside⟩ := List.mem_filter.mp (selected.2.mem_iff.mp listed)
        exact ⟨by simpa using inside, state.db, guarded.current, stored⟩
    · cases taken
  | selectCounts =>
    simp only [Ws.continues] at taken
    split at taken
    · rename_i queues counting
      cases taken
      rw [counting] at sound
      refine guarded.goes updating ⟨fun message member => ?_, trivial⟩
      obtain ⟨queue, listed, rfl⟩ := List.mem_map.mp member
      obtain ⟨inside, db, seen, stored⟩ := sound queue listed
      exact .queue seen stored inside guarded.current
    · cases taken
  | countCompleted now =>
    simp only [Ws.continues] at taken
    split at taken
    · cases taken
      exact guarded.goes updating ⟨state.db, guarded.current, rfl⟩
    · cases taken
  | countFailed ts =>
    simp only [Ws.continues] at taken
    split at taken
    · rename_i oneMinAgo completed counted
      cases taken
      rw [counted] at sound
      obtain ⟨db, seen, rfl⟩ := sound
      refine guarded.goes updating ⟨fun message member => ?_, trivial⟩
      rw [List.mem_singleton.mp member]
      exact .metrics seen guarded.current
    · cases taken
  | broadcast =>
    simp only [Ws.continues] at taken
    split at taken
    · rename_i after pushing
      cases taken
      rw [pushing] at sound
      exact guarded.goes updating sound.2
    · rename_i message messages after pushing
      cases taken
      rw [pushing] at sound
      refine guarded.goes updating ⟨sound.1 _ List.mem_cons_self,
        fun message member => sound.1 message (List.mem_cons_of_mem _ member), sound.2,
        fun client member => ?_⟩
      obtain ⟨pass, connected, same⟩ := guarded.clients _ client member
      exact ⟨pass, by rw [connected]; rfl, same⟩
    · cases taken
  | send reached =>
    simp only [Ws.continues] at taken
    split at taken
    · rename_i message websocket targets dead messages after sending
      rw [sending] at sound
      obtain ⟨concerns, others, following, letIn⟩ := sound
      have rest := fun client member => letIn client (List.mem_cons_of_mem _ member)
      split at taken
      · cases taken
        have next : Guarded jwt (state.goes (.sending message targets dead messages after)) :=
          guarded.goes updating ⟨concerns, others, following, rest⟩
        refine { next with delivered := fun delivery member => ?_ }
        rcases List.mem_cons.mp member with rfl | old
        · exact ⟨concerns, letIn _ List.mem_cons_self⟩
        · exact guarded.delivered delivery old
      · cases taken
        exact guarded.goes updating ⟨concerns, others, following, rest⟩
    · cases taken
  | dropDead =>
    simp only [Ws.continues] at taken
    split at taken
    · rename_i message dead messages after sending
      cases taken
      rw [sending] at sound
      have dropped : Guarded jwt (state.drops visit.projectId dead) :=
        { guarded with clients := fun projectId client member =>
            guarded.clients projectId client (disconnectAll_only member) }
      exact dropped.goes updating ⟨sound.2.1, sound.2.2.1⟩
    · cases taken
  | _ => cases taken

theorem Guarded.step (guarded : Guarded jwt state) {event : Traffic Token}
    (taken : traffic jwt state event = some after) : Guarded jwt after := by
  cases event with
  | publisher event =>
    simp only [traffic] at taken
    split at taken
    · rename_i inner
      obtain ⟨rest, lets, taken⟩ := Option.bind_eq_some_iff.mp taken
      obtain ⟨publisher, made, taken⟩ := Option.bind_eq_some_iff.mp taken
      cases taken
      exact guarded.publishes inner lets (step_taken made)
    · cases taken
  | commit db =>
    cases taken
    exact guarded.commit db
  | connection websocket token projectId now =>
    simp only [traffic] at taken
    split at taken
    · rename_i fresh
      cases taken
      exact guarded.moved (identify_sound guarded.current) (by simp [fresh, Endpoint.pass])
        (guarded.unconnected (by simp [fresh]) _)
    · cases taken
  | findProject websocket =>
    simp only [traffic] at taken
    split at taken
    · rename_i token decodedAt user projectId found
      cases taken
      have known := guarded.endpoints websocket
      rw [found] at known
      exact guarded.moved (locate_sound guarded.current known) (by simp [found, Endpoint.pass])
        (guarded.unconnected (by simp [found]) _)
    · cases taken
  | ensureRole websocket =>
    simp only [traffic] at taken
    split at taken
    · rename_i pass found
      cases taken
      have located := guarded.endpoints websocket
      rw [found] at located
      exact guarded.moved (admit_sound guarded.current located) (by simp [found, Endpoint.pass])
        (guarded.unconnected (by simp [found]) _)
    · cases taken
  | accept websocket accepted =>
    simp only [traffic] at taken
    split at taken
    · rename_i pass found
      have valid := guarded.endpoints websocket
      rw [found] at valid
      split at taken
      · cases taken
        refine guarded.moved valid (by simp [found, Endpoint.pass]) fun projectId client member => ?_
        rcases connect_only member with old | ⟨rfl, rfl⟩
        · exact guarded.unconnected (by simp [found]) _ projectId client old
        · exact ⟨pass, by rw [Function.update_self], rfl⟩
      · cases taken
        exact guarded.moved trivial (by simp [found, Endpoint.pass])
          (guarded.unconnected (by simp [found]) _)
    · cases taken
  | disconnect websocket =>
    simp only [traffic] at taken
    split at taken
    · rename_i pass found
      have valid := guarded.endpoints websocket
      rw [found] at valid
      cases taken
      have sound : Endpoint.Sound jwt state.past (.closed (some pass)) := valid
      refine guarded.moved sound (by simp [found, Endpoint.pass]) ?_
      intro projectId client member
      obtain ⟨old, another⟩ := disconnect_only member
      obtain ⟨known, connected, same⟩ := guarded.clients projectId client old
      have other : client ≠ websocket := by
        rintro rfl
        cases found.symm.trans connected
        exact another ⟨same.symm, rfl⟩
      exact ⟨known, by rwa [Function.update_of_ne other], same⟩
    · cases taken
  | abort websocket =>
    simp only [traffic] at taken
    split at taken
    · rename_i found
      cases taken
      exact guarded.moved trivial (by simp [found, Endpoint.pass])
        (guarded.unconnected (by simp [found]) _)
    · rename_i found
      cases taken
      exact guarded.moved trivial (by simp [found, Endpoint.pass])
        (guarded.unconnected (by simp [found]) _)
    · cases taken
  | _ =>
    simp only [traffic] at taken
    split at taken
    · rename_i visit updating
      split at taken
      · exact guarded.continues updating taken
      · cases taken
    · cases taken

theorem publishing_drops (dead : List WebSocket) (projectId : Uuid)
    (reachable : publishing.Reachable anyStep state.publisher) :
    publishing.Reachable anyStep (state.drops projectId dead).publisher := by
  induction dead generalizing state with
  | nil => exact reachable
  | cons ws rest ih =>
    refine @ih { state with publisher := { state.publisher with
      manager := state.publisher.manager.disconnect projectId ws } } ?_
    exact reachable.extend (show anyStep _ (Event.disconnect projectId ws) from trivial) rfl

theorem continues_publisher {visit : Visit} {event : Traffic Token}
    (taken : continues state visit event = some after) : after.publisher = state.publisher ∨
      ∃ dead, after.publisher = (state.drops visit.projectId dead).publisher := by
  cases event with
  | selectWorkers | selectQueues | selectCounts | countCompleted | countFailed | broadcast =>
    simp only [continues] at taken
    split at taken <;> cases taken <;> exact .inl rfl
  | send reached =>
    simp only [continues] at taken
    split at taken
    · split at taken <;> cases taken <;> exact .inl rfl
    · cases taken
  | dropDead =>
    simp only [continues] at taken
    split at taken
    · cases taken
      exact .inr ⟨_, rfl⟩
    · cases taken
  | _ => cases taken

/-- The publisher's part of every run is a run of the publisher's own model. -/
theorem publisher_reachable (reachable : (sockets jwt).Reachable anyStep state) :
    publishing.Reachable anyStep state.publisher := by
  refine @Machine.Reachable.invariant _ _ (sockets jwt) anyStep
    (fun state => publishing.Reachable anyStep state.publisher) ?_ ?_ state reachable
  · rintro _ rfl
    exact .start ⟨rfl, rfl⟩
  · intro state event after earlier _ taken
    cases event with
    | publisher event =>
      simp only [sockets, traffic] at taken
      split at taken
      · obtain ⟨_, _, taken⟩ := Option.bind_eq_some_iff.mp taken
        obtain ⟨publisher, made, taken⟩ := Option.bind_eq_some_iff.mp taken
        cases taken
        exact earlier.extend trivial made
      · cases taken
    | commit db =>
      cases taken
      exact Machine.Reachable.extend earlier (show anyStep _ (Event.commit db.tables) from trivial) rfl
    | accept websocket accepted =>
      simp only [sockets, traffic] at taken
      split at taken
      · rename_i pass _
        split at taken <;> cases taken
        · exact Machine.Reachable.extend earlier
            (show anyStep _ (Event.connect pass.project.id websocket) from trivial) rfl
        · exact earlier
      · cases taken
    | disconnect websocket =>
      simp only [sockets, traffic] at taken
      split at taken
      · rename_i pass _
        cases taken
        exact Machine.Reachable.extend earlier
          (show anyStep _ (Event.disconnect pass.project.id websocket) from trivial) rfl
      · cases taken
    | connection | findProject | ensureRole | abort =>
      simp only [sockets, traffic] at taken
      split at taken <;> cases taken <;> exact earlier
    | _ =>
      simp only [sockets, traffic] at taken
      split at taken
      · split at taken
        · rcases continues_publisher taken with same | ⟨dead, same⟩
          · exact same ▸ earlier
          · exact same ▸ publishing_drops dead _ earlier
        · cases taken
      · cases taken

end Steps

/-- A project of one user's organization, with a queue and a job. -/
def watched : Database where
  tables := {
    queues := [⟨5, 4, none, "mail", 0, 5, none, false⟩]
    jobs := [⟨6, .queued, 5, 90⟩] }
  directory := {
    users := [⟨1, "ada@example.com"⟩, ⟨2, "bob@example.com"⟩]
    organizations := [⟨3, "acme"⟩]
    members := [⟨7, 3, 1, .viewer⟩] }
  projects := [⟨4, 3, "Mail", "mail"⟩]

/-- A viewer and a stranger connect, and the publisher makes one round. -/
def oneRound : List (Traffic (Option Payload)) := [
  .commit watched,
  .connection 0 (createToken sealed {} 0 1 .access) 4 60,
  .connection 1 (createToken sealed {} 0 2 .access) 4 60,
  .findProject 0,
  .findProject 1,
  .ensureRole 0,
  .ensureRole 1,
  .accept 0 true,
  .publisher .tick,
  .publisher (.clock 92),
  .publisher (.select [⟨6, .queued, 5, 90⟩]),
  .publisher .broadcast,
  .publisher (.send true),
  .publisher .dropDead,
  .selectWorkers [],
  .broadcast,
  .selectQueues [⟨5, 4, none, "mail", 0, 5, none, false⟩],
  .selectCounts,
  .broadcast,
  .send true,
  .dropDead,
  .broadcast,
  .countCompleted 92,
  .countFailed 92,
  .broadcast,
  .send true,
  .dropDead,
  .broadcast,
  .publisher .advance,
  .publisher .finish]

end Pulse.Ws
