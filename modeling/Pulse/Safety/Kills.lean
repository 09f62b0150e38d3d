import Pulse.Chaos.Step

/-! A kill hits the worker for which it was meant: whoever crashes of one has been chosen by an admin
while its row was live, and no row is chosen again. -/
namespace Pulse.Chaos
open Library.Lts

/-- The user was there. -/
def Known (past : List Tables) (userId : Uuid) : Prop :=
  ∃ tables ∈ past, ∃ user ∈ tables.directory.users, user.id = userId

/-- The project was there. -/
def Stored (past : List Tables) (project : Tenants.Project) : Prop :=
  ∃ tables ∈ past, project ∈ tables.projects

/-- The user was an admin of the project's organization. -/
def Permitted (past : List Tables) (userId : Uuid) (project : Tenants.Project) : Prop :=
  ∃ tables ∈ past, ∃ membership,
    tables.directory.findMembership project.orgId userId = some membership ∧
      roleAtLeast membership.role .admin = true

structure Kill.Justified (settings : Settings) (past : List Tables) (kill : Kill) : Prop where
  enabled : settings.chaosEnabled = true
  known : Known past kill.userId
  stored : Stored past kill.project
  permitted : Permitted past kill.userId kill.project
  chosen : kill.row ∈ kill.rows
  live : kill.row.live settings kill.readAt kill.project.id = true

/-- None of the first kills has hit the worker. -/
def Spared (kills : List Kill) (count : Nat) (id : Uuid) : Prop :=
  count ≤ kills.length ∧ ∀ former ∈ kills.take count, former.row.id ≠ id

/-- No kill which was committed before has hit the worker. -/
def Kill.First (kills : List Kill) (kill : Kill) : Prop :=
  Spared kills kill.earlier kill.row.id

/-- A kill has hit the worker, and none of the first ones. -/
def KilledSince (kills : List Kill) (count : Nat) (id : Uuid) : Prop :=
  Spared kills count id ∧ ∃ kill ∈ kills, kill.row.id = id

def Request.Sound (settings : Settings) (fleet : Fleet) : Request → Prop
  | .loading userId _ _ => settings.chaosEnabled = true ∧ Known fleet.past userId
  | .checking userId project _ =>
    settings.chaosEnabled = true ∧ Known fleet.past userId ∧ Stored fleet.past project
  | .choosing userId project _ => settings.chaosEnabled = true ∧ Known fleet.past userId ∧
    Stored fleet.past project ∧ Permitted fleet.past userId project
  | .deleting kill | .committing kill =>
    kill.Justified settings fleet.past ∧ kill.row.id < fleet.nextUuid ∧ kill.First fleet.kills

/-- A kill of the worker was announced. -/
def Signalled (kills : List Kill) (id : Uuid) : Prop :=
  ∃ kill ∈ kills, kill.row.id = id ∧ kill.mode = "signal"

/-- What a process dies of, and what it has yet to hear. -/
structure Process.Aimed (fleet : Fleet) (process : Process) : Prop where
  flag : ∀ id, process.exit = some (.flag id) →
    id ∈ process.own ∧ ∃ kill ∈ fleet.kills, kill.row.id = id
  notification : ∀ id, process.exit = some (.notification id) →
    id ∈ process.own ∧ Signalled fleet.kills id
  sigkill : process.exit = some .sigkill →
    ∃ kill ∈ fleet.pods, kill.row.hostname = process.hostname
  heard : process.exit = none → ∀ id ∈ process.addressed, process.workerId = some id →
    ∃ waiting, process.listener = some waiting ∧ id ∈ waiting

structure Process.Sound (fleet : Fleet) (process : Process) : Prop where
  issued : ∀ id ∈ process.own, id < fleet.nextUuid
  worker : ∀ id, process.workerId = some id → id ∈ process.own
  addressed : ∀ id ∈ process.addressed, id ∈ process.own
  refreshing : ∀ id, process.stage = .refreshing id →
    id ∈ process.own ∧ id ∉ process.addressed ∧ process.workerId ≠ some id
  loaded : ∀ id status now before, process.stage = .loaded id status now before →
    id ∈ process.own ∧ fleet.late id = [] ∧ Spared fleet.kills before id
  waiting : ∀ waiting, process.listener = some waiting → ∀ id ∈ waiting, Signalled fleet.kills id
  aimed : process.Aimed fleet

/-- No row belongs to two processes. -/
def Fleet.Apart (fleet : Fleet) : Prop :=
  ∀ first second one other id, fleet.processes first = some one →
    fleet.processes second = some other → id ∈ one.own → id ∈ other.own → first = second

structure Fleet.Orderly (settings : Settings) (fleet : Fleet) : Prop where
  processes : ∀ pid process, fleet.processes pid = some process → process.Sound fleet
  apart : fleet.Apart
  issued : ∀ row ∈ fleet.rows, row.id < fleet.nextUuid
  flagged : ∀ row ∈ fleet.rows, row.chaosKillRequestedAt.isSome = true →
    ∃ kill ∈ fleet.kills, kill.row.id = row.id
  spent : ∀ kill ∈ fleet.kills, kill.row.id < fleet.nextUuid ∧
    ∀ row ∈ fleet.rows, row.id = kill.row.id → row.chaosKillRequestedAt.isSome = true
  late : ∀ id, (fleet.late id).length ≤ 1 ∧
    ∀ before ∈ fleet.late id, KilledSince fleet.kills before id
  requests : ∀ rid request, fleet.requests rid = some request → request.Sound settings fleet
  kills : ∀ kill ∈ fleet.kills ++ fleet.pods, kill.Justified settings fleet.past
  single : ∀ index (kill : Kill), fleet.kills[index]? = some kill →
    kill.earlier ≤ index ∧ kill.First fleet.kills
  current : fleet.tables ∈ fleet.past

section Processes
variable {fleet later : Fleet} {process : Process}

theorem Signalled.mono {kills more : List Kill} {id : Uuid} (signalled : Signalled kills id)
    (grown : kills ⊆ more) : Signalled more id := by
  obtain ⟨kill, member, reason⟩ := signalled
  exact ⟨kill, grown member, reason⟩

theorem Spared.mono {kills more : List Kill} {count : Nat} {id : Uuid}
    (spared : Spared kills count id) (grown : kills <+: more) : Spared more count id := by
  obtain ⟨within, free⟩ := spared
  obtain ⟨rest, rfl⟩ := grown
  refine ⟨?_, ?_⟩
  · rw [List.length_append]
    omega
  · rw [List.take_append_of_le_length within]
    exact free

theorem KilledSince.mono {kills more : List Kill} {count : Nat} {id : Uuid}
    (killed : KilledSince kills count id) (grown : kills <+: more) : KilledSince more count id := by
  obtain ⟨spared, kill, member, hit⟩ := killed
  exact ⟨spared.mono grown, kill, grown.subset member, hit⟩

theorem Process.Sound.mono (sound : process.Sound fleet) (grows : fleet.nextUuid ≤ later.nextUuid)
    (kills : fleet.kills <+: later.kills) (pods : fleet.pods ⊆ later.pods)
    (late : ∀ id status now before, process.stage = .loaded id status now before →
      later.late id = fleet.late id) : process.Sound later where
  issued := fun id member => (sound.issued id member).trans_le grows
  worker := sound.worker
  addressed := sound.addressed
  refreshing := sound.refreshing
  loaded := by
    intro id status now before stage
    obtain ⟨own, none, spared⟩ := sound.loaded id status now before stage
    exact ⟨own, (late id status now before stage).trans none, spared.mono kills⟩
  waiting := fun waiting queue id member =>
    (sound.waiting waiting queue id member).mono kills.subset
  aimed := by
    refine ⟨?_, ?_, ?_, sound.aimed.heard⟩
    · intro id exit
      obtain ⟨own, kill, member, same⟩ := sound.aimed.flag id exit
      exact ⟨own, kill, kills.subset member, same⟩
    · intro id exit
      obtain ⟨own, signalled⟩ := sound.aimed.notification id exit
      exact ⟨own, signalled.mono kills.subset⟩
    · intro exit
      obtain ⟨kill, member, same⟩ := sound.aimed.sigkill exit
      exact ⟨kill, pods member, same⟩

theorem raises_own (process : Process) : process.raises.own = process.own := by
  unfold Process.raises
  split <;> rfl

theorem onChaos_own (process : Process) (payload : Uuid) (rest : List Uuid) :
    (process.onChaos payload rest).own = process.own := by
  unfold Process.onChaos
  split <;> rfl

theorem heartbeatOnce_own (process : Process) (rows : List WorkerRow) (id : Uuid) (now : Time)
    (busy : Bool) (before : Nat) :
    (process.heartbeatOnce rows id now busy before).own = process.own := by
  unfold Process.heartbeatOnce
  split
  · rfl
  · split <;> rfl

/-- A process which has not ended owes nothing but what it has yet to hear. -/
theorem aimed_running (running : process.exit = none)
    (heard : ∀ id ∈ process.addressed, process.workerId = some id →
      ∃ waiting, process.listener = some waiting ∧ id ∈ waiting) : process.Aimed fleet := by
  refine ⟨?_, ?_, ?_, fun _ => heard⟩
  · intro id exit
    rw [running] at exit
    cases exit
  · intro id exit
    rw [running] at exit
    cases exit
  · intro exit
    rw [running] at exit
    cases exit

/-- Any end but one of a kill. -/
theorem Process.Sound.ends (sound : process.Sound fleet) {exit : Exit}
    (aimed : ({ process with exit := some exit } : Process).Aimed fleet) :
    ({ process with exit := some exit } : Process).Sound fleet :=
  { sound with aimed }

theorem Process.Sound.crash (sound : process.Sound fleet) :
    ({ process with exit := some .other } : Process).Sound fleet :=
  sound.ends ⟨by simp, by simp, by simp, by simp⟩

/-- A process goes on with a stage in which it has neither a row to refresh nor one to write. -/
theorem Process.Sound.goes (sound : process.Sound fleet) (running : process.exit = none)
    {stage : Stage} (plain : stage = .idle ∨ stage = .registering) :
    ({ process with stage } : Process).Sound fleet where
  issued := sound.issued
  worker := sound.worker
  addressed := sound.addressed
  refreshing := by
    rintro id rfl
    simp at plain
  loaded := by
    rintro id status now before rfl
    simp at plain
  waiting := sound.waiting
  aimed := aimed_running running (sound.aimed.heard running)

theorem Process.Sound.raises (sound : process.Sound fleet) (running : process.exit = none) :
    process.raises.Sound fleet := by
  unfold Process.raises
  split
  · exact sound.crash
  · exact sound.goes running (.inl rfl)

theorem Process.Sound.notify (sound : process.Sound fleet) {payload : Uuid}
    (signalled : Signalled fleet.kills payload) : (process.notify payload).Sound fleet := by
  have told : ∀ id ∈ (process.notify payload).addressed, id ∈ process.addressed ∨
      id = payload ∧ process.listener.isSome = true ∧ process.workerId = some payload := by
    intro id member
    simp only [Process.notify] at member
    split at member
    · rename_i both
      rcases List.mem_cons.mp member with rfl | old
      · exact .inr ⟨rfl, by simpa using both⟩
      · exact .inl old
    · exact .inl member
  refine ⟨sound.issued, sound.worker, ?_, ?_, sound.loaded, ?_, ?_⟩
  · intro id member
    rcases told id member with old | ⟨rfl, _, worker⟩
    · exact sound.addressed id old
    · exact sound.worker id worker
  · intro id stage
    obtain ⟨own, quiet, other⟩ := sound.refreshing id stage
    refine ⟨own, fun member => ?_, other⟩
    rcases told id member with old | ⟨rfl, _, worker⟩
    · exact quiet old
    · exact other worker
  · intro waiting queue id member
    obtain ⟨before, listener, rfl⟩ := Option.map_eq_some_iff.mp queue
    rcases List.mem_append.mp member with old | new
    · exact sound.waiting before listener id old
    · cases List.mem_singleton.mp new
      exact signalled
  · refine ⟨sound.aimed.flag, sound.aimed.notification, sound.aimed.sigkill, ?_⟩
    intro running id member worker
    rcases told id member with old | ⟨rfl, listens, _⟩
    · obtain ⟨before, listener, inside⟩ := sound.aimed.heard running id old worker
      refine ⟨before ++ [payload], ?_, List.mem_append_left _ inside⟩
      simp [Process.notify, listener]
    · obtain ⟨before, listener⟩ := Option.isSome_iff_exists.mp listens
      refine ⟨before ++ [id], ?_, List.mem_append_right _ (List.mem_singleton_self _)⟩
      simp [Process.notify, listener]

theorem Process.Sound.onChaos (sound : process.Sound fleet) (running : process.exit = none)
    {payload : Uuid} {rest : List Uuid} (listener : process.listener = some (payload :: rest)) :
    (process.onChaos payload rest).Sound fleet := by
  unfold Process.onChaos
  split
  · rename_i ours
    refine sound.ends ⟨by simp, ?_, by simp, by simp⟩
    intro id exit
    cases exit
    exact ⟨sound.worker payload ours, sound.waiting _ listener payload List.mem_cons_self⟩
  · rename_i foreign
    refine { sound with waiting := ?_, aimed := aimed_running running ?_ }
    · intro waiting queue id member
      cases queue
      exact sound.waiting _ listener id (List.mem_cons_of_mem _ member)
    · intro id member worker
      obtain ⟨before, same, inside⟩ := sound.aimed.heard running id member worker
      rw [listener] at same
      cases same
      rcases List.mem_cons.mp inside with rfl | old
      · exact absurd worker foreign
      · exact ⟨rest, rfl, old⟩

end Processes

section Fleets
variable {settings : Settings} {fleet : Fleet} {pid : Pid} {rid : Rid} {process after : Process}

theorem running_some : fleet.running pid = some process ↔
    fleet.processes pid = some process ∧ process.exit = none := by
  rw [Fleet.running, Option.filter_eq_some_iff, Option.isNone_iff_eq_none]

/-- One process goes on, and writes no row. -/
theorem Fleet.Orderly.set (orderly : fleet.Orderly settings)
    (own : ∀ id ∈ after.own, ∃ process, fleet.processes pid = some process ∧ id ∈ process.own)
    (sound : after.Sound fleet) : (fleet.set pid after).Orderly settings where
  processes := by
    intro other process found
    simp only [Fleet.set] at found
    by_cases same : other = pid
    · rw [same, Function.update_self] at found
      cases found
      exact sound.mono le_rfl List.prefix_rfl (List.Subset.refl _) fun _ _ _ _ _ => rfl
    · rw [Function.update_of_ne same] at found
      exact (orderly.processes other process found).mono le_rfl List.prefix_rfl (List.Subset.refl _)
        fun _ _ _ _ _ => rfl
  apart := by
    have former : ∀ other process id, (fleet.set pid after).processes other = some process →
        id ∈ process.own → ∃ before, fleet.processes other = some before ∧ id ∈ before.own := by
      intro other process id found member
      simp only [Fleet.set] at found
      by_cases same : other = pid
      · subst same
        rw [Function.update_self] at found
        cases found
        exact own id member
      · rw [Function.update_of_ne same] at found
        exact ⟨process, found, member⟩
    intro first second one other id found present left right
    obtain ⟨before, was, mine⟩ := former first one id found left
    obtain ⟨rival, there, theirs⟩ := former second other id present right
    exact orderly.apart first second before rival id was there mine theirs
  issued := orderly.issued
  flagged := orderly.flagged
  spent := orderly.spent
  late := orderly.late
  requests := orderly.requests
  kills := orderly.kills
  single := orderly.single
  current := orderly.current

theorem Fleet.Orderly.goes (orderly : fleet.Orderly settings)
    (found : fleet.processes pid = some process) (own : after.own = process.own)
    (sound : after.Sound fleet) : (fleet.set pid after).Orderly settings :=
  orderly.set (fun _ member => ⟨process, found, own ▸ member⟩) sound

/-- Rows are deleted, or written in columns which no kill is about. -/
theorem Fleet.Orderly.writes (orderly : fleet.Orderly settings) {rows : List WorkerRow}
    (kept : ∀ row ∈ rows, ∃ old ∈ fleet.rows, old.id = row.id ∧
      old.chaosKillRequestedAt = row.chaosKillRequestedAt) :
    ({ fleet with rows } : Fleet).Orderly settings where
  processes := fun pid process found => (orderly.processes pid process found).mono le_rfl
    List.prefix_rfl (List.Subset.refl _) fun _ _ _ _ _ => rfl
  apart := orderly.apart
  issued := by
    intro row member
    obtain ⟨old, there, id, _⟩ := kept row member
    exact id ▸ orderly.issued old there
  flagged := by
    intro row member requested
    obtain ⟨old, there, id, flag⟩ := kept row member
    obtain ⟨kill, killed, same⟩ := orderly.flagged old there (flag ▸ requested)
    exact ⟨kill, killed, same.trans id⟩
  spent := by
    intro kill killed
    obtain ⟨below, marked⟩ := orderly.spent kill killed
    refine ⟨below, fun row member same => ?_⟩
    obtain ⟨old, there, id, flag⟩ := kept row member
    exact flag ▸ marked old there (id.trans same)
  late := orderly.late
  requests := orderly.requests
  kills := orderly.kills
  single := orderly.single
  current := orderly.current

/-- An UPDATE of one row in such columns. -/
theorem Fleet.Orderly.update (orderly : fleet.Orderly settings) (id : Uuid)
    {f : WorkerRow → WorkerRow} (keeps : ∀ row, (f row).id = row.id ∧
      (f row).chaosKillRequestedAt = row.chaosKillRequestedAt) :
    (fleet.update id f).Orderly settings := by
  refine orderly.writes fun row member => ?_
  obtain ⟨old, there, rfl⟩ := List.mem_map.mp member
  refine ⟨old, there, ?_⟩
  unfold onId
  split
  · exact ⟨(keeps old).1.symm, (keeps old).2.symm⟩
  · exact ⟨rfl, rfl⟩

theorem Fleet.Orderly.asks (orderly : fleet.Orderly settings) {next : Option Request}
    (sound : ∀ request, next = some request → request.Sound settings fleet) :
    (fleet.setRequest rid next).Orderly settings where
  processes := fun pid process found => (orderly.processes pid process found).mono le_rfl
    List.prefix_rfl (List.Subset.refl _) fun _ _ _ _ _ => rfl
  apart := orderly.apart
  issued := orderly.issued
  flagged := orderly.flagged
  spent := orderly.spent
  late := orderly.late
  requests := by
    intro other request found
    simp only [Fleet.setRequest] at found
    by_cases same : other = rid
    · rw [same, Function.update_self] at found
      exact sound request found
    · rw [Function.update_of_ne same] at found
      exact orderly.requests other request found
  kills := orderly.kills
  single := orderly.single
  current := orderly.current

/-- A heartbeat which had read its row before the kill. -/
theorem Fleet.Orderly.belated (orderly : fleet.Orderly settings) {id : Uuid}
    {before : Nat} (first : fleet.late id = []) (killed : KilledSince fleet.kills before id)
    (alone : ∀ pid process status now before, fleet.processes pid = some process →
      process.stage ≠ .loaded id status now before) :
    ({ fleet with late := Function.update fleet.late id (before :: fleet.late id) } : Fleet).Orderly
      settings where
  processes := by
    intro pid process found
    refine (orderly.processes pid process found).mono le_rfl List.prefix_rfl (List.Subset.refl _) ?_
    intro other status now read stage
    refine Function.update_of_ne ?_ _ _
    rintro rfl
    exact alone pid process status now read found stage
  apart := orderly.apart
  issued := orderly.issued
  flagged := orderly.flagged
  spent := orderly.spent
  late := by
    intro other
    dsimp only
    by_cases same : other = id
    · subst same
      rw [Function.update_self, first]
      refine ⟨le_rfl, fun read member => ?_⟩
      cases List.mem_singleton.mp member
      exact killed
    · rw [Function.update_of_ne same]
      exact orderly.late other
  requests := orderly.requests
  kills := orderly.kills
  single := orderly.single
  current := orderly.current

theorem Process.Sound.registered (sound : process.Sound fleet) (running : process.exit = none)
    (projectId : Uuid) (now : Time) : ({ process with
      stage := .refreshing fleet.nextUuid, own := fleet.nextUuid :: process.own } : Process).Sound
      (fleet.register pid process projectId now) := by
  have fresh : fleet.nextUuid ∉ process.own := fun member =>
    Nat.lt_irrefl _ (sound.issued _ member)
  refine ⟨?_, ?_, ?_, ?_, ?_, sound.waiting, aimed_running running (sound.aimed.heard running)⟩
  · intro id member
    rcases List.mem_cons.mp member with rfl | old
    · exact Nat.lt_succ_self _
    · exact (sound.issued id old).trans_le (Nat.le_succ _)
  · exact fun id worker => List.mem_cons_of_mem _ (sound.worker id worker)
  · exact fun id member => List.mem_cons_of_mem _ (sound.addressed id member)
  · intro id stage
    cases stage
    exact ⟨List.mem_cons_self, fun member => fresh (sound.addressed _ member),
      fun worker => fresh (sound.worker _ worker)⟩
  · intro id status now before stage
    cases stage

/-- After a registration a row is the new one, or was the same process's before. -/
theorem register_own {projectId : Uuid} {now : Time} {other : Pid} {one : Process} {id : Uuid}
    (found : fleet.processes pid = some process)
    (present : (fleet.register pid process projectId now).processes other = some one)
    (member : id ∈ one.own) : other = pid ∧ id = fleet.nextUuid ∨
      ∃ before, fleet.processes other = some before ∧ id ∈ before.own := by
  simp only [Fleet.register, Fleet.set] at present
  by_cases same : other = pid
  · subst same
    rw [Function.update_self] at present
    cases present
    rcases List.mem_cons.mp member with rfl | old
    · exact .inl ⟨rfl, rfl⟩
    · exact .inr ⟨process, found, old⟩
  · rw [Function.update_of_ne same] at present
    exact .inr ⟨one, present, member⟩

theorem Fleet.Orderly.register (orderly : fleet.Orderly settings)
    (found : fleet.processes pid = some process) (running : process.exit = none) (projectId : Uuid)
    (now : Time) : (fleet.register pid process projectId now).Orderly settings := by
  have sound := orderly.processes pid process found
  have grows : fleet.nextUuid ≤ fleet.nextUuid + 1 := Nat.le_succ _
  have older : ∀ other one, fleet.processes other = some one → fleet.nextUuid ∉ one.own :=
    fun other one present member => Nat.lt_irrefl _ ((orderly.processes other one present).issued _ member)
  refine ⟨?_, ?_, ?_, ?_, ?_, orderly.late, ?_, orderly.kills, orderly.single, orderly.current⟩
  · intro other one present
    simp only [Fleet.register, Fleet.set] at present
    by_cases same : other = pid
    · rw [same, Function.update_self] at present
      cases present
      exact sound.registered running projectId now
    · rw [Function.update_of_ne same] at present
      exact (orderly.processes other one present).mono grows List.prefix_rfl
        (List.Subset.refl _) fun _ _ _ _ _ => rfl
  · intro first second one other id left right mine theirs
    rcases register_own found left mine with ⟨rfl, rfl⟩ | ⟨before, was, inside⟩ <;>
      rcases register_own found right theirs with ⟨rfl, new⟩ | ⟨rival, there, within⟩
    · rfl
    · exact absurd within (older second rival there)
    · exact absurd (new ▸ inside) (older first before was)
    · exact orderly.apart first second before rival id was there inside within
  · intro row member
    rcases List.mem_append.mp member with old | new
    · exact (orderly.issued row old).trans_le grows
    · rw [List.mem_singleton.mp new]
      exact Nat.lt_succ_self _
  · intro row member requested
    rcases List.mem_append.mp member with old | new
    · exact orderly.flagged row old requested
    · rw [List.mem_singleton.mp new] at requested
      cases requested
  · intro kill killed
    obtain ⟨below, marked⟩ := orderly.spent kill killed
    refine ⟨below.trans_le grows, fun row member same => ?_⟩
    rcases List.mem_append.mp member with old | new
    · exact marked row old same
    · rw [List.mem_singleton.mp new] at same
      exact absurd same.symm below.ne
  · intro rid request asked
    have sound := orderly.requests rid request asked
    cases request with
    | loading | checking | choosing => exact sound
    | deleting | committing =>
      obtain ⟨justified, below, first⟩ := sound
      exact ⟨justified, below.trans_le grows, first⟩

/-- The process whose heartbeat commits is the one which has the row loaded. -/
theorem Fleet.Orderly.commitHeartbeat (orderly : fleet.Orderly settings)
    (found : fleet.processes pid = some process) (running : process.exit = none) {id : Uuid}
    {status : Option WorkerStatus} {now : Time} {before : Nat}
    (stage : process.stage = .loaded id status now before) :
    (fleet.commitHeartbeat pid process id status now before).Orderly settings := by
  have sound := orderly.processes pid process found
  obtain ⟨own, first, spared⟩ := sound.loaded id status now before stage
  have done : (fleet.set pid { process with stage := .idle }).Orderly settings :=
    orderly.goes found rfl (sound.goes running (.inl rfl))
  unfold Fleet.commitHeartbeat
  split
  · have written := done.update id (f := fun row =>
      { row with status := status.getD row.status, lastHeartbeatAt := some now })
      fun _ => ⟨rfl, rfl⟩
    by_cases doomed : fleet.doomed id = true
    · rw [if_pos doomed]
      obtain ⟨row, member, found_row⟩ := List.any_eq_true.mp doomed
      simp only [Bool.and_eq_true, decide_eq_true_eq] at found_row
      obtain ⟨kill, killed, same⟩ := orderly.flagged row member found_row.2
      have hit : kill.row.id = id := same.trans found_row.1
      subst hit
      refine written.belated first ⟨spared, kill, killed, rfl⟩ ?_
      intro other one status now before present loaded
      simp only [Fleet.update, Fleet.set] at present
      by_cases same : other = pid
      · rw [same, Function.update_self] at present
        cases present
        cases loaded
      · rw [Function.update_of_ne same] at present
        have theirs := ((orderly.processes other one present).loaded _ status now before loaded).1
        exact same (orderly.apart other pid one process _ present found theirs own)
    · rw [if_neg doomed]
      exact written
  · exact done

end Fleets

section Kills
variable {settings : Settings} {fleet : Fleet} {rid : Rid} {kill : Kill}

theorem Permitted.mono {past more : List Tables} {userId : Uuid} {project : Tenants.Project}
    (permitted : Permitted past userId project) (grown : past ⊆ more) :
    Permitted more userId project := by
  obtain ⟨tables, seen, reason⟩ := permitted
  exact ⟨tables, grown seen, reason⟩

theorem Known.mono {past more : List Tables} {userId : Uuid} (known : Known past userId)
    (grown : past ⊆ more) : Known more userId := by
  obtain ⟨tables, seen, reason⟩ := known
  exact ⟨tables, grown seen, reason⟩

theorem Stored.mono {past more : List Tables} {project : Tenants.Project}
    (stored : Stored past project) (grown : past ⊆ more) : Stored more project := by
  obtain ⟨tables, seen, reason⟩ := stored
  exact ⟨tables, grown seen, reason⟩

theorem Kill.Justified.mono {past more : List Tables} (justified : kill.Justified settings past)
    (grown : past ⊆ more) : kill.Justified settings more :=
  { justified with
    known := justified.known.mono grown
    stored := justified.stored.mono grown
    permitted := justified.permitted.mono grown }

theorem getCurrentUser_known {tables : Tables} {userId : Uuid}
    (letIn : (getCurrentUser tables.directory userId).isOk = true) :
    ∃ user ∈ tables.directory.users, user.id = userId := by
  unfold getCurrentUser at letIn
  split at letIn
  · rename_i user found
    exact ⟨user, List.mem_of_find?_eq_some found, by simpa using List.find?_some found⟩
  · cases letIn

theorem ensureRole_permits {tables : Tables} {userId orgId : Uuid}
    (letIn : (ensureRole tables userId orgId .admin).isOk = true) :
    ∃ membership, tables.directory.findMembership orgId userId = some membership ∧
      roleAtLeast membership.role .admin = true := by
  cases member : tables.directory.findMembership orgId userId with
  | none =>
    simp [ensureRole, getOrgMembership, member, bind, Except.bind, Except.isOk, Except.toBool]
      at letIn
  | some membership =>
    refine ⟨membership, rfl, ?_⟩
    by_contra low
    simp [ensureRole, getOrgMembership, member, requireRole, low, bind, Except.bind, Except.isOk,
      Except.toBool] at letIn

/-- The row which a request chooses is there and live. -/
theorem chosen_live {now : Time} {projectId : Uuid} {pick : Nat} {workerId : Option Uuid}
    {row : WorkerRow} (chosen : fleet.chosen settings now projectId pick workerId = some row) :
    row ∈ fleet.rows ∧ row.live settings now projectId = true := by
  cases workerId with
  | some id =>
    have found := List.find?_some chosen
    exact ⟨List.mem_of_find?_eq_some chosen, (Bool.and_eq_true_iff.mp found).2⟩
  | none =>
    obtain ⟨_, same⟩ := List.getElem?_eq_some_iff.mp chosen
    have member : row ∈ fleet.rows.filter (WorkerRow.live settings now projectId) :=
      same ▸ List.getElem_mem _
    exact List.mem_filter.mp member

/-- A live row has not been killed before. -/
theorem Fleet.Orderly.first (orderly : fleet.Orderly settings) (member : kill.row ∈ fleet.rows)
    (live : kill.row.live settings kill.readAt kill.project.id = true)
    (earlier : kill.earlier = fleet.kills.length) : kill.First fleet.kills := by
  refine ⟨earlier.le, fun former committed same => ?_⟩
  have killed := (orderly.spent former (List.mem_of_mem_take committed)).2 kill.row member same.symm
  simp only [WorkerRow.live, Bool.and_eq_true, Option.isNone_iff_eq_none] at live
  rw [live.2] at killed
  cases killed

/-- A pod is deleted. -/
theorem Fleet.Orderly.deletes (orderly : fleet.Orderly settings)
    (justified : kill.Justified settings fleet.past) :
    ({ fleet with pods := kill :: fleet.pods } : Fleet).Orderly settings where
  processes := fun pid process found => (orderly.processes pid process found).mono le_rfl
    List.prefix_rfl (List.subset_cons_self _ _) fun _ _ _ _ _ => rfl
  apart := orderly.apart
  issued := orderly.issued
  flagged := orderly.flagged
  spent := orderly.spent
  late := orderly.late
  requests := orderly.requests
  kills := by
    intro other member
    rcases List.mem_append.mp member with committed | deleted
    · exact orderly.kills other (List.mem_append_left _ committed)
    · rcases List.mem_cons.mp deleted with rfl | old
      · exact justified
      · exact orderly.kills other (List.mem_append_right _ old)
  single := orderly.single
  current := orderly.current

theorem Fleet.Orderly.commits (orderly : fleet.Orderly settings) (tables : Tables) :
    ({ fleet with tables, past := tables :: fleet.past } : Fleet).Orderly settings where
  processes := fun pid process found => (orderly.processes pid process found).mono le_rfl
    List.prefix_rfl (List.Subset.refl _) fun _ _ _ _ _ => rfl
  apart := orderly.apart
  issued := orderly.issued
  flagged := orderly.flagged
  spent := orderly.spent
  late := orderly.late
  requests := by
    intro rid request asked
    have grown : fleet.past ⊆ tables :: fleet.past := List.subset_cons_self _ _
    have sound := orderly.requests rid request asked
    cases request with
    | loading => exact ⟨sound.1, sound.2.mono grown⟩
    | checking => exact ⟨sound.1, sound.2.1.mono grown, sound.2.2.mono grown⟩
    | choosing =>
      exact ⟨sound.1, sound.2.1.mono grown, sound.2.2.1.mono grown, sound.2.2.2.mono grown⟩
    | deleting | committing => exact ⟨sound.1.mono grown, sound.2⟩
  kills := fun kill member => (orderly.kills kill member).mono (List.subset_cons_self _ _)
  single := orderly.single
  current := List.mem_cons_self

/-- In signal mode the process hears of the kill. -/
theorem Process.Sound.told {process : Process} (sound : process.Sound fleet)
    (killed : kill ∈ fleet.kills) :
    (if kill.mode = "signal" then process.notify kill.row.id else process).Sound fleet := by
  split
  · rename_i signal
    exact sound.notify ⟨kill, killed, rfl, signal⟩
  · exact sound

theorem told_own (process : Process) :
    (if kill.mode = "signal" then process.notify kill.row.id else process).own = process.own := by
  split <;> rfl

/-- The kill is committed: its row gets the flag, and with it the NOTIFY goes out. -/
theorem Fleet.Orderly.commitKill (orderly : fleet.Orderly settings)
    (asked : fleet.requests rid = some (.committing kill)) (now : Time) :
    (fleet.commitKill rid kill now).Orderly settings := by
  have ended : (fleet.setRequest rid none).Orderly settings :=
    orderly.asks fun _ none => by cases none
  obtain ⟨justified, below, first⟩ := orderly.requests rid _ asked
  have grown : fleet.kills <+: fleet.kills ++ [kill] := List.prefix_append _ _
  have last : kill ∈ fleet.kills ++ [kill] := List.mem_append_right _ (List.mem_singleton_self _)
  have marked : ∀ row, (onId WorkerRow.id kill.row.id (fun row : WorkerRow =>
      { row with chaosKillRequestedAt := some now }) row).id = row.id := by
    intro row
    unfold onId
    split <;> rfl
  unfold Fleet.commitKill
  split
  · refine ⟨?_, ?_, ?_, ?_, ?_, ?_, ?_, ?_, ?_, orderly.current⟩
    · intro pid process found
      obtain ⟨before, was, rfl⟩ := Option.map_eq_some_iff.mp found
      refine Process.Sound.told ?_ last
      exact (orderly.processes pid before was).mono le_rfl grown (List.Subset.refl _)
        fun _ _ _ _ _ => rfl
    · intro one two first second id left right mine theirs
      obtain ⟨before, was, rfl⟩ := Option.map_eq_some_iff.mp left
      obtain ⟨rival, there, rfl⟩ := Option.map_eq_some_iff.mp right
      rw [told_own] at mine theirs
      exact orderly.apart one two before rival id was there mine theirs
    · intro row member
      obtain ⟨old, there, rfl⟩ := List.mem_map.mp member
      rw [marked]
      exact orderly.issued old there
    · intro row member requested
      obtain ⟨old, there, rfl⟩ := List.mem_map.mp member
      rw [marked]
      by_cases ours : old.id = kill.row.id
      · exact ⟨kill, last, ours.symm⟩
      · rw [onId, if_neg ours] at requested
        obtain ⟨former, killed, same⟩ := orderly.flagged old there requested
        exact ⟨former, grown.subset killed, same⟩
    · intro former killed
      rcases List.mem_append.mp killed with before | new
      · obtain ⟨bound, flagged⟩ := orderly.spent former before
        refine ⟨bound, fun row member same => ?_⟩
        obtain ⟨old, there, rfl⟩ := List.mem_map.mp member
        rw [marked] at same
        unfold onId
        split
        · rfl
        · exact flagged old there same
      · cases List.mem_singleton.mp new
        refine ⟨below, fun row member same => ?_⟩
        obtain ⟨old, there, rfl⟩ := List.mem_map.mp member
        rw [marked] at same
        rw [onId, if_pos same]
        rfl
    · intro id
      obtain ⟨bound, reason⟩ := orderly.late id
      exact ⟨bound, fun before member => (reason before member).mono grown⟩
    · intro other request present
      have sound := ended.requests other request present
      cases request with
      | loading | checking | choosing => exact sound
      | deleting | committing => exact ⟨sound.1, sound.2.1, sound.2.2.mono grown⟩
    · intro other member
      rcases List.mem_append.mp member with committed | deleted
      · rcases List.mem_append.mp committed with before | new
        · exact orderly.kills other (List.mem_append_left _ before)
        · cases List.mem_singleton.mp new
          exact justified
      · exact orderly.kills other (List.mem_append_right _ deleted)
    · intro index other present
      by_cases before : index < fleet.kills.length
      · rw [List.getElem?_append_left before] at present
        obtain ⟨within, spared⟩ := orderly.single index other present
        exact ⟨within, Spared.mono spared grown⟩
      · obtain ⟨short, same⟩ := List.getElem?_eq_some_iff.mp present
        have length : (fleet.kills ++ [kill]).length = fleet.kills.length + 1 := by simp
        have here : index = fleet.kills.length := by
          change index < (fleet.kills ++ [kill]).length at short
          omega
        subst here
        have same : kill = other := by simpa using same
        subst same
        exact ⟨first.1, Spared.mono first grown⟩
  · exact ended

end Kills

/-! Along a run. -/
section Runs
variable {settings : Settings} {fleet after : Fleet}

theorem sound_started (hostname : String) : ({ hostname } : Process).Sound fleet := by
  refine ⟨by simp, by simp, by simp, by simp, by simp, by simp, aimed_running rfl (by simp)⟩

theorem Process.Sound.refreshes {process : Process} (sound : process.Sound fleet)
    (running : process.exit = none) {id : Uuid} (stage : process.stage = .refreshing id) :
    ({ process with workerId := some id, stage := .idle } : Process).Sound fleet := by
  obtain ⟨own, quiet, _⟩ := sound.refreshing id stage
  refine { sound with worker := ?_, refreshing := by simp, loaded := by simp,
                      aimed := aimed_running running ?_ }
  · rintro _ ⟨rfl⟩
    exact own
  · rintro other member ⟨rfl⟩
    exact absurd member quiet

/-- A heartbeat goes on only past a row without the flag. -/
theorem Fleet.Orderly.heartbeatOnce (orderly : fleet.Orderly settings) {pid : Pid}
    {process : Process} (found : fleet.processes pid = some process)
    (running : process.exit = none) {id : Uuid} (worker : process.workerId = some id) (now : Time)
    (busy : Bool) :
    (process.heartbeatOnce fleet.rows id now busy fleet.kills.length).Sound fleet := by
  have sound := orderly.processes pid process found
  unfold Process.heartbeatOnce
  split
  · exact sound.goes running (.inr rfl)
  · rename_i row present
    have member := List.mem_of_find?_eq_some present
    have same : row.id = id := by simpa using List.find?_some present
    split
    · rename_i requested
      refine sound.ends ⟨?_, by simp, by simp, by simp⟩
      intro killed exit
      cases exit
      obtain ⟨kill, committed, hit⟩ := orderly.flagged row member requested
      exact ⟨sound.worker id worker, kill, committed, hit.trans same⟩
    · rename_i unflagged
      refine { sound with refreshing := by simp, loaded := ?_,
                          aimed := aimed_running running (sound.aimed.heard running) }
      intro other status read before stage
      cases stage
      have unhit : ∀ kill ∈ fleet.kills, kill.row.id ≠ id := fun kill committed hit =>
        unflagged ((orderly.spent kill committed).2 row member (same.trans hit.symm))
      refine ⟨sound.worker id worker, List.eq_nil_iff_forall_not_mem.mpr fun before late => ?_,
        le_rfl, fun former taken => unhit former (List.mem_of_mem_take taken)⟩
      obtain ⟨_, kill, killed, hit⟩ := (orderly.late id).2 before late
      exact unhit kill killed hit

/-- A move of a process is one of a process which runs. -/
theorem Fleet.Orderly.alive (orderly : fleet.Orderly settings) {pid : Pid}
    {move : Process → Option Fleet} (taken : (fleet.running pid).bind move = some after) :
    ∃ process, fleet.processes pid = some process ∧ process.exit = none ∧ process.Sound fleet ∧
      move process = some after := by
  obtain ⟨process, found, taken⟩ := Option.bind_eq_some_iff.mp taken
  obtain ⟨found, running⟩ := running_some.mp found
  exact ⟨process, found, running, orderly.processes pid process found, taken⟩

/-- The moves of a process go through `alive`; the others are those of requests and of tables. -/
theorem Fleet.Orderly.step (orderly : fleet.Orderly settings) {move : Move}
    (taken : Chaos.step settings fleet move = some after) : after.Orderly settings := by
  cases move with
  | start pid hostname =>
    simp only [Chaos.step] at taken
    split at taken
    · cases taken
      exact orderly.set (by simp) (sound_started hostname)
    · cases taken
  | register pid projectId now =>
    obtain ⟨process, found, running, _, taken⟩ := orderly.alive taken
    split at taken
    · cases taken
      exact orderly.register found running projectId now
    · cases taken
  | refresh pid =>
    obtain ⟨process, found, running, sound, taken⟩ := orderly.alive taken
    split at taken
    · rename_i id stage
      split at taken
      · cases taken
        exact orderly.goes found rfl (sound.refreshes running stage)
      · cases taken
        exact orderly.goes found (raises_own process) (sound.raises running)
    · cases taken
  | listen pid =>
    obtain ⟨process, found, running, sound, taken⟩ := orderly.alive taken
    split at taken
    · rename_i deaf
      cases taken
      simp only [Bool.and_eq_true, Option.isNone_iff_eq_none] at deaf
      refine orderly.goes found rfl { sound with waiting := ?_, aimed := aimed_running running ?_ }
      · rintro _ ⟨rfl⟩ id member
        cases member
      · intro id member worker
        obtain ⟨waiting, listener, _⟩ := sound.aimed.heard running id member worker
        rw [deaf.1] at listener
        cases listener
    · cases taken
  | lose pid =>
    obtain ⟨process, found, running, sound, taken⟩ := orderly.alive taken
    cases taken
    refine orderly.goes found rfl { sound with
      addressed := by simp, refreshing := ?_, waiting := by simp
      aimed := aimed_running running (by simp) }
    intro id stage
    obtain ⟨own, _, other⟩ := sound.refreshing id stage
    exact ⟨own, by simp, other⟩
  | notified pid =>
    obtain ⟨process, found, running, sound, taken⟩ := orderly.alive taken
    split at taken
    · rename_i payload rest listener
      cases taken
      exact orderly.goes found (onChaos_own process payload rest) (sound.onChaos running listener)
    · cases taken
  | heartbeat pid now busy =>
    obtain ⟨process, found, running, _, taken⟩ := orderly.alive taken
    split at taken
    · rename_i worker
      cases taken
      exact orderly.goes found (heartbeatOnce_own process _ _ now busy _)
        (orderly.heartbeatOnce found running worker now busy)
    · cases taken
  | commitHeartbeat pid =>
    obtain ⟨process, found, running, _, taken⟩ := orderly.alive taken
    split at taken
    · rename_i stage
      cases taken
      exact orderly.commitHeartbeat found running stage
    · cases taken
  | fail pid =>
    obtain ⟨process, found, running, sound, taken⟩ := orderly.alive taken
    split at taken
    · cases taken
    · cases taken
      exact orderly.goes found (raises_own process) (sound.raises running)
  | shutdown pid =>
    obtain ⟨process, found, running, sound, taken⟩ := orderly.alive taken
    cases taken
    exact orderly.goes found rfl
      { sound with aimed := aimed_running running (sound.aimed.heard running) }
  | leave pid retiredAt =>
    obtain ⟨process, found, running, sound, taken⟩ := orderly.alive taken
    split at taken
    · split at taken
      · split at taken
        · cases taken
          exact orderly.goes found rfl
            { sound with aimed := aimed_running running (sound.aimed.heard running) }
        · cases taken
      · cases taken
    · cases taken
  | commitLeave pid =>
    obtain ⟨process, found, running, sound, taken⟩ := orderly.alive taken
    obtain ⟨leaving, _, taken⟩ := Option.bind_eq_some_iff.mp taken
    cases taken
    have left : (fleet.set pid { process with leaving := none }).Orderly settings :=
      orderly.goes found rfl
        { sound with aimed := aimed_running running (sound.aimed.heard running) }
    exact left.update leaving.id fun _ => ⟨rfl, rfl⟩
  | crash pid =>
    obtain ⟨process, found, _, sound, taken⟩ := orderly.alive taken
    cases taken
    exact orderly.goes found rfl sound.crash
  | sigkill pid =>
    obtain ⟨process, found, _, sound, taken⟩ := orderly.alive taken
    split at taken
    · rename_i deleted
      cases taken
      obtain ⟨kill, member, same⟩ := List.any_eq_true.mp deleted
      refine orderly.goes found rfl (sound.ends ⟨by simp, by simp, fun _ => ?_, by simp⟩)
      exact ⟨kill, member, of_decide_eq_true same⟩
    · cases taken
  | commit tables =>
    cases taken
    exact orderly.commits tables
  | markDead ids =>
    cases taken
    refine orderly.writes fun row member => ?_
    obtain ⟨old, there, rfl⟩ := List.mem_map.mp member
    exact ⟨old, there, by split <;> exact ⟨rfl, rfl⟩⟩
  | prune ids =>
    cases taken
    exact orderly.writes fun row member => ⟨row, List.mem_of_mem_filter member, rfl, rfl⟩
  | chaosKill rid userId projectId workerId =>
    simp only [Chaos.step] at taken
    split at taken
    · rename_i letIn
      cases taken
      simp only [Bool.and_eq_true] at letIn
      refine orderly.asks ?_
      rintro _ ⟨rfl⟩
      exact ⟨letIn.2, _, orderly.current, getCurrentUser_known letIn.1.2⟩
    · cases taken
  | getProject rid =>
    simp only [Chaos.step] at taken
    split at taken
    · rename_i userId projectId workerId asked
      cases taken
      obtain ⟨enabled, known⟩ := orderly.requests rid _ asked
      refine orderly.asks fun request loaded => ?_
      obtain ⟨project, found, rfl⟩ := Option.map_eq_some_iff.mp loaded
      exact ⟨enabled, known, _, orderly.current, List.mem_of_find?_eq_some found⟩
    · cases taken
  | ensureRole rid =>
    simp only [Chaos.step] at taken
    split at taken
    · rename_i userId project workerId asked
      cases taken
      obtain ⟨enabled, known, stored⟩ := orderly.requests rid _ asked
      refine orderly.asks fun request ensured => ?_
      split at ensured
      · rename_i letIn
        cases ensured
        exact ⟨enabled, known, stored, _, orderly.current, ensureRole_permits letIn⟩
      · cases ensured
    · cases taken
  | choose rid now pick =>
    simp only [Chaos.step] at taken
    split at taken
    · rename_i userId project workerId asked
      cases taken
      obtain ⟨enabled, known, stored, permitted⟩ := orderly.requests rid _ asked
      refine orderly.asks fun request picked => ?_
      obtain ⟨row, chosen, rfl⟩ := Option.map_eq_some_iff.mp picked
      obtain ⟨member, live⟩ := chosen_live chosen
      split
      · exact ⟨⟨enabled, known, stored, permitted, member, live⟩, orderly.issued row member,
          orderly.first member live rfl⟩
      · exact ⟨⟨enabled, known, stored, permitted, member, live⟩, orderly.issued row member,
          orderly.first member live rfl⟩
    · cases taken
  | deletePod rid deleted answered =>
    simp only [Chaos.step] at taken
    split at taken
    · rename_i kill asked
      cases taken
      obtain ⟨justified, below, first⟩ := orderly.requests rid _ asked
      have next : (fleet.setRequest rid (some (.committing
          (if answered then kill else { kill with mode := "signal" })))).Orderly settings := by
        refine orderly.asks ?_
        rintro _ ⟨rfl⟩
        split
        · exact ⟨justified, below, first⟩
        · exact ⟨{ justified with }, below, first⟩
      cases deleted with
      | true => exact next.deletes justified
      | false => exact next
    · cases taken
  | commitKill rid now =>
    simp only [Chaos.step] at taken
    split at taken
    · rename_i kill asked
      cases taken
      exact orderly.commitKill asked now
    · cases taken
  | abort rid =>
    cases taken
    exact orderly.asks fun _ none => by cases none

theorem Fleet.Orderly.reachable (reachable : (chaos settings).Reachable anyStep fleet) :
    fleet.Orderly settings := by
  refine @Machine.Reachable.invariant _ _ (chaos settings) anyStep
    (fun fleet => fleet.Orderly settings) ?_ ?_ fleet reachable
  · rintro _ rfl
    refine ⟨by simp, by simp [Fleet.Apart], by simp, by simp, by simp, by simp, by simp, by simp,
      by simp, by simp⟩
  · intro fleet move after orderly _ taken
    exact orderly.step taken

end Runs

/-- A project with an admin. -/
def staffed : Tables where
  directory := {
    users := [⟨7, "ada"⟩]
    organizations := [⟨3, "acme"⟩]
    members := [⟨6, 3, 7, .admin⟩] }
  projects := [⟨5, 3, "Mail", "mail"⟩]

def signalling : Settings where
  chaosEnabled := true
  chaosMode := "auto"
  inCluster := false
  visibilityTimeoutSec := 30

/-- One worker hears of its kill, past a heartbeat under way; the other has lost its connection. -/
def bothKilled : List Move := [
  .commit staffed,
  .start 0 "first",
  .register 0 5 0,
  .refresh 0,
  .listen 0,
  .start 1 "second",
  .register 1 5 0,
  .refresh 1,
  .listen 1,
  .lose 1,
  .heartbeat 0 10 true,
  .chaosKill 0 7 5 (some 0),
  .getProject 0,
  .ensureRole 0,
  .choose 0 12 0,
  .commitKill 0 12,
  .commitHeartbeat 0,
  .notified 0,
  .chaosKill 1 7 5 none,
  .getProject 1,
  .ensureRole 1,
  .choose 1 13 0,
  .commitKill 1 13,
  .heartbeat 1 14 false]

end Pulse.Chaos
