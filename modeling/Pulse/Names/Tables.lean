import Pulse.Names.Step
import Pulse.Safety.Tenants

/-! The rows of the tables, what a transaction may count on in them, and what the lookups of the
requests find. -/
namespace Pulse.Names
open Library.Lts Library.UniqueIndex Tenants

section Rows
variable {world after : World} {row : Row} {locked : List Uuid}

theorem mem_rows : row ∈ rows world ↔ match row with
    | .user row => row ∈ world.directory.users
    | .organization row => row ∈ world.directory.organizations
    | .member row => row ∈ world.directory.members
    | .project row => row ∈ world.projects
    | .queue row => row ∈ world.engine.db.queues := by
  cases row <;> simp [rows]

theorem mem_refs {table : Table} {id : Uuid} : (table, id) ∈ refs world ↔
    ∃ row ∈ rows world, row.ref = (table, id) :=
  List.mem_map

theorem rows_add (world : World) (row : Row) :
    (rows (add world row)).Perm (rows world ++ [row]) := by
  refine List.perm_iff_count.mpr fun other => ?_
  cases row <;> simp only [rows, add, withQueues, List.map_append, List.map_cons, List.map_nil,
    List.count_append] <;> omega

theorem rows_addAll (news : List Row) (world : World) :
    (rows (news.foldl add world)).Perm (rows world ++ news) := by
  induction news generalizing world with
  | nil => simp
  | cons row news ih =>
    refine (ih (add world row)).trans ?_
    simpa using (rows_add world row).append_right news

/-- What stays of the tables for a transaction: permanent rows, and the queues it has locked. -/
structure Persists (world after : World) (locked : List Uuid) : Prop where
  rows : ∀ row ∈ rows world, row.ref.1.permanent = true → row ∈ rows after
  queues : ∀ queue ∈ world.engine.db.queues, queue.id ∈ locked → queue ∈ after.engine.db.queues

theorem Persists.refs (persists : Persists world after locked) {ref : Table × Uuid}
    (listed : ref ∈ refs world) (permanent : ref.1.permanent = true) : ref ∈ refs after := by
  obtain ⟨row, member, rfl⟩ := List.mem_map.mp listed
  exact List.mem_map_of_mem (persists.rows row member permanent)

theorem Draft.parents_permanent (draft : Draft) {ref : Table × Uuid} (parent : ref ∈ draft.parents) :
    ref.1.permanent = true := by
  cases draft <;> simp only [Draft.parents, List.mem_cons, List.not_mem_nil, or_false] at parent
  · rcases parent with rfl | rfl <;> rfl
  all_goals rw [parent]; rfl

theorem Persists.refl (world : World) (locked : List Uuid) : Persists world world locked :=
  ⟨fun _ member _ => member, fun _ member _ => member⟩

theorem persists_addAll (news : List Row) (world : World) (locked : List Uuid) :
    Persists world (news.foldl add world) locked := by
  have grown : ∀ row ∈ rows world, row ∈ rows (news.foldl add world) := fun row member =>
    (rows_addAll news world).mem_iff.mpr (List.mem_append_left _ member)
  refine ⟨fun row member _ => grown row member, fun queue member _ => ?_⟩
  exact (mem_rows : Row.queue queue ∈ rows _ ↔ _).mp (grown _ ((mem_rows : Row.queue queue ∈ rows _ ↔ _).mpr member))

theorem rows_withQueues (f : List Queue → List Queue) :
    rows (withQueues world f) = (world.directory.users.map .user ++
      world.directory.organizations.map .organization ++ world.directory.members.map .member ++
      world.projects.map .project) ++ (f world.engine.db.queues).map .queue := rfl

theorem mem_rows_withQueues {f : List Queue → List Queue} {row : Row}
    (other : row.ref.1 ≠ .queues) : row ∈ rows (withQueues world f) ↔ row ∈ rows world := by
  cases row with
  | queue => exact absurd rfl other
  | _ => simp [mem_rows, withQueues]

/-- Rows of queues may change, but not those which are locked. -/
theorem persists_withQueues {f : List Queue → List Queue}
    (kept : ∀ queue ∈ world.engine.db.queues, queue.id ∈ locked → queue ∈ f world.engine.db.queues) :
    Persists world (withQueues world f) locked := by
  refine ⟨fun row member permanent => ?_, kept⟩
  refine (mem_rows_withQueues ?_).mpr member
  intro queue
  rw [queue] at permanent
  cases permanent

end Rows

section Lookups
variable {state : Service} {call : Call}

/-- An UPDATE by primary key changes one row. -/
theorem onId_split {α : Type} {key : α → Uuid} {rows : List α} {current : α} {f : α → α}
    (distinct : (rows.map key).Nodup) (stored : current ∈ rows) : ∃ front back,
      rows = front ++ current :: back ∧
        rows.map (onId key (key current) f) = front ++ f current :: back := by
  induction rows with
  | nil => cases stored
  | cons row rest ih =>
    obtain ⟨absent, tail⟩ := List.nodup_cons.mp distinct
    rcases List.mem_cons.mp stored with rfl | later
    · refine ⟨[], rest, rfl, ?_⟩
      have others : rest.map (onId key (key current) f) = rest := by
        refine (List.map_congr_left (g := id) fun row member => ?_).trans (List.map_id rest)
        exact if_neg fun same : key row = key current => absent (same ▸ List.mem_map_of_mem member)
      simp [others, onId]
    · obtain ⟨front, back, rfl, mapped⟩ := ih tail later
      have other : key row ≠ key current := fun same =>
        absent (same ▸ List.mem_map_of_mem later)
      exact ⟨row :: front, back, rfl, by simp [mapped, onId, other]⟩

/-- A column keeps its value or gets the one which was sent. -/
theorem getD_dirty {α : Type} [DecidableEq α] (sent : Option α) (loaded current : α) :
    (sent.filter (· ≠ loaded)).getD current = current ∨
      sent = some ((sent.filter (· ≠ loaded)).getD current) := by
  cases sent with
  | none => exact .inl rfl
  | some value => by_cases same : value = loaded <;> simp [Option.filter, same]

theorem row_drawn (draft : Draft) (id : Uuid) : (draft.row id).ref.2 = id := by
  cases draft <;> rfl

theorem findQueue_none {db : Db} {id : Uuid} (missing : db.findQueue id = none) :
    ∀ queue ∈ db.queues, queue.id ≠ id := by
  simpa [Db.findQueue] using missing

theorem ref_queues {world : World} {id : Uuid} (listed : (.queues, id) ∈ refs world) :
    ∃ queue ∈ world.engine.db.queues, queue.id = id := by
  obtain ⟨row, member, same⟩ := mem_refs.mp listed
  cases row with
  | queue queue => exact ⟨queue, mem_rows.mp member, congrArg Prod.snd same⟩
  | _ => cases same

theorem getCurrentUser_mem {db : Directory} {userId : Uuid} {user : User}
    (known : getCurrentUser db userId = .ok user) : user ∈ db.users := by
  unfold getCurrentUser at known
  split at known <;> cases known
  rename_i found
  exact List.mem_of_find?_eq_some found

/-- The membership which `ensure_role` has read. -/
theorem ensureRole_row {world : World} {userId orgId : Uuid} {minimum : MemberRole}
    {membership : OrganizationMember}
    (ensured : world.ensureRole userId minimum orgId = .ok membership) :
    membership ∈ world.directory.members ∧ membership.orgId = orgId := by
  obtain ⟨row, member, required⟩ := bind_ok ensured
  unfold requireRole at required
  unfold getOrgMembership at member
  split at required <;> cases required
  split at member <;> cases member
  rename_i found
  obtain ⟨present, inside, _⟩ := Directory.findMembership_some found
  exact ⟨present, inside⟩

theorem getProject_ref {world : World} {projectId : Uuid} {project : Project}
    (found : world.getProjectOr404 projectId = .ok project) :
    (.projects, projectId) ∈ Names.refs world := by
  unfold World.getProjectOr404 at found
  split at found <;> cases found
  rename_i seen
  have named : project.id = projectId := by simpa using List.find?_some seen
  exact mem_refs.mpr ⟨.project project, mem_rows.mpr (List.mem_of_find?_eq_some seen), by rw [← named]; rfl⟩

theorem bind_error {α β : Type} {result : Except ApiError α} {next : α → Except ApiError β}
    {error : ApiError} (failed : (result >>= next) = .error error) :
    result = .error error ∨ ∃ value, result = .ok value ∧ next value = .error error := by
  cases result with
  | error other =>
    cases failed
    exact .inl rfl
  | ok value => exact .inr ⟨value, rfl, failed⟩

theorem getCurrentUser_error {world : World} {userId : Uuid} {error : ApiError}
    (failed : getCurrentUser world.directory userId = .error error) :
    (.users, userId) ∉ refs world ∧ ∃ message, error = .unauthorized message := by
  unfold getCurrentUser at failed
  split at failed <;> cases failed
  rename_i missing
  refine ⟨fun listed => ?_, _, rfl⟩
  obtain ⟨row, member, same⟩ := mem_refs.mp listed
  cases row with
  | user user =>
    have named : user.id = userId := congrArg Prod.snd same
    have none := List.find?_eq_none.mp missing user (mem_rows.mp member)
    simp [named] at none
  | _ => cases same

theorem ensureRole_error {world : World} {userId orgId : Uuid} {minimum : MemberRole}
    {error : ApiError} (failed : world.ensureRole userId minimum orgId = .error error) :
    ¬ world.Permits userId orgId minimum ∧ ∃ message, error = .forbidden message := by
  unfold World.ensureRole getOrgMembership at failed
  split at failed
  · rename_i membership found
    change requireRole minimum membership = .error error at failed
    unfold requireRole at failed
    split at failed <;> cases failed
    rename_i low
    refine ⟨?_, _, rfl⟩
    rintro ⟨row, read, enough⟩
    cases Option.some.inj (found.symm.trans read)
    exact low enough
  · rename_i missing
    cases failed
    refine ⟨?_, _, rfl⟩
    rintro ⟨row, read, _⟩
    cases missing.symm.trans read

theorem getQueue_missing {world : World} {id : Uuid} {error : ApiError}
    (failed : world.getQueueOr404 id = .error error) :
    (.queues, id) ∉ refs world ∧ ∃ message, error = .notFound message := by
  unfold World.getQueueOr404 at failed
  split at failed <;> cases failed
  rename_i missing
  refine ⟨fun listed => ?_, _, rfl⟩
  obtain ⟨queue, member, same⟩ := ref_queues listed
  exact findQueue_none missing queue member same

theorem getProject_missing {world : World} {projectId : Uuid} {error : ApiError}
    (failed : world.getProjectOr404 projectId = .error error) :
    (.projects, projectId) ∉ refs world ∧ ∃ message, error = .notFound message := by
  unfold World.getProjectOr404 at failed
  split at failed <;> cases failed
  rename_i missing
  refine ⟨fun listed => ?_, _, rfl⟩
  obtain ⟨row, member, same⟩ := mem_refs.mp listed
  cases row with
  | project project =>
    have named : project.id = projectId := congrArg Prod.snd same
    have none := List.find?_eq_none.mp missing project (mem_rows.mp member)
    simp [named] at none
  | _ => cases same

/-- After the user only the schema can refuse. -/
theorem authenticated_error {userId : Uuid} {error : ApiError}
    (failed : call.authenticated userId = .error error) :
    call.valid = false ∧ ∃ message, error = .unprocessable message := by
  cases call with
  | createQueue body | updateQueue _ body =>
    simp only [Call.authenticated] at failed
    split at failed <;> cases failed
    rename_i invalid
    exact ⟨Bool.eq_false_iff.mpr invalid, _, rfl⟩
  | _ => cases failed

theorem validateRetryPolicy_sent {db : Db} {policy : Option Uuid} {projectId : Uuid}
    (invalid : ¬ validateRetryPolicy db policy projectId = true) : ∃ id, policy = some id ∧
      ∀ row, (db.retryPolicies.find? fun row => row.id = id) = some row → row.projectId ≠ projectId := by
  cases policy with
  | none => exact absurd rfl invalid
  | some id =>
    refine ⟨id, rfl, fun row found same => invalid ?_⟩
    simp [validateRetryPolicy, found, same]

theorem hasPolicy_false {policy : Option Uuid} (gone : state.hasPolicy policy = false) :
    ∃ id, policy = some id ∧ ∀ row ∈ state.world.engine.db.retryPolicies, row.id ≠ id := by
  cases policy with
  | none => cases gone
  | some id =>
    refine ⟨id, rfl, fun row member same => ?_⟩
    have found := List.any_eq_false.mp gone row member
    simp [same] at found

end Lookups
end Pulse.Names
