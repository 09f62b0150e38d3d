import Pulse.Api.Lists

/-! Turning the pages of a list gives every row which matches once, in the requested order. -/
namespace Pulse.Pagination
open Library.Pages

/-- The row is one of those the request asks for. -/
def Listing.Matches (tables : Tables) (row : Row) : Listing → Prop
  | .orgs userId => row ∈ tables.organizations.rows ∧ ∃ member ∈ tables.organizationMembers.rows,
      member.get "org_id" = some (.uuid row.id) ∧ member.get "user_id" = some (.uuid userId)
  | .projects orgId => row ∈ tables.projects.rows ∧ row.get "org_id" = some (.uuid orgId)
  | .queues projectId => row ∈ tables.queues.rows ∧ row.get "project_id" = some (.uuid projectId)
  | .workers projectId => row ∈ tables.workers.rows ∧ row.get "project_id" = some (.uuid projectId)
  | .dlq queueId => row ∈ tables.deadLetterQueue.rows ∧ row.get "queue_id" = some (.uuid queueId)
  | .retryPolicies projectId =>
    row ∈ tables.retryPolicies.rows ∧ row.get "project_id" = some (.uuid projectId)
  | .jobs projectId queueId jobStatus jobType => row ∈ tables.jobs.rows ∧
      (∃ queue ∈ tables.queues.rows, row.get "queue_id" = some (.uuid queue.id) ∧
        queue.get "project_id" = some (.uuid projectId)) ∧
      (∀ id, queueId = some id → row.get "queue_id" = some (.uuid id)) ∧
      (∀ status, jobStatus = some status → row.get "status" = some (.text status.value)) ∧
      (∀ type, jobType = some type → row.get "type" = some (.text type.value))

/-- The pages of one size which the database may answer, and the list they are cut from. -/
structure Tiles (collation : Collation) (stmt : Select) (params : PaginationParams)
    (listed : List Row) : Prop where
  answered : ∀ earlier, earlier * params.size < 2 ^ 63 →
    ∃ answer, Answers collation stmt (params.turnTo earlier) answer
  counted : ∀ earlier answer, Answers collation stmt (params.turnTo earlier) answer →
    answer.total = listed.length ∧ answer.pages = listed.length ⌈/⌉ params.size
  full : ∀ earlier answer, Answers collation stmt (params.turnTo earlier) answer →
    earlier + 1 < answer.pages → answer.items.length = params.size
  last : ∀ earlier answer, Answers collation stmt (params.turnTo earlier) answer →
    earlier + 1 = answer.pages → 1 ≤ answer.items.length ∧ answer.items.length ≤ params.size
  beyond : ∀ earlier answer, Answers collation stmt (params.turnTo earlier) answer →
    answer.pages ≤ earlier → answer.items = []
  whole : ∀ answers : Nat → Page, (∀ earlier < listed.length ⌈/⌉ params.size,
      Answers collation stmt (params.turnTo earlier) (answers earlier)) →
    (List.range (listed.length ⌈/⌉ params.size)).flatMap (fun earlier => (answers earlier).items) =
      listed

section Joins
variable {left right : List Row} {on : Row → Row → Bool} {keep : Row × Row → Bool}

/-- Rows which agree on a key are one row. -/
theorem length_filter_key {Key : Type*} {rows : List Row} {key : Row → Key} {named : Row → Bool}
    (distinct : (rows.map key).Nodup)
    (same : ∀ first second, named first = true → named second = true → key first = key second) :
    (rows.filter named).length ≤ 1 := by
  have nodup : ((rows.filter named).map key).Nodup := distinct.sublist (List.filter_sublist.map key)
  cases found : rows.filter named with
  | nil => exact Nat.zero_le 1
  | cons first others =>
    cases others with
    | nil => exact le_refl 1
    | cons second others =>
      have both : first ∈ rows.filter named ∧ second ∈ rows.filter named := by simp [found]
      have equal := same first second (List.mem_filter.mp both.1).2 (List.mem_filter.mp both.2).2
      rw [found, List.map_cons, List.map_cons, equal] at nodup
      exact absurd List.mem_cons_self (List.nodup_cons.mp nodup).1

/-- Where each row is joined to one row at most, the join only filters. -/
theorem join_once (once : ∀ row ∈ left,
    (right.filter fun other => on row other && keep (row, other)).length ≤ 1) :
    ((join left right on).filter keep).map Prod.fst =
      left.filter fun row => right.any fun other => on row other && keep (row, other) := by
  induction left with
  | nil => rfl
  | cons row rows ih =>
    have tail := ih fun other member => once other (List.mem_cons_of_mem row member)
    have head : (((right.filter (on row)).map fun other => (row, other)).filter keep).map Prod.fst =
        List.replicate (right.filter fun other => on row other && keep (row, other)).length row := by
      rw [List.filter_map, List.map_map, List.filter_filter, List.eq_replicate_iff]
      refine ⟨?_, ?_⟩
      · rw [List.length_map]
        congr 1
        apply List.filter_congr
        intro other _
        exact Bool.and_comm _ _
      · intro found listed
        obtain ⟨other, _, rfl⟩ := List.mem_map.mp listed
        rfl
    unfold join at tail ⊢
    rw [List.flatMap_cons, List.filter_append, List.map_append, tail, head, List.filter_cons]
    have few := once row List.mem_cons_self
    split
    · rename_i some
      obtain ⟨other, member, joined⟩ := List.any_eq_true.mp some
      have found : other ∈ right.filter fun other => on row other && keep (row, other) :=
        List.mem_filter.mpr ⟨member, joined⟩
      have many := List.length_pos_of_mem found
      rw [show (right.filter fun other => on row other && keep (row, other)).length = 1 by omega]
      rfl
    · rename_i none
      have empty : (right.filter fun other => on row other && keep (row, other)) = [] := by
        rw [List.filter_eq_nil_iff]
        intro other member joined
        exact none (List.any_eq_true.mpr ⟨other, member, joined⟩)
      rw [empty]
      rfl

end Joins

section Rows
variable {tables : Tables} {row : Row}

theorem equals_iff {field : String} {value : Value} :
    row.equals field value = true ↔ row.get field = some value :=
  decide_eq_true_iff

theorem selectOrgs_rows (tables : Tables) (userId : Uuid) :
    (selectOrgs tables userId).rows = tables.organizations.rows.filter fun organization =>
      tables.organizationMembers.rows.any fun member =>
        member.equals "org_id" (.uuid organization.id) && member.equals "user_id" (.uuid userId) := by
  apply join_once
  intro organization _
  refine length_filter_key tables.uqOrgMembersOrgUser ?_
  intro first second named other
  simp only [Bool.and_eq_true, equals_iff] at named other
  exact Prod.ext (named.1.trans other.1.symm) (named.2.trans other.2.symm)

theorem selectJobs_rows (tables : Tables) (projectId : Uuid) (queueId : Option Uuid)
    (jobStatus : Option JobStatus) (jobType : Option JobType) :
    (selectJobs tables projectId queueId jobStatus jobType).rows =
      tables.jobs.rows.filter fun job => tables.queues.rows.any fun queue =>
        job.equals "queue_id" (.uuid queue.id) && (queue.equals "project_id" (.uuid projectId) &&
          jobFilter queueId jobStatus jobType job) := by
  apply join_once
  intro job _
  refine length_filter_key tables.queues.distinct ?_
  intro first second named other
  simp only [Bool.and_eq_true, equals_iff] at named other
  exact Value.uuid.inj (Option.some.inj (named.1.symm.trans other.1))

/-- The table whose rows are listed. -/
def Listing.table (tables : Tables) : Listing → Table
  | .orgs _ => tables.organizations
  | .projects _ => tables.projects
  | .queues _ => tables.queues
  | .workers _ => tables.workers
  | .dlq _ => tables.deadLetterQueue
  | .retryPolicies _ => tables.retryPolicies
  | .jobs .. => tables.jobs

theorem select_sublist (tables : Tables) (listing : Listing) :
    (listing.select tables).rows.Sublist (listing.table tables).rows := by
  cases listing with
  | orgs userId =>
    change (selectOrgs tables userId).rows.Sublist tables.organizations.rows
    rw [selectOrgs_rows]
    exact List.filter_sublist
  | jobs projectId queueId jobStatus jobType =>
    change (selectJobs tables projectId queueId jobStatus jobType).rows.Sublist tables.jobs.rows
    rw [selectJobs_rows]
    exact List.filter_sublist
  | projects | queues | workers | dlq | retryPolicies => exact List.filter_sublist

theorem jobFilter_iff {queueId : Option Uuid} {jobStatus : Option JobStatus}
    {jobType : Option JobType} : jobFilter queueId jobStatus jobType row = true ↔
      (∀ id, queueId = some id → row.get "queue_id" = some (.uuid id)) ∧
      (∀ status, jobStatus = some status → row.get "status" = some (.text status.value)) ∧
      (∀ type, jobType = some type → row.get "type" = some (.text type.value)) := by
  simp only [jobFilter, Bool.and_eq_true, Option.all_eq_true, equals_iff, and_assoc]

theorem mem_selectWhere {table : Table} {field : String} {value : Uuid} :
    row ∈ (selectWhere table field value).rows ↔
      row ∈ table.rows ∧ row.get field = some (.uuid value) := by
  rw [selectWhere, List.mem_filter, equals_iff]

theorem mem_select (tables : Tables) (listing : Listing) (row : Row) :
    row ∈ (listing.select tables).rows ↔ listing.Matches tables row := by
  cases listing with
  | orgs userId =>
    change row ∈ (selectOrgs tables userId).rows ↔ _
    rw [selectOrgs_rows, List.mem_filter, List.any_eq_true]
    simp only [Bool.and_eq_true, equals_iff, Listing.Matches]
  | jobs projectId queueId jobStatus jobType =>
    change row ∈ (selectJobs tables projectId queueId jobStatus jobType).rows ↔ _
    rw [selectJobs_rows, List.mem_filter, List.any_eq_true]
    simp only [Bool.and_eq_true, equals_iff, jobFilter_iff, Listing.Matches]
    constructor
    · rintro ⟨listed, queue, member, joined, project, rest⟩
      exact ⟨listed, ⟨queue, member, joined, project⟩, rest⟩
    · rintro ⟨listed, ⟨queue, member, joined, project⟩, rest⟩
      exact ⟨listed, queue, member, joined, project, rest⟩
  | projects | queues | workers | dlq | retryPolicies => exact mem_selectWhere

end Rows

/-- Where the database has one order to return, its answers are the pages of that. -/
theorem tiles_of_unique {collation : Collation} {stmt : Select} {listed : List Row}
    (params : PaginationParams) (returned : stmt.Returns collation listed)
    (unique : ∀ other, stmt.Returns collation other → other = listed) :
    Tiles collation stmt params listed := by
  have many : stmt.rows.length = listed.length := returned.1.length_eq.symm
  have cut : ∀ earlier answer, Answers collation stmt (params.turnTo earlier) answer →
      answer.items = page listed params.size earlier ∧ answer.total = listed.length ∧
        answer.pages = listed.length ⌈/⌉ params.size := by
    intro earlier answer answers
    obtain ⟨ordered, other, items, total, pages⟩ := answers.page
    rw [unique ordered other] at items
    rw [many] at total pages
    exact ⟨items, total, pages⟩
  refine ⟨fun earlier fits => exists_answer fits, fun earlier answer answers =>
    (cut earlier answer answers).2, ?_, ?_, ?_, ?_⟩
  · intro earlier answer answers before
    obtain ⟨items, _, pages⟩ := cut earlier answer answers
    rw [pages] at before
    rw [items]
    exact length_page_full params.size_ge earlier before
  · intro earlier answer answers last
    obtain ⟨items, _, pages⟩ := cut earlier answer answers
    rw [pages] at last
    rw [items]
    exact length_page_last params.size_ge last
  · intro earlier answer answers beyond
    obtain ⟨items, _, pages⟩ := cut earlier answer answers
    rw [pages] at beyond
    rw [items]
    exact page_beyond params.size_ge beyond
  · intro answers given
    have same : ∀ earlier ∈ List.range (listed.length ⌈/⌉ params.size),
        (answers earlier).items = page listed params.size earlier := fun earlier member =>
      (cut earlier (answers earlier) (given earlier (List.mem_range.mp member))).1
    rw [List.flatMap_congr same]
    exact flatMap_pages params.size_ge

/-- For every list, content of the tables, sort, order and page size, and however the database
arranges what ORDER BY leaves open in each query. -/
theorem pages_tile (collation : Collation) (tables : Tables) (listing : Listing)
    (sort : Option String) (order : String) (params : PaginationParams) :
    ∃ listed : List Row, listed.Nodup ∧ (∀ row, row ∈ listed ↔ listing.Matches tables row) ∧
      (listed.Pairwise fun first second => (SortKey.comparison collation {
        field := sortField listing.columns sort listing.defaultField
        desc := order = "desc" }).le first second) ∧
      Tiles collation (listing.stmt tables sort order) params listed := by
  have known := listing.defaultField_mem
  have ids : ((listing.select tables).rows.map Row.id).Nodup :=
    (listing.table tables).distinct.sublist ((select_sublist tables listing).map Row.id)
  have distinct : ∀ first ∈ (listing.select tables).rows, ∀ second ∈ (listing.select tables).rows,
      first.id = second.id → first = second := fun first member second other same =>
    List.inj_on_of_nodup_map ids member other same
  rw [listing.stmt_eq]
  obtain ⟨listed, returned⟩ := exists_returned collation (applySort
    { rows := (listing.select tables).rows } listing.columns sort order listing.defaultField)
  have arranged := returned.1
  rw [applySort_rows] at arranged
  refine ⟨listed, ?_, ?_, returns_sorted known returned, ?_⟩
  · exact arranged.nodup_iff.mpr (ids.of_map _)
  · exact fun row => arranged.mem_iff.trans (mem_select tables listing row)
  · exact tiles_of_unique params returned fun other again =>
      returns_unique known distinct again returned

def organization (id : Uuid) : Row where
  id
  cells field := if field = "created_at" then some (.number 0) else none

def membership (id orgId userId : Uuid) : Row where
  id
  cells field := if field = "org_id" then some (.uuid orgId)
    else if field = "user_id" then some (.uuid userId) else none

/-- Three organizations which were made at once; one user is in two of them. -/
def joined : Tables where
  organizations := { rows := [organization 3, organization 1, organization 2], distinct := by decide }
  organizationMembers := {
    rows := [membership 5 1 7, membership 6 2 9, membership 8 3 7], distinct := by decide }
  projects := { distinct := by decide }
  queues := { distinct := by decide }
  workers := { distinct := by decide }
  jobs := { distinct := by decide }
  deadLetterQueue := { distinct := by decide }
  retryPolicies := { distinct := by decide }
  uqOrgMembersOrgUser := by decide

theorem pages_tile_joined : ∃ listed : List Row, listed.length = 2 ∧
    (∀ row, row ∈ listed ↔ (Listing.orgs 7).Matches joined row) ∧
      Tiles default ((Listing.orgs 7).stmt joined none "asc")
        { size := 1, page_ge := by decide, size_ge := by decide, size_le := by decide } listed := by
  obtain ⟨listed, _, matching, _, tiles⟩ := pages_tile default joined (.orgs 7) none "asc"
    { size := 1, page_ge := by decide, size_ge := by decide, size_le := by decide }
  refine ⟨listed, ?_, matching, tiles⟩
  obtain ⟨answer, answers⟩ := tiles.answered 0 (by decide)
  obtain ⟨_, _, _, total, _⟩ := answers.page
  rw [← (tiles.counted 0 answer answers).1, total]
  rfl

end Pulse.Pagination
