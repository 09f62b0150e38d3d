import Pulse.Schema
import Pulse.Library.Dict

/-! `ConnectionManager` of `ws/manager.py`: the sockets of each project. -/
namespace Pulse
open Library

/-- A socket, compared by identity. -/
abbrev WebSocket := Nat

structure ConnectionManager where
  connections : Dict Uuid (List WebSocket) := {}

/-- `self._connections.get(project_id)`, empty where there is none. -/
def ConnectionManager.conns (manager : ConnectionManager) (projectId : Uuid) : List WebSocket :=
  (manager.connections.get? projectId).getD []

def ConnectionManager.activeProjectIds (manager : ConnectionManager) : List Uuid :=
  (manager.connections.entries.filter fun entry => !entry.2.isEmpty).map Prod.fst

/-- `connect` once the socket is accepted. -/
def ConnectionManager.connect (manager : ConnectionManager) (projectId : Uuid)
    (websocket : WebSocket) : ConnectionManager where
  connections := manager.connections.set projectId ((manager.conns projectId).insert websocket)

def ConnectionManager.disconnect (manager : ConnectionManager) (projectId : Uuid)
    (websocket : WebSocket) : ConnectionManager :=
  match manager.connections.get? projectId with
  | none => manager
  | some conns =>
    let conns := conns.filter (· ≠ websocket)
    if conns.isEmpty then { connections := manager.connections.erase projectId }
    else { connections := manager.connections.set projectId conns }

section Conns
variable {manager : ConnectionManager} {projectId other : Uuid} {websocket client : WebSocket}

theorem mem_conns : client ∈ manager.conns projectId ↔
    ∃ conns, manager.connections.get? projectId = some conns ∧ client ∈ conns := by
  unfold ConnectionManager.conns
  cases manager.connections.get? projectId <;> simp

theorem activeProjectIds_nodup : manager.activeProjectIds.Nodup :=
  manager.connections.distinct.sublist (List.filter_sublist.map Prod.fst)

theorem active_of_client (connected : client ∈ manager.conns projectId) :
    projectId ∈ manager.activeProjectIds := by
  obtain ⟨conns, found, member⟩ := mem_conns.mp connected
  refine List.mem_map.mpr ⟨(projectId, conns), List.mem_filter.mpr ⟨Dict.get?_eq_some.mp found, ?_⟩, rfl⟩
  cases conns with
  | nil => exact absurd member List.not_mem_nil
  | cons => rfl

/-- A client stays connected while others connect. -/
theorem connect_keeps (connected : client ∈ manager.conns projectId) :
    client ∈ (manager.connect other websocket).conns projectId := by
  by_cases same : projectId = other
  · subst same
    simp [ConnectionManager.connect, ConnectionManager.conns] at connected ⊢
    exact .inr connected
  · rw [ConnectionManager.conns, ConnectionManager.connect, Dict.get?_set_ne same]
    exact connected

/-- A client stays connected while others disconnect. -/
theorem disconnect_keeps (connected : client ∈ manager.conns projectId)
    (another : ¬ (other = projectId ∧ websocket = client)) :
    client ∈ (manager.disconnect other websocket).conns projectId := by
  obtain ⟨conns, found, member⟩ := mem_conns.mp connected
  rw [mem_conns]
  unfold ConnectionManager.disconnect
  by_cases same : projectId = other
  · subst same
    have kept : client ∈ conns.filter (· ≠ websocket) := by
      simpa [member] using fun equal => another ⟨rfl, equal.symm⟩
    rw [found]
    cases left : conns.filter (· ≠ websocket) with
    | nil => exact absurd (left ▸ kept) List.not_mem_nil
    | cons first rest =>
      refine ⟨first :: rest, ?_, left ▸ kept⟩
      simp only [left, List.isEmpty_cons, Bool.false_eq_true, if_false, Dict.get?_set_self]
  · refine ⟨conns, ?_, member⟩
    cases manager.connections.get? other with
    | none => exact found
    | some others =>
      simp only []
      split
      · rw [Dict.get?_erase_ne same, found]
      · rw [Dict.get?_set_ne same, found]

theorem disconnectAll_keeps (connected : client ∈ manager.conns projectId)
    {dead : List WebSocket} (another : other = projectId → client ∉ dead) :
    client ∈ (dead.foldl (fun manager ws => manager.disconnect other ws) manager).conns projectId := by
  induction dead generalizing manager with
  | nil => exact connected
  | cons ws rest ih =>
    apply ih
    · apply disconnect_keeps connected
      rintro ⟨same, equal⟩
      exact another same (equal ▸ List.mem_cons_self)
    · exact fun same member => another same (List.mem_cons_of_mem _ member)

/-- Whoever is connected afterwards was so before, or has just connected. -/
theorem connect_only (connected : client ∈ (manager.connect other websocket).conns projectId) :
    client ∈ manager.conns projectId ∨ (projectId = other ∧ client = websocket) := by
  by_cases same : projectId = other
  · subst same
    simp only [ConnectionManager.connect, ConnectionManager.conns, Dict.get?_set_self,
      Option.getD_some, List.mem_insert_iff] at connected
    exact connected.symm.imp id fun new => ⟨rfl, new⟩
  · rw [ConnectionManager.conns, ConnectionManager.connect, Dict.get?_set_ne same] at connected
    exact .inl connected

/-- Whoever is connected afterwards was so before, and has not disconnected. -/
theorem disconnect_only (connected : client ∈ (manager.disconnect other websocket).conns projectId) :
    client ∈ manager.conns projectId ∧ ¬ (projectId = other ∧ client = websocket) := by
  rw [mem_conns] at connected ⊢
  unfold ConnectionManager.disconnect at connected
  cases found : manager.connections.get? other with
  | none =>
    simp only [found] at connected
    refine ⟨connected, ?_⟩
    rintro ⟨rfl, _⟩
    obtain ⟨conns, listed, _⟩ := connected
    cases found.symm.trans listed
  | some others =>
    simp only [found] at connected
    by_cases same : projectId = other
    · subst same
      have kept : client ∈ others.filter (· ≠ websocket) := by
        split at connected
        · simp at connected
        · simpa using connected
      obtain ⟨member, different⟩ := List.mem_filter.mp kept
      exact ⟨⟨others, found, member⟩, fun equal => by simp [equal.2] at different⟩
    · refine ⟨?_, fun equal => same equal.1⟩
      split at connected
      · rwa [Dict.get?_erase_ne same] at connected
      · rwa [Dict.get?_set_ne same] at connected

theorem disconnectAll_only {dead : List WebSocket} (connected : client ∈
    (dead.foldl (fun manager ws => manager.disconnect other ws) manager).conns projectId) :
    client ∈ manager.conns projectId := by
  induction dead generalizing manager with
  | nil => exact connected
  | cons ws rest ih => exact (disconnect_only (ih connected)).1

end Conns
end Pulse
