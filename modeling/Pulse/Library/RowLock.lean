import Mathlib.Data.List.Basic
import Mathlib.Logic.Relation

/-! Row-level locks of a database session. A lock is granted unless another
session holds a conflicting one on the same key, and is held until its session
ends its transaction. -/
namespace Library.RowLock
universe u v
variable {Key : Type u} {Sid : Type v}

/-- The four row-lock modes of PostgreSQL, weakest first. -/
inductive Mode where
  | keyShare
  | share
  | noKeyUpdate
  | update
deriving DecidableEq, Repr

/-- The conflict table of explicit locking: `FOR KEY SHARE` excludes only
`FOR UPDATE`, `FOR SHARE` is compatible with itself. -/
def Mode.conflicts : Mode → Mode → Bool
  | .keyShare, .update => true
  | .update, .keyShare => true
  | .keyShare, _ => false
  | _, .keyShare => false
  | .share, .share => false
  | _, _ => true

/-- The modes taken by a statement which writes the row. -/
def Mode.writes : Mode → Bool
  | .noKeyUpdate | .update => true
  | _ => false

theorem Mode.conflicts_symm (first second : Mode) :
    first.conflicts second = second.conflicts first := by
  cases first <;> cases second <;> rfl

theorem Mode.writes_conflict {first second : Mode} (left : first.writes = true)
    (right : second.writes = true) : first.conflicts second = true := by
  cases first <;> cases second <;> simp_all [Mode.writes, Mode.conflicts]

structure Grant (Key : Type u) (Sid : Type v) where
  key : Key
  mode : Mode
  sid : Sid
deriving DecidableEq, Repr

/-- The lock is held in a conflicting mode by another session. -/
def blocked [DecidableEq Key] [DecidableEq Sid] (grants : List (Grant Key Sid)) (sid : Sid)
    (key : Key) (mode : Mode) : Bool :=
  grants.any fun grant =>
    grant.key = key && grant.sid ≠ sid && grant.mode.conflicts mode

/-- Record the locks a statement was granted. -/
def acquire (grants : List (Grant Key Sid)) (sid : Sid) (locks : List (Key × Mode)) :
    List (Grant Key Sid) :=
  locks.map (fun lock => ⟨lock.1, lock.2, sid⟩) ++ grants

/-- Everything a session holds is released when its transaction ends. -/
def release [DecidableEq Sid] (grants : List (Grant Key Sid)) (sid : Sid) :
    List (Grant Key Sid) :=
  grants.filter fun grant => grant.sid ≠ sid

def Holds (grants : List (Grant Key Sid)) (sid : Sid) (lock : Key × Mode) : Prop :=
  ⟨lock.1, lock.2, sid⟩ ∈ grants

/-- No two sessions hold conflicting locks on one key. -/
def Compatible (grants : List (Grant Key Sid)) : Prop :=
  ∀ first ∈ grants, ∀ second ∈ grants, first.key = second.key → first.sid ≠ second.sid →
    first.mode.conflicts second.mode = false

theorem compatible_nil : Compatible ([] : List (Grant Key Sid)) := by
  intro first member
  cases member

/-- A session does not wait for its own locks. -/
theorem blocked_acquire [DecidableEq Key] [DecidableEq Sid] (grants : List (Grant Key Sid))
    (sid : Sid) (locks : List (Key × Mode)) (key : Key) (mode : Mode) :
    blocked (acquire grants sid locks) sid key mode = blocked grants sid key mode := by
  have own : (locks.map fun lock => (⟨lock.1, lock.2, sid⟩ : Grant Key Sid)).any (fun grant =>
      grant.key = key && grant.sid ≠ sid && grant.mode.conflicts mode) = false := by
    simp
  rw [blocked, acquire, List.any_append, own, Bool.false_or]
  rfl

theorem not_blocked_iff [DecidableEq Key] [DecidableEq Sid] {grants : List (Grant Key Sid)}
    {sid : Sid} {key : Key} {mode : Mode} :
    blocked grants sid key mode = false ↔
      ∀ grant ∈ grants, grant.key = key → grant.sid ≠ sid →
        grant.mode.conflicts mode = false := by
  simp [blocked, List.any_eq_false]

/-- Two sessions never hold conflicting locks on the same key. -/
theorem Compatible.holder_unique {grants : List (Grant Key Sid)} (compatible : Compatible grants)
    {first second : Sid} {key : Key} {left right : Mode} (held : Holds grants first (key, left))
    (other : Holds grants second (key, right)) (conflict : left.conflicts right = true) :
    first = second := by
  by_contra different
  have clash := compatible _ held _ other rfl different
  rw [show left.conflicts right = false from clash] at conflict
  cases conflict

/-- While one session holds a key, no conflicting lock on it is granted to another. -/
theorem Holds.excludes [DecidableEq Key] [DecidableEq Sid] {grants : List (Grant Key Sid)}
    {holder sid : Sid} {key : Key} {held mode : Mode} (holds : Holds grants holder (key, held))
    (free : blocked grants sid key mode = false) (conflict : held.conflicts mode = true) :
    holder = sid := by
  by_contra different
  have clash := not_blocked_iff.mp free _ holds rfl different
  rw [show held.conflicts mode = false from clash] at conflict
  cases conflict

/-- What a session holds in a writing mode it may write again. -/
theorem Compatible.not_blocked [DecidableEq Key] [DecidableEq Sid] {grants : List (Grant Key Sid)}
    (compatible : Compatible grants) {sid : Sid} {key : Key} {held : Mode}
    (holds : Holds grants sid (key, held)) (writes : held.writes = true) :
    blocked grants sid key .noKeyUpdate = false := by
  apply not_blocked_iff.mpr
  intro grant member sameKey different
  have free := compatible _ member _ holds sameKey different
  cases held <;> cases mode : grant.mode <;> simp_all [Mode.writes, Mode.conflicts]

theorem Compatible.release [DecidableEq Sid] {grants : List (Grant Key Sid)}
    (compatible : Compatible grants) (sid : Sid) : Compatible (release grants sid) := by
  intro first left second right
  exact compatible first (List.mem_of_mem_filter left) second (List.mem_of_mem_filter right)

/-- Granting locks that are not blocked keeps the table free of conflicts. -/
theorem Compatible.acquire [DecidableEq Key] [DecidableEq Sid] {grants : List (Grant Key Sid)}
    (compatible : Compatible grants) (sid : Sid) (locks : List (Key × Mode))
    (free : ∀ lock ∈ locks, blocked grants sid lock.1 lock.2 = false) :
    Compatible (acquire grants sid locks) := by
  intro first left second right sameKey different
  rcases List.mem_append.mp left with left | left
  · obtain ⟨lock, member, rfl⟩ := List.mem_map.mp left
    rcases List.mem_append.mp right with right | right
    · obtain ⟨_, _, rfl⟩ := List.mem_map.mp right
      exact absurd rfl different
    · rw [Mode.conflicts_symm]
      exact not_blocked_iff.mp (free lock member) second right sameKey.symm different.symm
  · rcases List.mem_append.mp right with right | right
    · obtain ⟨lock, member, rfl⟩ := List.mem_map.mp right
      exact not_blocked_iff.mp (free lock member) first left sameKey different
    · exact compatible first left second right sameKey different

theorem Holds.release [DecidableEq Sid] {grants : List (Grant Key Sid)} {sid other : Sid}
    {lock : Key × Mode} (held : Holds grants other lock) (different : other ≠ sid) :
    Holds (release grants sid) other lock :=
  List.mem_filter.mpr ⟨held, by simpa using different⟩

theorem Holds.acquire {grants : List (Grant Key Sid)} {sid other : Sid} {lock : Key × Mode}
    (locks : List (Key × Mode)) (held : Holds grants other lock) :
    Holds (acquire grants sid locks) other lock :=
  List.mem_append_right _ held

theorem holds_of_acquired {grants : List (Grant Key Sid)} {sid : Sid} {lock : Key × Mode}
    {locks : List (Key × Mode)} (asked : lock ∈ locks) :
    Holds (acquire grants sid locks) sid lock :=
  List.mem_append_left _ (List.mem_map.mpr ⟨lock, asked, rfl⟩)

/-! Deadlocks. -/

/-- A session wants a lock which another one holds in a conflicting mode. -/
def WaitsFor (grants : List (Grant Key Sid)) (wants : Sid → List (Key × Mode))
    (sid other : Sid) : Prop :=
  other ≠ sid ∧ ∃ lock ∈ wants sid, ∃ grant ∈ grants,
    grant.key = lock.1 ∧ grant.sid = other ∧ grant.mode.conflicts lock.2 = true

/-- A cycle of sessions, each waiting for the next. -/
def Deadlocked (grants : List (Grant Key Sid)) (wants : Sid → List (Key × Mode)) : Prop :=
  ∃ sid, Relation.TransGen (WaitsFor grants wants) sid sid

/-- Where every session waits only for sessions of a smaller rank, none is deadlocked. -/
theorem not_deadlocked {grants : List (Grant Key Sid)} {wants : Sid → List (Key × Mode)}
    (rank : Sid → Nat) (descends : ∀ sid other, WaitsFor grants wants sid other →
      rank other < rank sid) : ¬ Deadlocked grants wants := by
  rintro ⟨sid, cycle⟩
  have below : ∀ {other}, Relation.TransGen (WaitsFor grants wants) sid other →
      rank other < rank sid := by
    intro other path
    induction path with
    | single waits => exact descends _ _ waits
    | tail _ waits ih => exact Nat.lt_trans (descends _ _ waits) ih
  exact Nat.lt_irrefl _ (below cycle)

end Library.RowLock
