import Mathlib.Data.List.Nodup
import Mathlib.Tactic.Common

/-! Locks that are held by sessions. A session holds at most one lock, which it may take at any of
its steps and gives back when it ends, and a lock has at most one holder. -/

namespace AgreementIntelligence.Lib.Locks

variable {σ κ : Type*} {lock? : σ → Option κ} {sessions : List σ} {one next : σ}
  {lock : κ}

/-- No two sessions hold the same lock. -/
def Exclusive (lock? : σ → Option κ) (sessions : List σ) : Prop :=
  (sessions.filterMap lock?).Nodup

/-- A session begins, with a lock that nobody holds or with none. -/
theorem Exclusive.start (locks : Exclusive lock? sessions)
    (free : ∀ lock, lock? next = some lock → ∀ other ∈ sessions, lock? other ≠ some lock) :
    Exclusive lock? (sessions ++ [next]) := by
  unfold Exclusive
  rw [List.filterMap_append]
  cases held : lock? next with
  | none =>
      rw [List.filterMap_cons_none held, List.filterMap_nil, List.append_nil]
      exact locks
  | some lock =>
      rw [List.filterMap_cons_some held, List.filterMap_nil]
      refine List.nodup_append.mpr ⟨locks, List.nodup_singleton _, fun a first b last => ?_⟩
      obtain ⟨other, there, same⟩ := List.mem_filterMap.mp first
      rw [List.mem_singleton.mp last]
      exact fun equal => free lock held other there (equal ▸ same)

variable [DecidableEq σ]

/-- What holds a lock is the only one to hold it. -/
theorem Exclusive.apart (locks : Exclusive lock? sessions) (member : one ∈ sessions)
    (held : lock? one = some lock) : ∀ other ∈ sessions.erase one, lock? other ≠ some lock := by
  intro other there same
  have order := (List.perm_cons_erase member).filterMap lock?
  have distinct := order.nodup_iff.mp locks
  rw [List.filterMap_cons_some held, List.nodup_cons] at distinct
  exact distinct.1 (List.mem_filterMap.mpr ⟨other, there, same⟩)

/-- The session ends. -/
theorem Exclusive.erase (locks : Exclusive lock? sessions) (one : σ) :
    Exclusive lock? (sessions.erase one) :=
  locks.sublist (List.erase_sublist.filterMap lock?)

/-- A session goes on with the lock it has, or takes one that nobody holds. -/
theorem Exclusive.proceed (locks : Exclusive lock? sessions) (member : one ∈ sessions)
    (takes : ∀ lock, lock? next = some lock →
      lock? one = some lock ∨ ∀ other ∈ sessions, lock? other ≠ some lock) :
    Exclusive lock? (sessions.erase one ++ [next]) := by
  refine (locks.erase one).start fun lock held other there => ?_
  obtain kept | free := takes lock held
  · exact locks.apart member kept other there
  · exact free other (List.mem_of_mem_erase there)

end AgreementIntelligence.Lib.Locks
