import Mathlib.Data.List.Range
import Mathlib.Data.List.Nodup
import Mathlib.Tactic.Common

/-! Chains: rows in a row, numbered from one, each naming the row before it. A chain grows at
its end only. -/

namespace AgreementIntelligence.Lib.Chain

variable {α ι : Type*} {name : α → ι} {number : α → Nat} {previous : α → Option ι}
  {rows : List α} {row last : α}

/-- The row with `pre` before it has the next number and names the last row of `pre`. -/
def Chained (name : α → ι) (number : α → Nat) (previous : α → Option ι) (rows : List α) : Prop :=
  ∀ pre row post, rows = pre ++ row :: post →
    number row = pre.length + 1 ∧ previous row = pre.getLast?.map name

theorem Chained.nil : Chained name number previous [] := by
  intro pre row post split
  simp at split

theorem Chained.concat (chained : Chained name number previous rows)
    (next : number last = rows.length + 1) (names : previous last = rows.getLast?.map name) :
    Chained name number previous (rows ++ [last]) := by
  intro pre row post split
  by_cases ends : post = []
  · subst ends
    obtain ⟨rfl, same⟩ := List.append_inj' split rfl
    cases same
    exact ⟨next, names⟩
  · have shorter : rows = pre ++ row :: post.dropLast := by
      have dropped := congrArg List.dropLast split
      rw [List.dropLast_concat, List.dropLast_append_of_ne_nil (by simp),
        List.dropLast_cons_of_ne_nil ends] at dropped
      exact dropped
    exact chained pre row post.dropLast shorter

theorem Chained.getElem? (chained : Chained name number previous rows) {k : Nat}
    (here : rows[k]? = some row) :
    number row = k + 1 ∧ previous row = (rows.take k).getLast?.map name := by
  obtain ⟨inside, same⟩ := List.getElem?_eq_some_iff.mp here
  have split : rows = rows.take k ++ row :: rows.drop (k + 1) := by
    rw [← same, ← List.drop_eq_getElem_cons inside, List.take_append_drop]
  have placed := chained _ row _ split
  rw [List.length_take, Nat.min_eq_left (by omega)] at placed
  exact placed

/-- The rows are numbered without gaps. -/
theorem Chained.numbers (chained : Chained name number previous rows) :
    rows.map number = List.range' 1 rows.length := by
  refine List.ext_getElem (by simp) fun k inside _ => ?_
  rw [List.length_map] at inside
  have placed := (chained.getElem? (List.getElem?_eq_getElem inside)).1
  simp [placed, Nat.add_comm]

theorem Chained.first (chained : Chained name number previous rows) (here : rows[0]? = some row) :
    previous row = none := by
  simpa using (chained.getElem? here).2

/-- Each row names the one before it. -/
theorem Chained.linked (chained : Chained name number previous rows) {k : Nat}
    (earlier : rows[k]? = some row) (later : rows[k + 1]? = some last) :
    previous last = some (name row) := by
  have names := (chained.getElem? later).2
  rwa [List.take_add_one, earlier, Option.toList_some, List.getLast?_concat, Option.map_some]
    at names

theorem Chained.sorted (chained : Chained name number previous rows) :
    rows.Pairwise fun one other => number one ≤ number other := by
  have increasing : (rows.map number).Pairwise (· ≤ ·) := by
    rw [chained.numbers]
    exact List.pairwise_le_range' 1
  exact List.pairwise_map.mp increasing

/-- A number up to the length is taken. -/
theorem Chained.taken (chained : Chained name number previous rows) {n : Nat}
    (positive : 1 ≤ n) (bound : n ≤ rows.length) : ∃ row ∈ rows, number row = n := by
  have member : n ∈ rows.map number := by
    rw [chained.numbers, List.mem_range'_1]
    omega
  exact List.mem_map.mp member

/-- The row whose successor's number is free is the last one. -/
theorem Chained.last_of_free (chained : Chained name number previous rows) (member : row ∈ rows)
    (free : ∀ other ∈ rows, number other ≠ number row + 1) :
    rows.getLast? = some row ∧ number row = rows.length := by
  obtain ⟨k, here⟩ := List.mem_iff_getElem?.mp member
  have placed := (chained.getElem? here).1
  have inside := (List.getElem?_eq_some_iff.mp here).1
  have ends : k + 1 = rows.length := by
    by_contra short
    obtain ⟨other, listed, same⟩ :=
      chained.taken (show 1 ≤ number row + 1 by omega) (show number row + 1 ≤ rows.length by omega)
    exact free other listed same
  constructor
  · rw [List.getLast?_eq_getElem?, ← ends, Nat.add_sub_cancel]
    exact here
  · omega

end AgreementIntelligence.Lib.Chain
