import AgreementIntelligence.Lib.Keyed
import Mathlib.Algebra.BigOperators.Group.List.Basic
import Mathlib.Algebra.Order.Monoid.Defs
import Mathlib.Tactic.Abel

/-! Totals of a weight over the rows of a keyed table. An insert adds the weight of its row, and an
update of the row of a key exchanges the row's old weight for the new one. -/

namespace AgreementIntelligence.Lib.Keyed
open Table

variable {α κ M : Type} [AddCommMonoid M] {key : α → κ} {t after : Keyed key}
  {row old : α} {change : α → α} {weight : α → M}

def total (t : Keyed key) (weight : α → M) : M := (t.rows.map weight).sum

/-- A selection totals what its rows weigh when the others weigh nothing. -/
theorem sum_map_filter (rows : List α) (hit : α → Prop) [DecidablePred hit] (weight : α → M) :
    ((rows.filter fun row => hit row).map weight).sum =
      (rows.map fun row => if hit row then weight row else 0).sum := by
  induction rows with
  | nil => rfl
  | cons row rest ih => by_cases met : hit row <;> simp [met, ih]

theorem total_insert [DecidableEq κ] (inserts : t.insert row = some after) :
    after.total weight = t.total weight + weight row := by
  rw [total, (insert_eq_some inserts).2]
  simp [total]

theorem total_eq_zero (light : ∀ row ∈ t.rows, weight row = 0) : t.total weight = 0 := by
  rw [total, List.map_congr_left light]
  simp

variable [DecidableEq κ]

/-- `UPDATE … WHERE key = k`, of columns outside the key. -/
def updateAt (t : Keyed key) (k : κ) (change : α → α) (keeps : ∀ row, key (change row) = key row) :
    Keyed key :=
  t.updateWhere (fun row => key row = k) change keeps

variable {keeps : ∀ row, key (change row) = key row}

theorem total_updateAt (member : old ∈ t.rows) :
    (t.updateAt (key old) change keeps).total weight + weight old =
      t.total weight + weight (change old) := by
  obtain ⟨before, behind, split⟩ := List.append_of_mem member
  have distinct := t.distinct
  rw [split, List.map_append, List.map_cons, List.nodup_middle, List.nodup_cons,
    List.mem_append] at distinct
  have others : ∀ rows : List α, key old ∉ rows.map key →
      rows.map (fun row => if key row = key old then change row else row) = rows := by
    intro rows absent
    refine (List.map_congr_left fun row member => ?_).trans (List.map_id rows)
    refine if_neg fun same => absent ?_
    rw [← same]
    exact List.mem_map_of_mem member
  have front := others before fun held => distinct.1 (.inl held)
  have back := others behind fun held => distinct.1 (.inr held)
  simp only [total, updateAt, updateWhere, split, List.map_append, List.map_cons, front, back,
    List.sum_append, List.sum_cons]
  simp only [if_true]
  abel

/-- A row that weighed nothing adds what it weighs now. -/
theorem total_updateAt_of_weightless (member : old ∈ t.rows) (light : weight old = 0) :
    (t.updateAt (key old) change keeps).total weight = t.total weight + weight (change old) := by
  have exchanged : (t.updateAt (key old) change keeps).total weight + weight old =
      t.total weight + weight (change old) := total_updateAt member
  rwa [light, add_zero] at exchanged

theorem total_updateAt_le [PartialOrder M] [IsOrderedCancelAddMonoid M] (member : old ∈ t.rows)
    (lighter : weight (change old) ≤ weight old) :
    (t.updateAt (key old) change keeps).total weight ≤ t.total weight := by
  have exchanged : (t.updateAt (key old) change keeps).total weight + weight old =
      t.total weight + weight (change old) := total_updateAt member
  refine le_of_add_le_add_right (a := weight old) ?_
  rw [exchanged]
  exact add_le_add_right lighter _

theorem mem_updateAt (member : old ∈ t.rows) :
    row ∈ (t.updateAt (key old) change keeps).rows ↔
      row = change old ∨ row ∈ t.rows ∧ key row ≠ key old := by
  rw [updateAt, mem_updateWhere]
  constructor
  · rintro ⟨found, held, rfl⟩
    by_cases same : key found = key old
    · rw [if_pos same]
      exact .inl (by rw [t.eq_of_key held member same])
    · rw [if_neg same]
      exact .inr ⟨held, same⟩
  · rintro (rfl | ⟨held, apart⟩)
    · exact ⟨old, member, if_pos rfl⟩
    · exact ⟨row, held, if_neg apart⟩

end AgreementIntelligence.Lib.Keyed
