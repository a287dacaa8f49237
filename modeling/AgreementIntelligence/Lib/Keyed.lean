import AgreementIntelligence.Lib.Table

/-! Tables that carry their primary key. An insert of a key that is taken is refused, so every
value of the type is a table the store can hold. -/

namespace AgreementIntelligence.Lib

@[ext] structure Keyed {α κ : Type} (key : α → κ) where
  rows : List α
  distinct : (rows.map key).Nodup

namespace Keyed
open Table

variable {α κ : Type} {key : α → κ} {t after : Keyed key} {row other : α}
  {hit : α → Prop} [DecidablePred hit] {change : α → α}

def empty : Keyed key := ⟨[], List.nodup_nil⟩

/-- `DELETE … WHERE hit` -/
def delete (t : Keyed key) (hit : α → Prop) [DecidablePred hit] : Keyed key :=
  ⟨t.rows.filter fun row => ¬ hit row, t.distinct.sublist (List.filter_sublist.map key)⟩

/-- `UPDATE … WHERE hit`, of columns outside the key. -/
def updateWhere (t : Keyed key) (hit : α → Prop) [DecidablePred hit] (change : α → α)
    (keeps : ∀ row, key (change row) = key row) : Keyed key :=
  ⟨t.rows.map fun row => if hit row then change row else row, by
    rw [map_map_of_keeps fun row _ => by by_cases met : hit row <;> simp [met, keeps]]
    exact t.distinct⟩

/-- `INSERT`, refused when the key is taken. -/
def insert [DecidableEq κ] (t : Keyed key) (row : α) : Option (Keyed key) :=
  if fresh : ∀ old ∈ t.rows, key old ≠ key row then
    some ⟨t.rows ++ [row], nodup_map_concat t.distinct fresh⟩
  else none

theorem eq_of_key (first : row ∈ t.rows) (second : other ∈ t.rows) (same : key row = key other) :
    row = other :=
  List.inj_on_of_nodup_map t.distinct first second same

@[simp] theorem mem_delete : row ∈ (t.delete hit).rows ↔ row ∈ t.rows ∧ ¬ hit row := by
  simp [delete]

theorem delete_of_none (spared : ∀ row ∈ t.rows, ¬ hit row) : t.delete hit = t := by
  ext1
  exact List.filter_eq_self.mpr fun row member => decide_eq_true (spared row member)

theorem mem_updateWhere {keeps : ∀ row, key (change row) = key row} :
    row ∈ (t.updateWhere hit change keeps).rows ↔
      ∃ old ∈ t.rows, (if hit old then change old else old) = row :=
  List.mem_map

theorem insert_eq_some [DecidableEq κ] (inserts : t.insert row = some after) :
    (∀ old ∈ t.rows, key old ≠ key row) ∧ after.rows = t.rows ++ [row] := by
  rw [insert] at inserts
  by_cases fresh : ∀ old ∈ t.rows, key old ≠ key row
  · rw [dif_pos fresh] at inserts
    cases inserts
    exact ⟨fresh, rfl⟩
  · rw [dif_neg fresh] at inserts
    cases inserts

theorem insert_of_fresh [DecidableEq κ] (fresh : ∀ old ∈ t.rows, key old ≠ key row) :
    ∃ after, t.insert row = some after ∧ after.rows = t.rows ++ [row] :=
  ⟨_, dif_pos fresh, rfl⟩

theorem insert_eq_none [DecidableEq κ] (taken : other ∈ t.rows) (same : key other = key row) :
    t.insert row = none :=
  dif_neg fun fresh => fresh other taken same

end Keyed

end AgreementIntelligence.Lib
