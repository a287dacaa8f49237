import Mathlib.Data.List.Nodup
import Mathlib.Tactic.Common

/-! Tables as lists of rows with a key. A primary key is a key without repetition; an update
addresses the rows of one key and changes them in place. -/

namespace AgreementIntelligence.Lib.Table

variable {α κ : Type*} [DecidableEq κ]

/-- `UPDATE … WHERE key = k`. -/
def update (key : α → κ) (rows : List α) (k : κ) (change : α → α) : List α :=
  rows.map fun row => if key row = k then change row else row

variable {key : α → κ} {rows : List α} {k : κ} {change : α → α} {row stored : α}

@[simp] theorem length_update : (update key rows k change).length = rows.length :=
  List.length_map _

theorem mem_update :
    row ∈ update key rows k change ↔ ∃ old ∈ rows, (if key old = k then change old else old) = row :=
  List.mem_map

/-- An update that keeps the key changes the first row of a key where it addresses that key. -/
theorem find?_update (keeps : ∀ row, key (change row) = key row) (other : κ) :
    (update key rows k change).find? (fun row => key row = other) =
      (rows.find? fun row => key row = other).map fun row =>
        if key row = k then change row else row := by
  have same : (fun row => decide (key row = other)) ∘ (fun row => if key row = k then change row
      else row) = fun row => decide (key row = other) := by
    funext row
    by_cases hit : key row = k <;> simp [hit, keeps]
  rw [update, List.find?_map, same]

/-- Changes of the rows that keep a projection keep its column. -/
theorem map_map_of_keeps {β : Type*} {f : α → β} (keeps : ∀ row ∈ rows, f (change row) = f row) :
    (rows.map change).map f = rows.map f := by
  rw [List.map_map]
  exact List.map_congr_left keeps

/-- An update that keeps the key keeps every other projection it keeps, row by row. -/
theorem map_update {β : Type*} {f : α → β} (keeps : ∀ row, f (change row) = f row) :
    (update key rows k change).map f = rows.map f := by
  rw [update, List.map_map]
  refine List.map_congr_left fun row _ => ?_
  by_cases hit : key row = k <;> simp [hit, keeps]

/-- Tables that agree on a projection have, for each row of one, a row of the other. -/
theorem exists_mem_of_map_eq {β : Type*} {f : α → β} {others : List α}
    (same : rows.map f = others.map f) (member : row ∈ rows) : ∃ other ∈ others, f other = f row := by
  have image : f row ∈ others.map f := same ▸ List.mem_map_of_mem member
  exact List.mem_map.mp image

theorem nodup_update (keeps : ∀ row, key (change row) = key row) (distinct : (rows.map key).Nodup) :
    ((update key rows k change).map key).Nodup := by
  rwa [map_update keeps]

/-- A row with a new key may be inserted. -/
theorem nodup_map_concat {f : α → κ} {new : α} (distinct : (rows.map f).Nodup)
    (fresh : ∀ row ∈ rows, f row ≠ f new) : ((rows ++ [new]).map f).Nodup := by
  rw [List.map_append, List.map_singleton]
  refine List.nodup_append.mpr ⟨distinct, List.nodup_singleton _, fun image old other last => ?_⟩
  obtain ⟨row, member, rfl⟩ := List.mem_map.mp old
  rw [List.mem_singleton.mp last]
  exact fresh row member

/-- The row of a primary key is the one that a lookup of the key finds. -/
theorem find?_of_mem (distinct : (rows.map key).Nodup) (member : row ∈ rows) :
    rows.find? (fun other => key other = key row) = some row := by
  induction rows with
  | nil => cases member
  | cons head rest ih =>
      rw [List.map_cons, List.nodup_cons] at distinct
      rcases List.mem_cons.mp member with rfl | later
      · exact List.find?_cons_of_pos (by simp)
      · have apart : key head ≠ key row := fun same =>
          distinct.1 (same ▸ List.mem_map_of_mem later)
        rw [List.find?_cons_of_neg (by simpa using apart)]
        exact ih distinct.2 later

/-- With a primary key an update reaches the one row it names. -/
theorem getElem?_update {d i : Nat} (distinct : (rows.map key).Nodup) (here : rows[d]? = some stored)
    (found : (update key rows (key stored) change)[i]? = some row) :
    (i = d ∧ row = change stored) ∨ (i ≠ d ∧ rows[i]? = some row) := by
  rw [update, List.getElem?_map, Option.map_eq_some_iff] at found
  obtain ⟨old, there, rfl⟩ := found
  by_cases same : i = d
  · subst same
    rw [here] at there
    cases there
    exact .inl ⟨rfl, if_pos rfl⟩
  · have apart : key old ≠ key stored := by
      intro equal
      have inside : i < (rows.map key).length := by
        rw [List.length_map]
        exact (List.getElem?_eq_some_iff.mp there).1
      refine same ((List.getElem?_inj inside distinct).mp ?_)
      simp only [List.getElem?_map, there, here, Option.map_some, equal]
    exact .inr ⟨same, by rw [if_neg apart]; exact there⟩

theorem nodup_eraseDups {β : Type*} [BEq β] [LawfulBEq β] (values : List β) :
    values.eraseDups.Nodup := by
  induction len : values.length using Nat.strongRecOn generalizing values with
  | ind n ih =>
      cases values with
      | nil => exact List.nodup_nil
      | cons first rest =>
          rw [List.eraseDups_cons, List.nodup_cons]
          constructor
          · simp
          · have shorter := List.length_filter_le (fun value => !value == first) rest
            rw [List.length_cons] at len
            exact ih _ (by omega) _ rfl

/-- Rows that are kept apart from each other are found one at a time. -/
theorem length_filter_le_one {α : Type*} {rows : List α} {apart : α → α → Prop}
    (distinct : rows.Pairwise apart) {p : α → Bool}
    (clash : ∀ a b, p a = true → p b = true → ¬ apart a b) : (rows.filter p).length ≤ 1 := by
  have kept : (rows.filter p).Pairwise apart := distinct.sublist List.filter_sublist
  have meets : ∀ row ∈ rows.filter p, p row = true := fun row member =>
    (List.mem_filter.mp member).2
  match rows.filter p, kept, meets with
  | [], _, _ => exact Nat.zero_le 1
  | [_], _, _ => exact Nat.le_refl 1
  | a :: b :: rest, kept, meets =>
      have differ := List.rel_of_pairwise_cons kept List.mem_cons_self
      exact absurd differ (clash a b (meets a List.mem_cons_self)
        (meets b (List.mem_cons_of_mem _ List.mem_cons_self)))

theorem eq_singleton_of_mem {α : Type*} {rows : List α} {row : α} (member : row ∈ rows)
    (short : rows.length ≤ 1) : rows = [row] := by
  match rows, member, short with
  | [only], member, _ => rw [List.mem_singleton.mp member]

end AgreementIntelligence.Lib.Table
