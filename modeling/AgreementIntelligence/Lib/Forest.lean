import AgreementIntelligence.Lib.Table

/-! Rows that hand work on. A row may name the row it follows; the rows that name a row are its
successors. In a forest identifiers are primary keys, every named row exists, a row is marked
as handed on exactly when it has a successor, and no row has two. -/

namespace AgreementIntelligence.Lib.Forest

variable {α κ : Type*} [DecidableEq κ]

def successors (follows : α → Option κ) (rows : List α) (k : κ) : List α :=
  rows.filter fun row => follows row = some k

variable {id : α → κ} {follows : α → Option κ} {handed : α → Prop} {rows : List α} {row old : α}
  {change : α → α}

theorem successors_append (first second : List α) (k : κ) :
    successors follows (first ++ second) k =
      successors follows first k ++ successors follows second k :=
  List.filter_append ..

theorem length_successors_map (keeps : ∀ row, follows (change row) = follows row) (k : κ) :
    (successors follows (rows.map change) k).length = (successors follows rows k).length := by
  induction rows with
  | nil => rfl
  | cons row rest ih =>
      simp only [successors, List.map_cons, List.filter_cons, keeps] at ih ⊢
      split_ifs
      · simp only [List.length_cons, ih]
      · exact ih

structure IsForest (id : α → κ) (follows : α → Option κ) (handed : α → Prop) (rows : List α) :
    Prop where
  distinct : (rows.map id).Nodup
  grounded : ∀ row ∈ rows, ∀ k ∈ follows row, k ∈ rows.map id
  handed_iff : ∀ row ∈ rows, handed row ↔ (successors follows rows (id row)).length = 1
  single : ∀ k, (successors follows rows k).length ≤ 1

theorem IsForest.nil : IsForest id follows handed [] where
  distinct := List.nodup_nil
  grounded := fun _ member => absurd member List.not_mem_nil
  handed_iff := fun _ member => absurd member List.not_mem_nil
  single := fun _ => Nat.zero_le 1

/-- Nothing follows an identifier that no row has. -/
theorem IsForest.unfollowed (forest : IsForest id follows handed rows) {k : κ}
    (fresh : k ∉ rows.map id) : successors follows rows k = [] := by
  rw [successors, List.filter_eq_nil_iff]
  intro row member same
  exact fresh (forest.grounded row member k (of_decide_eq_true same))

/-- Changes in place that keep the identifiers, the links and the marks. -/
theorem IsForest.map (forest : IsForest id follows handed rows)
    (keepsId : ∀ row, id (change row) = id row)
    (keepsLink : ∀ row, follows (change row) = follows row)
    (keepsMark : ∀ row ∈ rows, handed (change row) ↔ handed row) :
    IsForest id follows handed (rows.map change) := by
  have ids : (rows.map change).map id = rows.map id := by
    rw [List.map_map]
    exact List.map_congr_left fun row _ => keepsId row
  refine ⟨ids ▸ forest.distinct, ?_, ?_, ?_⟩
  · intro row member k link
    obtain ⟨source, inside, rfl⟩ := List.mem_map.mp member
    rw [ids]
    exact forest.grounded source inside k (keepsLink source ▸ link)
  · intro row member
    obtain ⟨source, inside, rfl⟩ := List.mem_map.mp member
    rw [keepsMark source inside, keepsId, length_successors_map keepsLink]
    exact forest.handed_iff source inside
  · intro k
    rw [length_successors_map keepsLink]
    exact forest.single k

/-- A new row that follows nothing. -/
theorem IsForest.plant (forest : IsForest id follows handed rows) (fresh : id row ∉ rows.map id)
    (root : follows row = none) (unmarked : ¬ handed row) :
    IsForest id follows handed (rows ++ [row]) := by
  have same : ∀ k, successors follows (rows ++ [row]) k = successors follows rows k := by
    intro k
    rw [successors_append]
    simp [successors, root]
  refine ⟨?_, ?_, ?_, ?_⟩
  · rw [List.map_append, List.map_singleton]
    exact List.nodup_append.mpr ⟨forest.distinct, List.nodup_singleton _, by simp_all⟩
  · intro other member k link
    rw [List.map_append, List.mem_append]
    rcases List.mem_append.mp member with inside | new
    · exact .inl (forest.grounded other inside k link)
    · rw [List.mem_singleton.mp new, root] at link
      cases link
  · intro other member
    rw [same]
    rcases List.mem_append.mp member with inside | new
    · exact forest.handed_iff other inside
    · rw [List.mem_singleton.mp new, forest.unfollowed fresh]
      exact iff_of_false unmarked (by simp)
  · intro k
    rw [same]
    exact forest.single k

/-- A row is handed on: it is marked and a new row follows it. -/
theorem IsForest.handOn (forest : IsForest id follows handed rows) (inside : old ∈ rows)
    (keepsId : ∀ row, id (change row) = id row)
    (keepsLink : ∀ row, follows (change row) = follows row)
    (marks : handed (change old)) (open_ : ¬ handed old)
    (fresh : id row ∉ rows.map id) (link : follows row = some (id old)) (unmarked : ¬ handed row) :
    IsForest id follows handed (Table.update id rows (id old) change ++ [row]) := by
  have ids : (Table.update id rows (id old) change).map id = rows.map id :=
    Table.map_update keepsId
  have count : ∀ k, (successors follows (Table.update id rows (id old) change) k).length =
      (successors follows rows k).length := by
    intro k
    refine length_successors_map (fun other => ?_) k
    split_ifs
    · exact keepsLink other
    · rfl
  have one : (successors follows rows (id old)).length = 0 := by
    have bound := forest.single (id old)
    have unmet := (forest.handed_iff old inside).not.mp open_
    omega
  have total : ∀ k, (successors follows (Table.update id rows (id old) change ++ [row]) k).length =
      (successors follows rows k).length + if k = id old then 1 else 0 := by
    intro k
    rw [successors_append, List.length_append, count]
    congr 1
    by_cases here : k = id old
    · simp [successors, link, here]
    · simp [successors, link, here, Ne.symm here]
  have new : ∀ k, k ∉ rows.map id → (successors follows rows k).length = 0 := by
    intro k absent
    rw [forest.unfollowed absent, List.length_nil]
  refine ⟨?_, ?_, ?_, ?_⟩
  · rw [List.map_append, ids, List.map_singleton]
    exact List.nodup_append.mpr ⟨forest.distinct, List.nodup_singleton _, by simp_all⟩
  · intro other member k names
    rw [List.map_append, ids, List.mem_append]
    rcases List.mem_append.mp member with updated | last
    · obtain ⟨source, original, rfl⟩ := Table.mem_update.mp updated
      refine .inl (forest.grounded source original k ?_)
      split_ifs at names
      · exact keepsLink source ▸ names
      · exact names
    · rw [List.mem_singleton.mp last, link, Option.mem_some_iff] at names
      exact .inl (names ▸ List.mem_map_of_mem inside)
  · intro other member
    rcases List.mem_append.mp member with updated | last
    · obtain ⟨source, original, rfl⟩ := Table.mem_update.mp updated
      rw [total]
      by_cases hit : id source = id old
      · have self := List.inj_on_of_nodup_map forest.distinct original inside hit
        rw [if_pos hit, keepsId, hit, if_pos rfl, self, one]
        exact iff_of_true marks rfl
      · rw [if_neg hit, if_neg hit]
        exact forest.handed_iff source original
    · have apart : id row ≠ id old := fun same => fresh (same ▸ List.mem_map_of_mem inside)
      rw [List.mem_singleton.mp last, total, if_neg apart, new (id row) fresh]
      exact iff_of_false unmarked (by decide)
  · intro k
    have bound := forest.single k
    rw [total]
    split_ifs with here
    · rw [here]
      omega
    · exact bound

end AgreementIntelligence.Lib.Forest
