import Mathlib.Data.List.Sort
import Mathlib.Order.Lex

/-! Ordered queries over tables whose rows stand in no order of their own. An order that tells
all rows apart gives the same result whatever order the rows are kept in. -/

namespace AgreementIntelligence.Lib.Queries

variable {α κ : Type*} [LinearOrder κ]

/-- `SELECT … ORDER BY key` -/
def orderBy (key : α → κ) (rows : List α) : List α :=
  rows.insertionSort fun a b => key a ≤ key b

theorem pairwise_orderBy (key : α → κ) (rows : List α) :
    (orderBy key rows).Pairwise fun a b => key a ≤ key b := by
  have total : Std.Total fun a b : α => key a ≤ key b := ⟨fun a b => le_total (key a) (key b)⟩
  have trans : IsTrans α fun a b => key a ≤ key b := ⟨fun _ _ _ => le_trans⟩
  exact List.pairwise_insertionSort _ rows

theorem perm_orderBy (key : α → κ) (rows : List α) : (orderBy key rows).Perm rows :=
  List.perm_insertionSort _ rows

theorem mem_orderBy {key : α → κ} {rows : List α} {row : α} :
    row ∈ orderBy key rows ↔ row ∈ rows :=
  (perm_orderBy key rows).mem_iff

/-- Rows that stand in order are returned as they are. -/
theorem orderBy_of_pairwise {key : α → κ} {rows : List α}
    (sorted : rows.Pairwise fun a b => key a ≤ key b) : orderBy key rows = rows :=
  List.Pairwise.insertionSort_eq sorted

/-- A row that comes after all others in the order stays last. -/
theorem orderBy_concat {key : α → κ} {rows : List α} {last : α}
    (greatest : ∀ row ∈ rows, key row ≤ key last) :
    orderBy key (rows ++ [last]) = orderBy key rows ++ [last] := by
  have insert {row : α} (below : key row ≤ key last) (sorted : List α) :
      (sorted ++ [last]).orderedInsert (fun a b => key a ≤ key b) row =
        sorted.orderedInsert (fun a b => key a ≤ key b) row ++ [last] := by
    induction sorted with
    | nil => simp [below]
    | cons other rest ih =>
        rw [List.cons_append, List.orderedInsert_cons, List.orderedInsert_cons, ih]
        split <;> rfl
  induction rows with
  | nil => rfl
  | cons row rest ih =>
      have later := ih fun other member => greatest other (List.mem_cons_of_mem row member)
      rw [orderBy] at later
      rw [orderBy, List.cons_append, List.insertionSort_cons, later,
        insert (greatest row List.mem_cons_self)]
      rfl

/-- The last row in the order comes after all others. -/
theorem le_getLast_orderBy {key : α → κ} {rows : List α} {row last : α}
    (found : (orderBy key rows).getLast? = some last) (member : row ∈ rows) :
    key row ≤ key last := by
  obtain ⟨front, split⟩ := List.getLast?_eq_some_iff.mp found
  have sorted := pairwise_orderBy key rows
  rw [split, List.pairwise_append] at sorted
  rw [← @mem_orderBy _ _ _ key, split, List.mem_append, List.mem_singleton] at member
  rcases member with before | rfl
  · exact sorted.2.2 row before last List.mem_cons_self
  · exact le_rfl

/-- Rows that the order tells apart are returned in one order only. -/
theorem orderBy_perm {key : α → κ} {rows other : List α} (perm : rows.Perm other)
    (apart : ∀ a ∈ rows, ∀ b ∈ rows, key a = key b → a = b) :
    orderBy key rows = orderBy key other := by
  refine List.Perm.eq_of_pairwise (fun a b first second below above => ?_)
    (pairwise_orderBy key rows) (pairwise_orderBy key other)
    (((perm_orderBy key rows).trans perm).trans (perm_orderBy key other).symm)
  rw [mem_orderBy] at first second
  exact apart a first b (perm.symm.subset second) (le_antisymm below above)

/-- A row that is the only one of its kind is found in any order. -/
theorem find?_perm {rows other : List α} (perm : rows.Perm other) {p : α → Bool}
    (single : ∀ a ∈ rows, ∀ b ∈ rows, p a = true → p b = true → a = b) :
    rows.find? p = other.find? p := by
  cases found : rows.find? p with
  | none =>
      rw [List.find?_eq_none] at found
      exact (List.find?_eq_none.mpr fun row member => found row (perm.symm.subset member)).symm
  | some row =>
      have member := List.mem_of_find?_eq_some found
      have here := List.find?_some found
      cases elsewhere : other.find? p with
      | none =>
          rw [List.find?_eq_none] at elsewhere
          exact absurd here (elsewhere row (perm.subset member))
      | some row' =>
          have member' := perm.symm.subset (List.mem_of_find?_eq_some elsewhere)
          rw [single row member row' member' here (List.find?_some elsewhere)]

end AgreementIntelligence.Lib.Queries
