import AgreementIntelligence.Lib.Queries
import Mathlib.Data.Set.Insert

/-! Who stands first in an order that may tie. A wanted row is first, whichever of the first rows
is taken, when it leads: every other row has a wanted one before it. As rows come one by one, the
wanted ones lead exactly as long as each newcomer may join. -/

namespace AgreementIntelligence.Lib.Leaders
open Queries

variable {α κ : Type*} [LinearOrder κ]

/-- If there are wanted rows, then each of the others has a wanted row above it. -/
def Leads (wanted : Set α) (key : α → κ) (rows : Set α) : Prop :=
  (rows ∩ wanted).Nonempty → ∀ row ∈ rows, row ∉ wanted → ∃ lead ∈ rows ∩ wanted, key row < key lead

/-- A wanted newcomer finds wanted rows, or no row at its height or above; another one finds no
wanted rows, or one above it. -/
def MayJoin (wanted : Set α) (key : α → κ) (rows : Set α) (row : α) : Prop :=
  (row ∈ wanted → (rows ∩ wanted).Nonempty ∨ ∀ other ∈ rows, key other < key row) ∧
    (row ∉ wanted → (rows ∩ wanted).Nonempty → ∃ lead ∈ rows ∩ wanted, key row < key lead)

variable {wanted : Set α} {key : α → κ} {rows : Set α}

theorem leads_empty : Leads wanted key ∅ := by
  simp [Leads]

theorem leads_insert_iff (leads : Leads wanted key rows) (row : α) :
    Leads wanted key (insert row rows) ↔ MayJoin wanted key rows row := by
  by_cases kind : row ∈ wanted
  · have found : (insert row rows ∩ wanted).Nonempty := ⟨row, Set.mem_insert row rows, kind⟩
    constructor
    · intro after
      refine ⟨fun _ => ?_, fun other => absurd kind other⟩
      by_cases earlier : (rows ∩ wanted).Nonempty
      · exact .inl earlier
      · refine .inr fun other member => ?_
        have unwanted : other ∉ wanted := fun good => earlier ⟨other, member, good⟩
        obtain ⟨lead, ⟨inside, good⟩, above⟩ :=
          after found other (Set.mem_insert_of_mem row member) unwanted
        rcases Set.mem_insert_iff.mp inside with rfl | old
        · exact above
        · exact absurd ⟨lead, old, good⟩ earlier
    · intro joins _ other member unwanted
      rcases Set.mem_insert_iff.mp member with rfl | old
      · exact absurd kind unwanted
      · rcases joins.1 kind with earlier | highest
        · obtain ⟨lead, ⟨inside, good⟩, above⟩ := leads earlier other old unwanted
          exact ⟨lead, ⟨Set.mem_insert_of_mem row inside, good⟩, above⟩
        · exact ⟨row, ⟨Set.mem_insert row rows, kind⟩, highest other old⟩
  · have same : insert row rows ∩ wanted = rows ∩ wanted := Set.insert_inter_of_notMem kind
    rw [Leads, same]
    constructor
    · intro after
      exact ⟨fun good => absurd good kind, fun _ some_ =>
        after some_ row (Set.mem_insert row rows) kind⟩
    · intro joins some_ other member unwanted
      rcases Set.mem_insert_iff.mp member with rfl | old
      · exact joins.2 kind some_
      · exact leads some_ other old unwanted

/-! The first row of a query -/

/-- `SELECT … ORDER BY key DESC LIMIT 1` -/
def first (key : α → κ) (rows : List α) : Option α :=
  (orderBy (fun row => OrderDual.toDual (key row)) rows).head?

theorem first_greatest {rows : List α} {row : α} (found : first key rows = some row) :
    row ∈ rows ∧ ∀ other ∈ rows, key other ≤ key row := by
  have sorted := pairwise_orderBy (fun row => OrderDual.toDual (key row)) rows
  rw [first] at found
  have member : row ∈ rows := mem_orderBy.mp (List.mem_of_head? found)
  refine ⟨member, fun other inside => ?_⟩
  cases ordered : orderBy (fun row => OrderDual.toDual (key row)) rows with
  | nil =>
      rw [ordered] at found
      cases found
  | cons head tail =>
      rw [ordered] at found sorted
      cases found
      rcases List.mem_cons.mp (ordered ▸ mem_orderBy.mpr inside) with rfl | later
      · exact le_refl _
      · exact (List.pairwise_cons.mp sorted).1 other later

theorem first_eq_none_iff {rows : List α} : first key rows = none ↔ rows = [] := by
  rw [first, List.head?_eq_none_iff]
  constructor
  · intro empty
    exact List.Perm.nil_eq (empty ▸ perm_orderBy _ rows) |>.symm
  · rintro rfl
    rfl

/-- A greatest row that is read first is the first one. -/
theorem first_cons {row : α} {rest : List α} (greatest : ∀ other ∈ rest, key other ≤ key row) :
    first key (row :: rest) = some row := by
  rw [first, orderBy, List.insertionSort_cons]
  cases ordered : rest.insertionSort fun a b =>
      OrderDual.toDual (key a) ≤ OrderDual.toDual (key b) with
  | nil => rfl
  | cons head tail =>
      have inside : head ∈ rest := (List.perm_insertionSort _ rest).subset
        (ordered ▸ List.mem_cons_self)
      have below : OrderDual.toDual (key row) ≤ OrderDual.toDual (key head) := greatest head inside
      rw [List.orderedInsert_cons, if_pos below]
      rfl

/-- In whatever order the rows are read, the first one is a wanted one if there is any, exactly if
the wanted ones lead. -/
theorem leads_iff_first (wanted : Set α) (key : α → κ) (rows : List α) :
    Leads wanted key {row | row ∈ rows} ↔
      ((∃ row ∈ rows, row ∈ wanted) → ∀ scanned : List α, scanned.Perm rows →
        ∃ row ∈ rows, row ∈ wanted ∧ first key scanned = some row) := by
  constructor
  · intro leads some_ scanned perm
    cases found : first key scanned with
    | none =>
        obtain ⟨row, member, -⟩ := some_
        rw [first_eq_none_iff] at found
        rw [found] at perm
        rw [List.nil_perm.mp perm] at member
        cases member
    | some row =>
        obtain ⟨member, greatest⟩ := first_greatest found
        refine ⟨row, perm.subset member, ?_, rfl⟩
        by_contra unwanted
        obtain ⟨lead, ⟨inside, -⟩, above⟩ := leads some_ row (perm.subset member) unwanted
        exact absurd (greatest lead (perm.symm.subset inside)) (not_le.mpr above)
  · intro always some_ row member unwanted
    by_contra behind
    push Not at behind
    -- A greatest one of the unwanted rows is a greatest row, and may be read first.
    classical
    have inside : row ∈ rows.filter (· ∉ wanted) := by simpa using ⟨member, unwanted⟩
    have some_ne : first key (rows.filter (· ∉ wanted)) ≠ none := fun none =>
      List.ne_nil_of_mem inside (first_eq_none_iff.mp none)
    obtain ⟨top, highest⟩ := Option.ne_none_iff_exists'.mp some_ne
    obtain ⟨topInside, greatest⟩ := first_greatest highest
    have top_ : top ∈ rows ∧ top ∉ wanted := by simpa using topInside
    obtain ⟨chosen, -, good, found⟩ := always some_ (top :: rows.erase top)
      (List.perm_cons_erase top_.1).symm
    have above : ∀ other ∈ rows.erase top, key other ≤ key top := by
      intro other later
      have present := List.mem_of_mem_erase later
      by_cases kind : other ∈ wanted
      · exact (behind other ⟨present, kind⟩).trans
          (greatest row (by simpa using ⟨member, unwanted⟩))
      · exact greatest other (by simpa using ⟨present, kind⟩)
    rw [first_cons above] at found
    cases found
    exact top_.2 good

/-- A part of a table is read in any order when the table is. -/
theorem exists_perm_filter {p : α → Bool} {rows all : List α} (perm : rows.Perm (all.filter p)) :
    ∃ scanned : List α, scanned.Perm all ∧ scanned.filter p = rows := by
  refine ⟨rows ++ all.filter fun row => !p row, ?_, ?_⟩
  · exact (perm.append_right _).trans (List.filter_append_perm p all)
  · have inside : ∀ row ∈ rows, p row = true := fun row member =>
      (List.mem_filter.mp (perm.subset member)).2
    rw [List.filter_append, List.filter_eq_self.mpr inside, List.filter_filter]
    simp

theorem leads_iff_first_where (wanted : Set α) (key : α → κ) (p : α → Bool) (all : List α) :
    Leads wanted key {row | row ∈ all.filter p} ↔
      ((∃ row ∈ all.filter p, row ∈ wanted) → ∀ scanned : List α, scanned.Perm all →
        ∃ row ∈ all.filter p, row ∈ wanted ∧ first key (scanned.filter p) = some row) := by
  rw [leads_iff_first]
  refine imp_congr_right fun _ => ⟨fun always scanned perm => always _ (perm.filter p),
    fun always rows perm => ?_⟩
  obtain ⟨scanned, order, rfl⟩ := exists_perm_filter perm
  exact always scanned order

/-! The best of a sort -/

section Best
variable {r : α → α → Prop}

/-- The row ranks as high as every row. -/
def Best (r : α → α → Prop) (rows : List α) (row : α) : Prop :=
  row ∈ rows ∧ ∀ other ∈ rows, r row other

/-- Two of the rows are best. -/
def Contested (r : α → α → Prop) (rows : List α) : Prop :=
  ∃ first second, [first, second].Subperm rows ∧ Best r rows first ∧ Best r rows second

theorem best_perm {one other : List α} (perm : one.Perm other) {row : α} :
    Best r one row ↔ Best r other row := by
  simp only [Best, perm.mem_iff]

theorem contested_perm {one other : List α} (perm : one.Perm other) :
    Contested r one ↔ Contested r other := by
  simp only [Contested, best_perm perm, perm.subperm_left]

theorem not_contested_singleton (row : α) : ¬ Contested r [row] := by
  rintro ⟨first, second, both, -⟩
  have short := both.length_le
  simp at short

/-- Without a contest there is one best row at most. -/
theorem Best.eq {rows : List α} {one other : α} (best : Best r rows one)
    (best' : Best r rows other) (single : ¬ Contested r rows) : one = other := by
  by_contra apart
  have distinct : [one, other].Nodup := by simp [apart]
  have inside : [one, other] ⊆ rows := by simp [best.1, best'.1]
  exact single ⟨one, other, List.subperm_of_subset distinct inside, best, best'⟩

theorem best_head [total : Std.Total r] {row : α} {rest : List α} (sorted : (row :: rest).Pairwise r) :
    Best r (row :: rest) row := by
  refine ⟨List.mem_cons_self, fun other member => ?_⟩
  rcases List.mem_cons.mp member with rfl | later
  · exact (total.total other other).elim id id
  · exact (List.pairwise_cons.mp sorted).1 other later

/-- Sorted rows are contested when the second one ranks as high as the first. -/
theorem contested_cons_iff [Std.Total r] [trans : IsTrans α r] {first second : α} {rest : List α}
    (sorted : (first :: second :: rest).Pairwise r) :
    Contested r (first :: second :: rest) ↔ r second first := by
  have tail := (List.pairwise_cons.mp sorted).2
  constructor
  · rintro ⟨one, other, both, best, best'⟩
    by_contra behind
    have below : ∀ row ∈ second :: rest, ¬ r row first := fun row member above =>
      behind (trans.trans second row first ((best_head tail).2 row member) above)
    -- Only the first row is left of those that rank as high as it.
    classical
    have left : (first :: second :: rest).filter (r · first) = [first] := by
      rw [List.filter_cons_of_pos (by simpa using (best_head sorted).2 first List.mem_cons_self),
        List.filter_eq_nil_iff.mpr (by simpa using below)]
    have kept : [one, other].filter (r · first) = [one, other] := by
      simp [best.2 first List.mem_cons_self, best'.2 first List.mem_cons_self]
    have short := (both.filter (r · first)).length_le
    rw [left, kept] at short
    simp at short
  · intro level
    refine ⟨first, second, (List.sublist_append_left [first, second] rest).subperm,
      best_head sorted, List.mem_cons_of_mem _ List.mem_cons_self, fun other member => ?_⟩
    rcases List.mem_cons.mp member with rfl | later
    · exact level
    · exact (best_head tail).2 other later

end Best

end AgreementIntelligence.Lib.Leaders
