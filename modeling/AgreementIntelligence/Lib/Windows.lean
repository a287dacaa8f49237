import Mathlib.Data.List.Basic
import Mathlib.Tactic.Common

/-! Windows of one size over a list, each a fixed step after the one before it. The last window
ends with the list. -/

namespace AgreementIntelligence.Lib.Windows

variable {α : Type*}

/-- The items from place `step * k` on, as many as a window holds. -/
def slice (size step : ℕ) (items : List α) (k : ℕ) : List α :=
  (items.drop (step * k)).take size

/-- How many windows a list of a length needs. -/
def count (size step length : ℕ) : ℕ :=
  (length - (size - step) - 1) / step + 1

theorem lt_count_iff {size step length : ℕ} (moves : 0 < step) {k : ℕ} :
    k < count size step length ↔ k = 0 ∨ step * k + (size - step) < length := by
  rw [count, Nat.lt_succ_iff, Nat.le_div_iff_mul_le moves, Nat.mul_comm]
  rcases Nat.eq_zero_or_pos k with rfl | later
  · simp
  · have positive : 0 < step * k := Nat.mul_pos moves later
    omega

section Slices
variable {size step : ℕ} {items : List α}

theorem length_slice (k : ℕ) : (slice size step items k).length = min size (items.length - step * k) := by
  rw [slice, List.length_take, List.length_drop]

theorem getElem?_slice {k place : ℕ} (inside : place < size) :
    (slice size step items k)[place]? = items[step * k + place]? := by
  rw [slice, List.getElem?_take_of_lt inside, List.getElem?_drop]

/-- Every window but the last is full. -/
theorem length_slice_of_next (moves : 0 < step) (overlaps : step ≤ size) {k : ℕ}
    (next : k + 1 < count size step items.length) : (slice size step items k).length = size := by
  rw [lt_count_iff moves, Nat.mul_succ] at next
  rw [length_slice]
  omega

/-- A window has an item, if the list has one. -/
theorem length_slice_pos (moves : 0 < step) (overlaps : step ≤ size) (some_ : items ≠ []) {k : ℕ}
    (bound : k < count size step items.length) : 0 < (slice size step items k).length := by
  have positive := List.length_pos_iff.mpr some_
  rw [lt_count_iff moves] at bound
  rw [length_slice]
  rcases bound with rfl | here <;> omega

/-- Every place of a list is in one of its windows. -/
theorem exists_slice (moves : 0 < step) (overlaps : step ≤ size) {place : ℕ}
    (inside : place < items.length) : ∃ k < count size step items.length,
      step * k ≤ place ∧ place < step * k + size := by
  by_cases early : place < size
  · exact ⟨0, (lt_count_iff moves).mpr (.inl rfl), by omega, by omega⟩
  · refine ⟨(place - (size - step)) / step, (lt_count_iff moves).mpr (.inr ?_), ?_, ?_⟩
    · have below := Nat.mul_div_le (place - (size - step)) step
      omega
    · have below := Nat.mul_div_le (place - (size - step)) step
      omega
    · have above := Nat.lt_mul_div_succ (place - (size - step)) moves
      rw [Nat.mul_succ] at above
      omega

/-- The last window ends with the list. -/
theorem slice_last (moves : 0 < step) (overlaps : step ≤ size) {k : ℕ}
    (last : k + 1 = count size step items.length) :
    slice size step items k = items.drop (step * k) := by
  have ends : ¬ k + 1 < count size step items.length := by omega
  rw [lt_count_iff moves, Nat.mul_succ] at ends
  rw [slice, List.take_of_length_le]
  rw [List.length_drop]
  omega

/-- What is behind the step in a window is what the next one begins with. -/
theorem slice_overlap (k : ℕ) :
    (slice size step items k).drop step = (slice size step items (k + 1)).take (size - step) := by
  rw [slice, slice, List.drop_take, List.drop_drop, List.take_take, Nat.mul_succ,
    Nat.min_eq_left (Nat.sub_le size step)]

end Slices

end AgreementIntelligence.Lib.Windows
