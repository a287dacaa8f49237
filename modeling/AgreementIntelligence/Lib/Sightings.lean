import Mathlib.Algebra.Order.Field.Rat
import Mathlib.Algebra.BigOperators.Group.List.Basic
import Mathlib.Tactic.Linarith
import Mathlib.Tactic.Positivity

/-! Scores that count sightings. Each item of a list may be sighted any number of times; a score of
all sightings over all items speaks for the single items only as far as items that are sighted too
often do not make up for items that are not sighted. -/

namespace AgreementIntelligence.Lib.Sightings

/-- `numerator / denominator if denominator else 1.0` -/
def ratio (numerator denominator : ℕ) : ℚ :=
  if denominator = 0 then 1 else numerator / denominator

/-- `2 * precision * recall / (precision + recall) if precision + recall else 0.0` -/
def f1 (precision recalled : ℚ) : ℚ :=
  if precision + recalled = 0 then 0 else 2 * precision * recalled / (precision + recalled)

/-- From zero to one. -/
def IsRatio (score : ℚ) : Prop :=
  0 ≤ score ∧ score ≤ 1

theorem isRatio_ratio_iff {numerator denominator : ℕ}
    (empty : denominator = 0 → numerator = 0) :
    IsRatio (ratio numerator denominator) ↔ numerator ≤ denominator := by
  rw [IsRatio, ratio]
  split_ifs with zero
  · simp [empty zero]
  · have positive : (0 : ℚ) < denominator := by
      exact_mod_cast Nat.pos_of_ne_zero zero
    rw [div_le_one positive, Nat.cast_le]
    exact and_iff_right (by positivity)

theorem isRatio_ratio {numerator denominator : ℕ} (few : numerator ≤ denominator) :
    IsRatio (ratio numerator denominator) :=
  (isRatio_ratio_iff (by omega)).mpr few

theorem ratio_eq_one_iff {numerator denominator : ℕ}
    (empty : denominator = 0 → numerator = 0) :
    ratio numerator denominator = 1 ↔ numerator = denominator := by
  rw [ratio]
  split_ifs with zero
  · simp [empty zero, zero]
  · have some_ : (denominator : ℚ) ≠ 0 := by exact_mod_cast zero
    rw [div_eq_one_iff_eq some_, Nat.cast_inj]

theorem isRatio_f1 {precision recalled : ℚ} (left : IsRatio precision) (right : IsRatio recalled) :
    IsRatio (f1 precision recalled) := by
  obtain ⟨low, high⟩ := left
  obtain ⟨low', high'⟩ := right
  rw [f1]
  split_ifs with zero
  · exact ⟨le_refl 0, zero_le_one⟩
  · have positive : 0 < precision + recalled :=
      lt_of_le_of_ne (add_nonneg low low') (Ne.symm zero)
    refine ⟨by positivity, (div_le_one positive).mpr ?_⟩
    have below : precision * recalled ≤ precision := mul_le_of_le_one_right low high'
    have below' : precision * recalled ≤ recalled := mul_le_of_le_one_left low' high
    linarith

/-- A counter that each round of a loop raises by an amount of its own. -/
theorem counter_foldl {σ α : Type*} {round : σ → α → σ} {counter : σ → ℕ} {gain : α → ℕ}
    (once : ∀ state item, counter (round state item) = counter state + gain item) (state : σ)
    (items : List α) :
    counter (items.foldl round state) = counter state + (items.map gain).sum := by
  induction items generalizing state with
  | nil => rfl
  | cons item rest ih =>
      rw [List.foldl_cons, ih, once, List.map_cons, List.sum_cons, Nat.add_assoc]

theorem countP_eq_sum {α : Type*} (p : α → Bool) (items : List α) :
    items.countP p = (items.map fun item => if p item then 1 else 0).sum := by
  induction items with
  | nil => rfl
  | cons item rest ih => rw [List.countP_cons, ih, List.map_cons, List.sum_cons, Nat.add_comm]

section
variable {ι : Type*} (times : ι → ℕ)

/-- The sightings beyond the first one of each item. -/
def repeats (items : List ι) : ℕ :=
  (items.map fun item => times item - 1).sum

/-- The items without a sighting. -/
def missed (items : List ι) : ℕ :=
  items.countP fun item => times item = 0

/-- Sightings too many do not make up for the missed items: there are fewer of them, or there are
none and no item that is left out of the count is missed either. -/
def Uncompensated (items others : List ι) : Prop :=
  repeats times items < missed times items ∨
    (repeats times items = 0 ∧ ∀ item ∈ others, 0 < times item)

theorem sum_add_missed (items : List ι) :
    (items.map times).sum + missed times items = items.length + repeats times items := by
  induction items with
  | nil => rfl
  | cons item rest ih =>
      simp only [missed, repeats, List.map_cons, List.sum_cons, List.length_cons,
        List.countP_cons, decide_eq_true_eq] at ih ⊢
      split_ifs with none
      · omega
      · omega

theorem missed_eq_zero_iff {items : List ι} :
    missed times items = 0 ↔ ∀ item ∈ items, 0 < times item := by
  simp [missed, List.countP_eq_zero, Nat.pos_iff_ne_zero]

/-- The score never exceeds one and reaches it exactly when all items are sighted, counted or not,
if and only if no sightings make up for missed items. -/
theorem uncompensated_iff {items others : List ι} :
    ((items.map times).sum ≤ items.length ∧
      ((items.map times).sum = items.length ↔
        (∀ item ∈ items, 0 < times item) ∧ ∀ item ∈ others, 0 < times item)) ↔
      Uncompensated times items others := by
  have balance := sum_add_missed times items
  rw [← @missed_eq_zero_iff _ times items, Uncompensated]
  generalize (∀ item ∈ others, 0 < times item) = all
  by_cases sighted : all
  · simp only [sighted, and_true]
    omega
  · simp only [sighted, and_false, iff_false, or_false]
    omega

end

end AgreementIntelligence.Lib.Sightings
