import Mathlib.Data.Finset.Card

/-! Counting people against counting requirements. A threshold on the size of a set says
something about who is in the set only as far as the population leaves no room to reach
the threshold otherwise; the two results here are the exact conditions. -/

namespace AgreementIntelligence.Lib.Coverage

variable {α : Type*}

/-- Reaching the threshold inside the population forces a member that meets the
requirement exactly when fewer people than the threshold fail it. -/
theorem threshold_forces_iff (population : Finset α) (meets : α → Prop) [DecidablePred meets]
    (threshold : ℕ) :
    (∀ chosen ⊆ population, threshold ≤ chosen.card → ∃ a ∈ chosen, meets a) ↔
      (population.filter fun a => ¬ meets a).card < threshold := by
  constructor
  · intro forces
    by_contra enough
    obtain ⟨a, inside, ok⟩ :=
      forces _ (Finset.filter_subset _ population) (Nat.le_of_not_lt enough)
    exact (Finset.mem_filter.mp inside).2 ok
  · intro few chosen within reached
    by_contra missing
    have failing : chosen ⊆ population.filter fun a => ¬ meets a := by
      intro a member
      exact Finset.mem_filter.mpr ⟨within member, fun ok => missing ⟨a, member, ok⟩⟩
    have bound := Finset.card_le_card failing
    omega

/-- Every set that contains the whole population reaches the threshold exactly when the
population itself does. -/
theorem everyone_reaches_iff (population : Finset α) (threshold : ℕ) :
    (∀ chosen, population ⊆ chosen → threshold ≤ chosen.card) ↔ threshold ≤ population.card := by
  constructor
  · intro reaches
    exact reaches population (Finset.Subset.refl population)
  · intro enough chosen covers
    exact enough.trans (Finset.card_le_card covers)

end AgreementIntelligence.Lib.Coverage
