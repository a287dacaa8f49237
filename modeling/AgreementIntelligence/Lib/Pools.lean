import Mathlib.Algebra.Order.Group.Multiset
import Mathlib.Algebra.Order.Sub.Basic
import Mathlib.Data.Finset.Basic
import Mathlib.Data.Finset.Dedup
import Mathlib.Data.Finset.SDiff

/-! A pool of distinct items from which shares are taken. What was taken and what is left make up
the whole, each item once. -/

namespace AgreementIntelligence.Lib.Pools

variable {ι : Type*} [DecidableEq ι] {whole taken share : List ι} {left : Finset ι}

/-- The items taken and the items left are the whole. -/
def Accounts (whole : List ι) (left : Finset ι) (taken : List ι) : Prop :=
  (taken : Multiset ι) + left.val = whole

theorem accounts_start (distinct : whole.Nodup) : Accounts whole whole.toFinset [] := by
  rw [Accounts, List.toFinset_val, distinct.dedup, Multiset.coe_nil, zero_add]

omit [DecidableEq ι] in
theorem Accounts.mem_whole (accounts : Accounts whole left taken) {item : ι} (free : item ∈ left) :
    item ∈ whole := by
  have member : item ∈ (taken : Multiset ι) + left.val := Multiset.mem_add.mpr (.inr free)
  rw [accounts] at member
  exact member

/-- A share of the items left is taken. -/
theorem Accounts.take (accounts : Accounts whole left taken) (distinct : share.Nodup)
    (free : ∀ item ∈ share, item ∈ left) :
    Accounts whole (left \ share.toFinset) (taken ++ share) := by
  have within : (share : Multiset ι) ≤ left.val :=
    (Multiset.le_iff_subset (Multiset.coe_nodup.mpr distinct)).mpr fun item member =>
      free item member
  rw [Accounts, Finset.sdiff_val, List.toFinset_val, distinct.dedup, ← Multiset.coe_add, add_assoc,
    add_tsub_cancel_of_le within]
  exact accounts

/-- When the last share is all that is left, each item of the whole was taken once. -/
theorem Accounts.finish (accounts : Accounts whole left taken) (distinct : share.Nodup)
    (all : ∀ item, item ∈ share ↔ item ∈ left) : (taken ++ share).Perm whole := by
  have taking := accounts.take distinct fun item member => (all item).mp member
  have nothing : left \ share.toFinset = ∅ := by
    ext item
    simp [all item]
  rw [nothing, Accounts, Finset.empty_val, add_zero] at taking
  exact Multiset.coe_eq_coe.mp taking

end AgreementIntelligence.Lib.Pools
