import Mathlib.Data.List.MinMax
import Mathlib.Tactic.Common

/-! The greatest item of a list, found in one pass that compares the measure of each item with a
coarse copy of the measure of the best one so far. -/

namespace AgreementIntelligence.Lib.RunningGreatest

variable {α β : Type} [LinearOrder β] (measure : α → β) (coarse : β → β)

/-- The items before the winner measure less, and those after it no more. -/
structure Leads (before : List α) (winner : α) (after : List α) : Prop where
  less : ∀ earlier ∈ before, measure earlier < measure winner
  bounded : ∀ later ∈ after, measure later ≤ measure winner

theorem exists_leads (items : List α) (some_ : items ≠ []) :
    ∃ before winner after, items = before ++ winner :: after ∧
      Leads measure before winner after := by
  induction items using List.reverseRecOn with
  | nil => exact absurd rfl some_
  | append_singleton items last ih =>
      by_cases nothing : items = []
      · exact ⟨[], last, [], by simp [nothing], by simp, by simp⟩
      · obtain ⟨before, winner, after, rfl, leads⟩ := ih nothing
        by_cases better : measure winner < measure last
        · refine ⟨before ++ winner :: after, last, [], rfl, ?_, by simp⟩
          intro earlier member
          rcases List.mem_append.mp member with early | late
          · exact (leads.less earlier early).trans better
          · rcases List.mem_cons.mp late with rfl | late
            · exact better
            · exact (leads.bounded earlier late).trans_lt better
        · refine ⟨before, winner, after ++ [last], by simp, leads.less, ?_⟩
          intro later member
          rcases List.mem_append.mp member with early | late
          · exact leads.bounded later early
          · rw [List.mem_singleton.mp late]
            exact not_lt.mp better

theorem Leads.argmax {measure : α → β} {before after : List α} {winner : α}
    (leads : Leads measure before winner after) :
    (before ++ winner :: after).argmax measure = some winner := by
  obtain ⟨less, bounded⟩ := leads
  induction after using List.reverseRecOn with
  | nil =>
      rw [List.argmax_concat]
      cases first : before.argmax measure with
      | none => rfl
      | some best => exact if_pos (less best (List.argmax_mem first))
  | append_singleton after last ih =>
      have same : before ++ winner :: (after ++ [last]) = (before ++ winner :: after) ++ [last] := by
        simp
      rw [same, List.argmax_concat, ih fun later member => bounded later (by simp [member])]
      exact if_neg (not_lt.mpr (bounded last (by simp)))

/-- One round of the pass: the best item so far is kept with the copy of its measure. -/
def betterOf (best : Option (α × β)) (item : α) : Option (α × β) :=
  match best with
  | none => some (item, coarse (measure item))
  | some known => if known.2 < measure item then some (item, coarse (measure item)) else best

def coarseGreatest (items : List α) : Option (α × β) :=
  items.foldl (betterOf measure coarse) none

theorem coarseGreatest_concat (items : List α) (last : α) :
    coarseGreatest measure coarse (items ++ [last]) =
      betterOf measure coarse (coarseGreatest measure coarse items) last := by
  rw [coarseGreatest, List.foldl_append, List.foldl_cons, List.foldl_nil, coarseGreatest]

theorem betterOf_ne_none (best : Option (α × β)) (item : α) :
    betterOf measure coarse best item ≠ none := by
  cases best with
  | none => simp [betterOf]
  | some known =>
      simp only [betterOf]
      split <;> simp

theorem coarseGreatest_eq_none (items : List α) :
    coarseGreatest measure coarse items = none ↔ items = [] := by
  induction items using List.reverseRecOn with
  | nil => simp [coarseGreatest]
  | append_singleton items last ih =>
      rw [coarseGreatest_concat]
      simp [betterOf_ne_none]

section Coarse
variable {measure coarse}

theorem betterOf_of_lt {known : α × β} {item : α} (above : known.2 < measure item) :
    betterOf measure coarse (some known) item = some (item, coarse (measure item)) := if_pos above

theorem betterOf_of_not_lt {known : α × β} {item : α} (below : ¬ known.2 < measure item) :
    betterOf measure coarse (some known) item = some known := if_neg below

theorem foldl_betterOf_of_le {kept : α × β} {items : List α}
    (bounded : ∀ item ∈ items, measure item ≤ kept.2) :
    items.foldl (betterOf measure coarse) (some kept) = some kept := by
  induction items with
  | nil => rfl
  | cons item items ih =>
      rw [List.foldl_cons,
        betterOf_of_not_lt (not_lt.mpr (bounded item List.mem_cons_self))]
      exact ih fun later member => bounded later (List.mem_cons_of_mem item member)

variable (mono : Monotone coarse) (idem : ∀ b, coarse (coarse b) = coarse b)
include mono idem

/-- What is kept after some items: one of them, and no copy is above the one that is kept. -/
theorem coarseGreatest_bounds {items : List α} {best : α × β}
    (kept : coarseGreatest measure coarse items = some best) :
    best.1 ∈ items ∧ best.2 = coarse (measure best.1) ∧
      ∀ item ∈ items, coarse (measure item) ≤ best.2 := by
  induction items using List.reverseRecOn generalizing best with
  | nil => cases kept
  | append_singleton items last ih =>
      rw [coarseGreatest_concat] at kept
      cases first : coarseGreatest measure coarse items with
      | none =>
          rw [first] at kept
          cases kept
          rw [coarseGreatest_eq_none] at first
          simp [first]
      | some known =>
          obtain ⟨member, copy, bound⟩ := ih first
          simp only [first, betterOf] at kept
          split at kept
          · next better =>
              cases kept
              refine ⟨by simp, rfl, ?_⟩
              intro item inside
              rcases List.mem_append.mp inside with early | late
              · calc coarse (measure item) ≤ known.2 := bound item early
                  _ = coarse known.2 := by rw [copy, idem]
                  _ ≤ coarse (measure last) := mono better.le
              · rw [List.mem_singleton.mp late]
          · next worse =>
              cases kept
              refine ⟨by simp [member], copy, ?_⟩
              intro item inside
              rcases List.mem_append.mp inside with early | late
              · exact bound item early
              · rw [List.mem_singleton.mp late]
                calc coarse (measure last) ≤ coarse best.2 := mono (not_lt.mp worse)
                  _ = best.2 := by rw [copy, idem]

/-- Behind an item of the greatest measure, every item that is above the copy of that measure takes
its place. -/
theorem foldl_betterOf_greatest {top : β} {winner : α} {items : List α}
    (bounded : ∀ item ∈ items, measure item ≤ top) :
    items.foldl (betterOf measure coarse) (some (winner, coarse top)) =
      some ((items.filter fun item => coarse top < measure item).getLast?.getD winner,
        coarse top) := by
  induction items generalizing winner with
  | nil => rfl
  | cons item items ih =>
      have others : ∀ later ∈ items, measure later ≤ top :=
        fun later member => bounded later (List.mem_cons_of_mem item member)
      have below := bounded item List.mem_cons_self
      rw [List.foldl_cons]
      by_cases above : coarse top < measure item
      · have same : coarse (measure item) = coarse top := by
          apply le_antisymm (mono below)
          calc coarse top = coarse (coarse top) := (idem top).symm
            _ ≤ coarse (measure item) := mono above.le
        have taken : betterOf measure coarse (some (winner, coarse top)) item =
            some (item, coarse top) := by
          rw [betterOf_of_lt above, same]
        rw [taken, ih others, List.filter_cons_of_pos (by simpa using above), List.getLast?_cons]
        rfl
      · rw [betterOf_of_not_lt above, ih others, List.filter_cons_of_neg (by simpa using above)]

/-- The pass ends at the first item of the greatest measure unless the copy of an earlier measure
reaches that measure, or a later item is above its copy and no repetition of it comes last. -/
theorem coarseGreatest_eq_iff {before after : List α} {winner : α}
    (leads : Leads measure before winner after) :
    (coarseGreatest measure coarse (before ++ winner :: after)).map Prod.fst = some winner ↔
      (∀ earlier ∈ before, coarse (measure earlier) < measure winner) ∧
        ∀ last ∈ (after.filter fun later => coarse (measure winner) < measure later).getLast?,
          last = winner := by
  rw [coarseGreatest, List.foldl_append, List.foldl_cons, ← coarseGreatest]
  by_cases passed : ∀ earlier ∈ before, coarse (measure earlier) < measure winner
  · have taken : betterOf measure coarse (coarseGreatest measure coarse before) winner =
        some (winner, coarse (measure winner)) := by
      cases first : coarseGreatest measure coarse before with
      | none => rfl
      | some known =>
          obtain ⟨member, copy, -⟩ := coarseGreatest_bounds mono idem first
          exact betterOf_of_lt (copy ▸ passed known.1 member)
    rw [taken, foldl_betterOf_greatest mono idem leads.bounded, Option.map_some, Option.some_inj]
    rw [and_iff_right passed]
    generalize (after.filter fun later => coarse (measure winner) < measure later).getLast? = final
    cases final <;> simp
  · -- an earlier copy is never passed again, and what is kept with it measures less
    push Not at passed
    obtain ⟨earlier, inside, reached⟩ := passed
    cases first : coarseGreatest measure coarse before with
    | none =>
        rw [coarseGreatest_eq_none] at first
        simp [first] at inside
    | some known =>
        obtain ⟨member, -, bound⟩ := coarseGreatest_bounds mono idem first
        have above : measure winner ≤ known.2 := reached.trans (bound earlier inside)
        have stays : (winner :: after).foldl (betterOf measure coarse) (some known) = some known := by
          apply foldl_betterOf_of_le
          intro item among
          rcases List.mem_cons.mp among with rfl | later
          · exact above
          · exact (leads.bounded item later).trans above
        rw [List.foldl_cons] at stays
        rw [stays, Option.map_some, Option.some_inj]
        constructor
        · intro same
          have less := leads.less known.1 member
          rw [same] at less
          exact absurd less (lt_irrefl _)
        · intro kept
          exact absurd (kept.1 earlier inside) (not_lt.mpr reached)

/-- Copies do no harm to the first item of the greatest measure. -/
def Harmless (measure : α → β) (coarse : β → β) (items : List α) : Prop :=
  ∀ before winner after, items = before ++ winner :: after → Leads measure before winner after →
    (∀ earlier ∈ before, coarse (measure earlier) < measure winner) ∧
      ∀ last ∈ (after.filter fun later => coarse (measure winner) < measure later).getLast?,
        last = winner

theorem coarseGreatest_eq_argmax_iff (items : List α) :
    (coarseGreatest measure coarse items).map Prod.fst = items.argmax measure ↔
      Harmless measure coarse items := by
  constructor
  · rintro same before winner after rfl leads
    rw [leads.argmax] at same
    exact (coarseGreatest_eq_iff mono idem leads).mp same
  · intro harmless
    by_cases nothing : items = []
    · rw [nothing]
      rfl
    · obtain ⟨before, winner, after, rfl, leads⟩ := exists_leads measure items nothing
      rw [leads.argmax]
      exact (coarseGreatest_eq_iff mono idem leads).mpr (harmless before winner after rfl leads)

end Coarse

end AgreementIntelligence.Lib.RunningGreatest
