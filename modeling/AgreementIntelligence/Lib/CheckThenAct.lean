import Mathlib.Tactic.Common

/-! Check, then act. Items are committed one after another under a conflict relation; an item is
checked against what is committed some time before it is committed itself, and nothing locks the
time between. Nothing committed conflicts as long as no item is committed while another one that
conflicts with it has already been checked. -/

namespace AgreementIntelligence.Lib.CheckThenAct

variable {α : Type*} {conflicts : α → α → Prop} {committed checked : α → Prop} {item : α}

/-- No two committed items conflict, and no checked item conflicts with a committed one. -/
structure Guarded (conflicts : α → α → Prop) (committed checked : α → Prop) : Prop where
  free : ∀ a b, committed a → committed b → ¬ conflicts a b
  clear : ∀ a b, checked a → committed b → ¬ conflicts a b

/-- Fewer items are committed or checked. -/
theorem Guarded.mono {committed' checked' : α → Prop} (guarded : Guarded conflicts committed checked)
    (fewer : ∀ a, committed' a → committed a) (dropped : ∀ a, checked' a → checked a) :
    Guarded conflicts committed' checked' where
  free a b first second := guarded.free a b (fewer a first) (fewer b second)
  clear a b first second := guarded.clear a b (dropped a first) (fewer b second)

/-- A checked item is committed while nothing that conflicts with it is checked. -/
theorem Guarded.commit (guarded : Guarded conflicts committed checked)
    (symmetric : ∀ a b, conflicts a b → conflicts b a) (irreflexive : ∀ a, ¬ conflicts a a)
    (ready : checked item) (alone : ∀ a, checked a → ¬ conflicts a item) :
    Guarded conflicts (fun a => committed a ∨ a = item) checked where
  free := by
    intro a b first second
    rcases first with first | same <;> rcases second with second | other
    · exact guarded.free a b first second
    · rw [other]
      exact fun clash => guarded.clear item a ready first (symmetric a item clash)
    · rw [same]
      exact guarded.clear item b ready second
    · rw [same, other]
      exact irreflexive item
  clear := by
    intro a b before second
    rcases second with second | same
    · exact guarded.clear a b before second
    · rw [same]
      exact alone a before

end AgreementIntelligence.Lib.CheckThenAct
