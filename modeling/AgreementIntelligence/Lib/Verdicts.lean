import Mathlib.Data.List.Perm.Basic
import Mathlib.Data.List.Forall2

/-! Loops of checks that stop at the first one that does not pass, when it may fail or escalate.
The order of the checks is of no account exactly if they do not both fail and escalate. -/

namespace AgreementIntelligence.Lib.Verdicts

variable {α : Type*}

inductive Verdict where
  | passes
  | fails
  | escalates
  deriving DecidableEq, Repr

/-- The first verdict that is not a pass -/
def firstVerdict (judge : α → Verdict) : List α → Verdict
  | [] => .passes
  | item :: rest =>
    match judge item with
    | .passes => firstVerdict judge rest
    | .fails => .fails
    | .escalates => .escalates

variable {judge : α → Verdict} {items other : List α}

theorem firstVerdict_cons_of_ne {item : α} {verdict : Verdict} (judged : judge item = verdict)
    (stops : verdict ≠ .passes) (rest : List α) :
    firstVerdict judge (item :: rest) = verdict := by
  subst judged
  rw [firstVerdict]
  split <;> simp_all

theorem firstVerdict_passes_iff :
    firstVerdict judge items = .passes ↔ ∀ item ∈ items, judge item = .passes := by
  induction items with
  | nil => simp [firstVerdict]
  | cons item rest ih =>
      rw [firstVerdict]
      split <;> simp_all

theorem exists_of_firstVerdict {verdict : Verdict} (first : firstVerdict judge items = verdict)
    (stops : verdict ≠ .passes) : ∃ item ∈ items, judge item = verdict := by
  induction items with
  | nil => exact absurd first.symm stops
  | cons item rest ih =>
      rw [firstVerdict] at first
      split at first
      · obtain ⟨later, member, judged⟩ := ih first
        exact ⟨later, List.mem_cons_of_mem item member, judged⟩
      · next judged => exact ⟨item, List.mem_cons_self, judged.trans first⟩
      · next judged => exact ⟨item, List.mem_cons_self, judged.trans first⟩

/-- The items of one verdict before all others -/
def advance (judge : α → Verdict) (verdict : Verdict) (items : List α) : List α :=
  items.filter (fun item => judge item = verdict) ++ items.filter fun item => judge item ≠ verdict

theorem perm_advance (judge : α → Verdict) (verdict : Verdict) (items : List α) :
    items.Perm (advance judge verdict items) := by
  have split := List.filter_append_perm (fun item => decide (judge item = verdict)) items
  simpa [advance] using split.symm

theorem firstVerdict_advance {verdict : Verdict} (some_ : ∃ item ∈ items, judge item = verdict)
    (stops : verdict ≠ .passes) : firstVerdict judge (advance judge verdict items) = verdict := by
  obtain ⟨item, member, judged⟩ := some_
  have inside : item ∈ items.filter (fun item => judge item = verdict) :=
    List.mem_filter.mpr ⟨member, decide_eq_true judged⟩
  rw [advance]
  cases front : items.filter (fun item => judge item = verdict) with
  | nil =>
      rw [front] at inside
      cases inside
  | cons first rest =>
      have here : first ∈ items.filter (fun item => judge item = verdict) :=
        front ▸ List.mem_cons_self
      exact firstVerdict_cons_of_ne (of_decide_eq_true (List.mem_filter.mp here).2) stops _

theorem firstVerdict_fails_of (fails : ∃ item ∈ items, judge item = .fails)
    (calm : ∀ item ∈ items, judge item ≠ .escalates) : firstVerdict judge items = .fails := by
  obtain ⟨item, member, judged⟩ := fails
  cases first : firstVerdict judge items with
  | passes => exact nomatch judged.symm.trans (firstVerdict_passes_iff.mp first item member)
  | fails => rfl
  | escalates =>
      obtain ⟨later, inside, escalates⟩ := exists_of_firstVerdict first nofun
      exact absurd escalates (calm later inside)

theorem firstVerdict_escalates_of (escalates : ∃ item ∈ items, judge item = .escalates)
    (sound : ∀ item ∈ items, judge item ≠ .fails) : firstVerdict judge items = .escalates := by
  obtain ⟨item, member, judged⟩ := escalates
  cases first : firstVerdict judge items with
  | passes => exact nomatch judged.symm.trans (firstVerdict_passes_iff.mp first item member)
  | fails =>
      obtain ⟨later, inside, fails⟩ := exists_of_firstVerdict first nofun
      exact absurd fails (sound later inside)
  | escalates => rfl

/-- Checks that do not both fail and escalate give the same verdict in any order. -/
theorem firstVerdict_perm (perm : items.Perm other)
    (pure : (∀ item ∈ items, judge item ≠ .fails) ∨ ∀ item ∈ items, judge item ≠ .escalates) :
    firstVerdict judge other = firstVerdict judge items := by
  cases first : firstVerdict judge items with
  | passes =>
      rw [firstVerdict_passes_iff] at first ⊢
      exact fun item member => first item (perm.symm.subset member)
  | fails =>
      obtain ⟨item, member, judged⟩ := exists_of_firstVerdict first nofun
      have calm := pure.resolve_left fun sound => sound item member judged
      exact firstVerdict_fails_of ⟨item, perm.subset member, judged⟩
        fun later inside => calm later (perm.symm.subset inside)
  | escalates =>
      obtain ⟨item, member, judged⟩ := exists_of_firstVerdict first nofun
      have sound := pure.resolve_right fun calm => calm item member judged
      exact firstVerdict_escalates_of ⟨item, perm.subset member, judged⟩
        fun later inside => sound later (perm.symm.subset inside)

/-! Rows in another order, each related to the one that it was -/

/-- One list is the other one in another order, up to a relation of its items. -/
def Reordered (r : α → α → Prop) (one other : List α) : Prop :=
  ∃ middle, one.Perm middle ∧ List.Forall₂ r middle other

variable {r : α → α → Prop}

theorem reordered_map {f : α → α} (related : ∀ item ∈ items, r item (f item)) :
    Reordered r items (items.map f) :=
  ⟨items, List.Perm.refl _, List.forall₂_map_right_iff.mpr (List.forall₂_same.mpr related)⟩

theorem Reordered.nil_iff (reordered : Reordered r items other) : items = [] ↔ other = [] := by
  obtain ⟨middle, perm, related⟩ := reordered
  rw [← List.length_eq_zero_iff, perm.length_eq, related.length_eq, List.length_eq_zero_iff]

theorem Reordered.related (reordered : Reordered r items other) {item : α} (member : item ∈ items) :
    ∃ image ∈ other, r item image := by
  obtain ⟨middle, perm, related⟩ := reordered
  have inside : item ∈ middle := perm.subset member
  clear perm
  induction related with
  | nil => cases inside
  | @cons first image _ _ here _ ih =>
      rcases List.mem_cons.mp inside with rfl | later
      · exact ⟨image, List.mem_cons_self, here⟩
      · obtain ⟨image', member', there⟩ := ih later
        exact ⟨image', List.mem_cons_of_mem image member', there⟩

/-- What related items agree on selects related lists. -/
theorem Reordered.filter {p : α → Bool} (reordered : Reordered r items other)
    (agree : ∀ a ∈ items, ∀ b, r a b → p a = p b) :
    Reordered r (items.filter p) (other.filter p) := by
  obtain ⟨middle, perm, related⟩ := reordered
  refine ⟨middle.filter p, perm.filter p, ?_⟩
  have inside := (List.forall₂_and_left _ _).mpr
    ⟨fun a member => perm.symm.subset member, related⟩
  refine (List.rel_filter ?_ inside).imp fun _ _ both => both.2
  intro a b both
  exact Bool.eq_iff_iff.mp (agree a both.1 b both.2)

theorem Reordered.any {p : α → Bool} (reordered : Reordered r items other)
    (agree : ∀ a ∈ items, ∀ b, r a b → p a = p b) : items.any p = other.any p := by
  have same := (reordered.filter agree).nil_iff
  rw [Bool.eq_iff_iff, ← not_iff_not]
  simpa [List.filter_eq_nil_iff] using same

end AgreementIntelligence.Lib.Verdicts
