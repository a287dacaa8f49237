import Mathlib.Data.List.Perm.Basic
import Mathlib.Data.List.Rotate
import Mathlib.Order.Lattice
import Mathlib.Tactic.Common

/-! Turns behind a cursor. The items of an ascending list are taken in turn: the first one whose key
is above the cursor, the ones behind it, and then the ones before it. Where the cursor is left at the
key of the item that was served, every item is served once before any is served again. -/

namespace AgreementIntelligence.Lib.Turns

section First
variable {α : Type} (past : α → Bool)

/-- The list from its first item past the cursor on, and what stands before that item behind it. -/
def fromFirst (items : List α) : List α :=
  match items.findIdx? past with
  | none => items
  | some index => items.drop index ++ items.take index

variable {past}

theorem fromFirst_append {before after : List α} (passed : ∀ item ∈ before, past item = false)
    (left : ∀ item ∈ after, past item = true) : fromFirst past (before ++ after) = after ++ before := by
  have nothing : before.findIdx? past = none := List.findIdx?_eq_none_iff.mpr passed
  rw [fromFirst, List.findIdx?_append, nothing, Option.none_or]
  cases after with
  | nil => simp
  | cons item after => simp [List.findIdx?_cons, left item List.mem_cons_self]

theorem split_past {items : List α}
    (upward : items.Pairwise fun item later => past item = true → past later = true) :
    items = items.filter (fun item => !past item) ++ items.filter past := by
  induction items with
  | nil => rfl
  | cons item items ih =>
      rw [List.pairwise_cons] at upward
      cases here : past item with
      | false =>
          rw [List.filter_cons_of_pos (by simp [here]), List.filter_cons_of_neg (by simp [here]),
            List.cons_append, ← ih upward.2]
      | true =>
          have rest : ∀ later ∈ items, past later = true :=
            fun later member => upward.1 later member here
          have none_ : items.filter (fun item => !past item) = [] := by
            rw [List.filter_eq_nil_iff]
            intro later member
            simp [rest later member]
          rw [List.filter_cons_of_neg (by simp [here]), List.filter_cons_of_pos here, none_,
            List.filter_eq_self.mpr rest, List.nil_append]

theorem fromFirst_eq {items : List α}
    (upward : items.Pairwise fun item later => past item = true → past later = true) :
    fromFirst past items = items.filter past ++ items.filter fun item => !past item := by
  conv_lhs => rw [split_past upward]
  apply fromFirst_append
  · intro item member
    simpa using (List.mem_filter.mp member).2
  · intro item member
    exact (List.mem_filter.mp member).2

theorem fromFirst_rotates (items : List α) : ∃ n, fromFirst past items = items.rotate n := by
  rw [fromFirst]
  cases found : items.findIdx? past with
  | none => exact ⟨0, (List.rotate_zero items).symm⟩
  | some index =>
      have below := (List.findIdx?_eq_some_iff_findIdx_eq.mp found).1
      exact ⟨index, (List.rotate_eq_drop_append_take below.le).symm⟩

end First

section Turns
variable {α κ : Type} [LinearOrder κ] (key : α → κ)

def Ascending (items : List α) : Prop :=
  items.Pairwise fun item later => key item < key later

def turns (cursor : Option κ) (items : List α) : List α :=
  match cursor with
  | none => items
  | some cursor => fromFirst (fun item => cursor < key item) items

/-- What is served from a cursor on, when each item that is served leaves its key as the cursor. -/
def served (items : List α) : Option κ → ℕ → List α
  | _, 0 => []
  | cursor, n + 1 =>
    match (turns key cursor items).head? with
    | none => []
    | some item => item :: served items (some (key item)) n

variable {key} {cursor : Option κ} {items : List α}

theorem Ascending.upward (ascending : Ascending key items) (cursor : κ) :
    items.Pairwise fun item later =>
      decide (cursor < key item) = true → decide (cursor < key later) = true := by
  refine ascending.imp ?_
  intro item later less above
  rw [decide_eq_true_eq] at above ⊢
  exact above.trans less

theorem Ascending.nodup (ascending : Ascending key items) : items.Nodup :=
  ascending.imp fun less same => less.ne (congrArg key same)

/-- Ascending lists of the same items are equal. -/
theorem Ascending.eq_of_mem_iff {others : List α} (ascending : Ascending key items)
    (other : Ascending key others) (same : ∀ item, item ∈ items ↔ item ∈ others) :
    items = others := by
  have perm := (List.perm_ext_iff_of_nodup ascending.nodup other.nodup).mpr same
  refine List.Perm.eq_of_pairwise ?_ ascending other perm
  intro one two _ _ less greater
  exact absurd greater less.asymm

theorem turns_some (ascending : Ascending key items) (cursor : κ) :
    turns key (some cursor) items =
      items.filter (fun item => cursor < key item) ++ items.filter fun item => !(cursor < key item) :=
  fromFirst_eq (ascending.upward cursor)

theorem turns_filter (ascending : Ascending key items) (cursor : Option κ) (keep : α → Bool) :
    turns key cursor (items.filter keep) = (turns key cursor items).filter keep := by
  cases cursor with
  | none => rfl
  | some cursor =>
      have kept : Ascending key (items.filter keep) := ascending.sublist List.filter_sublist
      rw [turns_some kept, turns_some ascending, List.filter_append, List.filter_filter,
        List.filter_filter, List.filter_filter, List.filter_filter]
      simp only [Bool.and_comm]

theorem turns_rotates (cursor : Option κ) (items : List α) :
    ∃ n, turns key cursor items = items.rotate n := by
  cases cursor with
  | none => exact ⟨0, (List.rotate_zero items).symm⟩
  | some cursor => exact fromFirst_rotates items

variable (key) in
theorem turns_perm (cursor : Option κ) (items : List α) : (turns key cursor items).Perm items := by
  obtain ⟨n, rotated⟩ := @turns_rotates _ _ _ key cursor items
  rw [rotated]
  exact List.rotate_perm items n

/-- The item that is served goes to the end of the turns. -/
theorem turns_next (ascending : Ascending key items) {item : α} {rest : List α}
    (first : turns key cursor items = item :: rest) :
    turns key (some (key item)) items = rest ++ [item] := by
  -- the items up to the one that is served, and the ones behind it
  have split : ∀ before after, items = before ++ item :: after →
      turns key (some (key item)) items = after ++ (before ++ [item]) := by
    rintro before after rfl
    rw [Ascending, List.pairwise_append, List.pairwise_cons] at ascending
    have same : before ++ item :: after = (before ++ [item]) ++ after := by simp
    rw [turns, same]
    apply fromFirst_append
    · intro other member
      rw [decide_eq_false_iff_not, not_lt]
      rcases List.mem_append.mp member with early | here
      · exact (ascending.2.2 other early item List.mem_cons_self).le
      · rw [List.mem_singleton.mp here]
    · intro other member
      exact decide_eq_true (ascending.2.1.1 other member)
  cases cursor with
  | none => exact split [] rest first
  | some cursor =>
      rw [turns_some ascending] at first
      have parts := split_past (ascending.upward cursor)
      cases above : items.filter (fun item => decide (cursor < key item)) with
      | nil =>
          rw [above, List.nil_append] at first
          rw [above, List.append_nil, first] at parts
          exact split [] rest parts
      | cons other after =>
          rw [above, List.cons_append, List.cons.injEq] at first
          obtain ⟨rfl, rfl⟩ := first
          rw [above] at parts
          rw [split _ after parts, List.append_assoc]

/-- As many items as there are, served from any cursor on, are the turns of that cursor. -/
theorem served_eq (ascending : Ascending key items) {n : ℕ} (within : n ≤ items.length) :
    served key items cursor n = (turns key cursor items).take n := by
  induction n generalizing cursor with
  | zero => simp [served]
  | succ n ih =>
      have length := (turns_perm key cursor items).length_eq
      cases first : turns key cursor items with
      | nil => simp [first] at length; omega
      | cons item rest =>
          have long : n ≤ rest.length := by
            rw [first, List.length_cons] at length
            omega
          rw [served, first, List.head?_cons]
          simp only [List.take_succ_cons]
          rw [ih (by omega), turns_next ascending first, List.take_append_of_le_length long]

end Turns

end AgreementIntelligence.Lib.Turns
