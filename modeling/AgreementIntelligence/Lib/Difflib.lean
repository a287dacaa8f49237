import Mathlib.Algebra.Order.Field.Basic
import Mathlib.Algebra.Order.Ring.Rat
import Mathlib.Data.List.Basic
import Mathlib.Tactic.Linarith
import Mathlib.Tactic.Positivity
import Mathlib.Tactic.Ring

/-! Sequence matching in the manner of Python's `difflib`. The longest block that two sequences
share is taken out and what stands before and after it is matched in the same way. A long second
sequence has popular elements, which begin no block but may extend one. The ratio of two sequences
lies between zero and one, and it is one for a sequence and itself. -/

namespace AgreementIntelligence.Lib.Difflib

variable {α : Type*} [DecidableEq α]

/-- The elements that `autojunk` leaves out of the index of the second sequence. -/
def popular (second : List α) (x : α) : Bool :=
  200 ≤ second.length && second.length / 100 + 1 < second.count x

/-- How long two sequences agree, in elements that are all kept. -/
def run (keeps : α → Bool) : List α → List α → ℕ
  | x :: xs, y :: ys => if x = y ∧ keeps y = true then run keeps xs ys + 1 else 0
  | _, _ => 0

structure Match where
  a : ℕ
  b : ℕ
  size : ℕ
deriving DecidableEq

/-- The places of two sequences, those of the first one first. -/
def places (first second : List α) : List (ℕ × ℕ) :=
  (List.range first.length).flatMap fun i => (List.range second.length).map fun j => (i, j)

/-- The block to begin with: the longest of kept elements, of those the earliest. -/
def seed (keeps : α → Bool) (first second : List α) : Match :=
  match (places first second).maxOn? fun p => run keeps (first.drop p.1) (second.drop p.2) with
  | none => ⟨0, 0, 0⟩
  | some p => ⟨p.1, p.2, run keeps (first.drop p.1) (second.drop p.2)⟩

/-- `find_longest_match`: the block is extended at either end by whatever agrees. -/
def findLongestMatch (keeps : α → Bool) (first second : List α) : Match :=
  let best := seed keeps first second
  let before := run (fun _ => true) (first.take best.a).reverse (second.take best.b).reverse
  let after := run (fun _ => true) (first.drop (best.a + best.size))
    (second.drop (best.b + best.size))
  ⟨best.a - before, best.b - before, before + best.size + after⟩

/-- The sizes of the matching blocks together. Each round needs less of the first sequence. -/
def matchesWithin (keeps : α → Bool) : ℕ → List α → List α → ℕ
  | 0, _, _ => 0
  | fuel + 1, first, second =>
    let best := findLongestMatch keeps first second
    if best.size = 0 then 0
    else matchesWithin keeps fuel (first.take best.a) (second.take best.b) + best.size +
      matchesWithin keeps fuel (first.drop (best.a + best.size))
        (second.drop (best.b + best.size))

/-- `sum(triple[-1] for triple in SequenceMatcher(None, first, second).get_matching_blocks())` -/
def matches_ (first second : List α) : ℕ :=
  matchesWithin (fun x => !popular second x) first.length first second

/-- `SequenceMatcher(None, first, second).ratio()` -/
def ratio (first second : List α) : ℚ :=
  if first.length + second.length = 0 then 1
  else 2 * matches_ first second / (first.length + second.length : ℕ)

section Blocks

variable (keeps : α → Bool)

theorem run_cons (x y : α) (xs ys : List α) : run keeps (x :: xs) (y :: ys) =
    if x = y ∧ keeps y = true then run keeps xs ys + 1 else 0 := by
  rw [run]

theorem run_le (xs ys : List α) :
    run keeps xs ys ≤ xs.length ∧ run keeps xs ys ≤ ys.length := by
  induction xs generalizing ys with
  | nil => exact ⟨Nat.zero_le _, Nat.zero_le _⟩
  | cons x xs ih =>
      cases ys with
      | nil => exact ⟨Nat.zero_le _, Nat.zero_le _⟩
      | cons y ys =>
          have shorter := ih ys
          rw [run_cons]
          split
          · simp only [List.length_cons]
            omega
          · omega

theorem run_le_left (xs ys : List α) : run keeps xs ys ≤ xs.length :=
  (run_le keeps xs ys).1

theorem run_le_right (xs ys : List α) : run keeps xs ys ≤ ys.length :=
  (run_le keeps xs ys).2

/-- Two sequences agree no longer than either of them does with itself. -/
theorem run_le_self (xs ys : List α) :
    run keeps xs ys ≤ run keeps xs xs ∧ run keeps xs ys ≤ run keeps ys ys := by
  induction xs generalizing ys with
  | nil => exact ⟨Nat.zero_le _, Nat.zero_le _⟩
  | cons x xs ih =>
      cases ys with
      | nil => exact ⟨Nat.zero_le _, Nat.zero_le _⟩
      | cons y ys =>
          have shorter := ih ys
          rw [run_cons]
          split
          · next same =>
              rw [run_cons, run_cons, if_pos ⟨rfl, same.1 ▸ same.2⟩, if_pos ⟨rfl, same.2⟩]
              omega
          · omega

theorem run_le_self_left (xs ys : List α) : run keeps xs ys ≤ run keeps xs xs :=
  (run_le_self keeps xs ys).1

theorem run_le_self_right (xs ys : List α) : run keeps xs ys ≤ run keeps ys ys :=
  (run_le_self keeps xs ys).2

theorem run_all_self (xs : List α) : run (fun _ => true) xs xs = xs.length := by
  induction xs with
  | nil => rfl
  | cons x xs ih => rw [run_cons, if_pos ⟨rfl, rfl⟩, ih, List.length_cons]

omit [DecidableEq α] in
theorem mem_places {first second : List α} {p : ℕ × ℕ} :
    p ∈ places first second ↔ p.1 < first.length ∧ p.2 < second.length := by
  obtain ⟨i, j⟩ := p
  simp [places]

omit [DecidableEq α] in
/-- The places stand in their order. -/
theorem pairwise_places (first second : List α) :
    (places first second).Pairwise fun p q => p.1 < q.1 ∨ p.1 = q.1 ∧ p.2 < q.2 := by
  rw [places, List.pairwise_flatMap]
  constructor
  · intro i _
    rw [List.pairwise_map]
    exact List.pairwise_lt_range.imp fun below => .inr ⟨rfl, below⟩
  · refine List.pairwise_lt_range.imp fun {i i'} below p left q right => ?_
    simp only [List.mem_map] at left right
    obtain ⟨j, -, rfl⟩ := left
    obtain ⟨j', -, rfl⟩ := right
    exact .inl below

/-- The first of the greatest items has only lesser ones before it. -/
theorem maxOn?_split {β : Type*} {f : β → ℕ} {items : List β} {best : β}
    (found : items.maxOn? f = some best) :
    ∃ earlier later, items = earlier ++ best :: later ∧ ∀ item ∈ earlier, f item < f best := by
  induction items with
  | nil => simp at found
  | cons item rest ih =>
      rw [List.maxOn?_cons] at found
      cases others : rest.maxOn? f with
      | none =>
          rw [others] at found
          exact ⟨[], rest, by simpa using found, by simp⟩
      | some greatest =>
          rw [others, Option.elim_some, Option.some.injEq] at found
          by_cases enough : f greatest ≤ f item
          · rw [maxOn_eq_left enough] at found
            exact ⟨[], rest, by rw [found, List.nil_append], by simp⟩
          · rw [maxOn_eq_right enough] at found
            subst found
            obtain ⟨earlier, later, parts, lesser⟩ := ih others
            refine ⟨item :: earlier, later, by rw [parts, List.cons_append], ?_⟩
            intro other member
            rcases List.mem_cons.mp member with rfl | deeper
            · omega
            · exact lesser other deeper

theorem seed_le (first second : List α) :
    (seed keeps first second).a + (seed keeps first second).size ≤ first.length ∧
      (seed keeps first second).b + (seed keeps first second).size ≤ second.length := by
  rw [seed]
  split
  · simp
  · next p found =>
      have inside := mem_places.mp (List.maxOn?_mem found)
      have left := run_le_left keeps (first.drop p.1) (second.drop p.2)
      have right := run_le_right keeps (first.drop p.1) (second.drop p.2)
      rw [List.length_drop] at left right
      dsimp only
      omega

theorem findLongestMatch_le (first second : List α) :
    (findLongestMatch keeps first second).a + (findLongestMatch keeps first second).size ≤
        first.length ∧
      (findLongestMatch keeps first second).b + (findLongestMatch keeps first second).size ≤
        second.length := by
  have within := seed_le keeps first second
  simp only [findLongestMatch]
  generalize seed keeps first second = best at within ⊢
  have left := run_le_left (fun _ => true) (first.take best.a).reverse
    (second.take best.b).reverse
  have right := run_le_right (fun _ => true) (first.take best.a).reverse
    (second.take best.b).reverse
  have left' := run_le_left (fun _ => true) (first.drop (best.a + best.size))
    (second.drop (best.b + best.size))
  have right' := run_le_right (fun _ => true) (first.drop (best.a + best.size))
    (second.drop (best.b + best.size))
  simp only [List.length_reverse, List.length_take, List.length_drop] at left right left' right'
  omega

theorem matchesWithin_le (fuel : ℕ) (first second : List α) :
    matchesWithin keeps fuel first second ≤ first.length ∧
      matchesWithin keeps fuel first second ≤ second.length := by
  induction fuel generalizing first second with
  | zero => simp [matchesWithin]
  | succ fuel ih =>
      rw [matchesWithin]
      split
      · omega
      · have within := findLongestMatch_le keeps first second
        generalize findLongestMatch keeps first second = best at within ⊢
        have before := ih (first.take best.a) (second.take best.b)
        have after := ih (first.drop (best.a + best.size)) (second.drop (best.b + best.size))
        simp only [List.length_take, List.length_drop] at before after
        omega

/-- Rounds beyond the length of the first sequence change nothing. -/
theorem matchesWithin_enough {fuel : ℕ} {first : List α} (enough : first.length ≤ fuel)
    (second : List α) :
    matchesWithin keeps fuel first second = matchesWithin keeps first.length first second := by
  suffices same : ∀ n m (first second : List α), first.length ≤ n → first.length ≤ m →
      matchesWithin keeps n first second = matchesWithin keeps m first second from
    same fuel first.length first second enough (le_refl _)
  intro n
  induction n with
  | zero =>
      intro m first second none _
      have nothing := (matchesWithin_le keeps m first second).1
      rw [matchesWithin]
      omega
  | succ n ih =>
      intro m first second within other
      cases m with
      | zero =>
          have nothing := (matchesWithin_le keeps (n + 1) first second).1
          rw [matchesWithin.eq_1]
          omega
      | succ m =>
          rw [matchesWithin, matchesWithin]
          have inside := findLongestMatch_le keeps first second
          generalize findLongestMatch keeps first second = best at inside ⊢
          split
          · rfl
          · rw [ih m (first.take best.a) _ (by rw [List.length_take]; omega)
                (by rw [List.length_take]; omega),
              ih m (first.drop (best.a + best.size)) _ (by rw [List.length_drop]; omega)
                (by rw [List.length_drop]; omega)]

/-- A sequence and itself begin with the longest block at its own place. -/
theorem seed_self (xs : List α) : (seed keeps xs xs).a = (seed keeps xs xs).b := by
  rw [seed]
  split
  · rfl
  · next p found =>
      obtain ⟨earlier, later, parts, shorter⟩ := maxOn?_split found
      have inside := mem_places.mp (List.maxOn?_mem found)
      have ordered := pairwise_places xs xs
      rw [parts, List.pairwise_append, List.pairwise_cons] at ordered
      -- a place off the diagonal has the longer of two earlier diagonal places before it
      have sooner : ∀ i, i < xs.length → (i < p.1 ∨ i = p.1 ∧ i < p.2) →
          run keeps (xs.drop i) (xs.drop i) < run keeps (xs.drop p.1) (xs.drop p.2) := by
        intro i small before
        have member : (i, i) ∈ places xs xs := mem_places.mpr ⟨small, small⟩
        rw [parts, List.mem_append, List.mem_cons] at member
        rcases member with first | same | last
        · exact shorter (i, i) first
        · cases same
          omega
        · have after := ordered.2.1.1 (i, i) last
          simp only at after
          omega
      by_contra apart
      rcases Nat.lt_or_gt_of_ne apart with less | more
      · have longer := sooner p.1 inside.1 (.inr ⟨rfl, less⟩)
        have bound := run_le_self_left keeps (xs.drop p.1) (xs.drop p.2)
        omega
      · have longer := sooner p.2 inside.2 (.inl more)
        have bound := run_le_self_right keeps (xs.drop p.1) (xs.drop p.2)
        omega

theorem findLongestMatch_self (xs : List α) :
    findLongestMatch keeps xs xs = ⟨0, 0, xs.length⟩ := by
  have within := (seed_le keeps xs xs).1
  have diagonal := seed_self keeps xs
  simp only [findLongestMatch]
  generalize seed keeps xs xs = best at within diagonal ⊢
  rw [← diagonal, run_all_self, run_all_self, List.length_reverse, List.length_take,
    List.length_drop, Nat.min_eq_left (by omega)]
  simp only [Nat.sub_self, Match.mk.injEq, true_and]
  omega

end Blocks

theorem matches_le (first second : List α) :
    matches_ first second ≤ first.length ∧ matches_ first second ≤ second.length :=
  matchesWithin_le _ _ first second

theorem matches_self (xs : List α) : matches_ xs xs = xs.length := by
  cases xs with
  | nil => rfl
  | cons x xs =>
      rw [matches_, List.length_cons, matchesWithin]
      simp only [findLongestMatch_self, List.length_cons, Nat.add_eq_zero_iff, one_ne_zero,
        and_false, if_false, List.take_zero, Nat.zero_add]
      have before := (matchesWithin_le (fun y => !popular (x :: xs) y) xs.length [] []).1
      have after := (matchesWithin_le (fun y => !popular (x :: xs) y) xs.length
        ((x :: xs).drop (xs.length + 1)) ((x :: xs).drop (xs.length + 1))).1
      simp only [List.length_nil, List.length_drop, List.length_cons] at before after
      omega

theorem ratio_le_one (first second : List α) : ratio first second ≤ 1 := by
  rw [ratio]
  split
  · exact le_refl 1
  · next some_ =>
      have bounds := matches_le first second
      have positive : (0 : ℚ) < (first.length + second.length : ℕ) := by
        exact_mod_cast Nat.pos_of_ne_zero some_
      rw [div_le_one positive]
      exact_mod_cast (by omega : 2 * matches_ first second ≤ first.length + second.length)

theorem ratio_self (xs : List α) : ratio xs xs = 1 := by
  rw [ratio]
  split
  · rfl
  · next some_ =>
      rw [matches_self, div_eq_one_iff_eq (by exact_mod_cast some_)]
      push_cast
      ring

end AgreementIntelligence.Lib.Difflib
