import Mathlib.Data.List.TakeWhile

/-! The maximal runs of a list: the longest stretches of items that are kept, apart from each other
by items that are not. A list is its runs and what stands between them; the runs of a list that is
spelt out item by item are those of its spelt runs. -/

namespace AgreementIntelligence.Lib.MaximalRuns

variable {α β : Type}

/-- A list in its maximal runs and the single items between them. -/
def pieces (keeps : α → Bool) : List α → List (List α ⊕ α)
  | [] => []
  | x :: xs =>
    if keeps x then
      match pieces keeps xs with
      | .inl run :: rest => .inl (x :: run) :: rest
      | rest => .inl [x] :: rest
    else .inr x :: pieces keeps xs

/-- `re.findall("[…]+", text)` -/
def runs (keeps : α → Bool) (xs : List α) : List (List α) :=
  (pieces keeps xs).filterMap Sum.getLeft?

/-- The items between the runs, and where the runs stand among them. -/
def outline (keeps : α → Bool) (xs : List α) : List (Option α) :=
  (pieces keeps xs).map Sum.getRight?

variable {keeps : α → Bool}

@[simp] theorem pieces_nil (keeps : α → Bool) : pieces keeps [] = [] :=
  rfl

theorem pieces_cons (keeps : α → Bool) (x : α) (xs : List α) : pieces keeps (x :: xs) =
    if keeps x then
      match pieces keeps xs with
      | .inl run :: rest => .inl (x :: run) :: rest
      | rest => .inl [x] :: rest
    else .inr x :: pieces keeps xs :=
  rfl

theorem flatten_pieces (keeps : α → Bool) (xs : List α) :
    (pieces keeps xs).flatMap (Sum.elim id fun x => [x]) = xs := by
  induction xs with
  | nil => rfl
  | cons x xs ih =>
      rw [pieces_cons]
      split
      · split
        · next run rest found =>
            rw [found] at ih
            simpa using ih
        · simpa using ih
      · simpa using ih

theorem pieces_append_cons (xs : List α) {gap : α} (apart : keeps gap = false) (ys : List α) :
    pieces keeps (xs ++ gap :: ys) = pieces keeps xs ++ .inr gap :: pieces keeps ys := by
  induction xs with
  | nil => simp [pieces_cons, apart]
  | cons x xs ih =>
      rw [List.cons_append, pieces_cons, pieces_cons, ih]
      split
      · match pieces keeps xs with
        | [] => rfl
        | .inl run :: rest => rfl
        | .inr other :: rest => rfl
      · rfl

theorem runs_append_cons (xs : List α) {gap : α} (apart : keeps gap = false) (ys : List α) :
    runs keeps (xs ++ gap :: ys) = runs keeps xs ++ runs keeps ys := by
  rw [runs, pieces_append_cons xs apart, List.filterMap_append, List.filterMap_cons_none rfl]
  rfl

theorem runs_gap_append {gap : List α} (apart : ∀ x ∈ gap, keeps x = false) (ys : List α) :
    runs keeps (gap ++ ys) = runs keeps ys := by
  induction gap with
  | nil => rfl
  | cons x gap ih =>
      rw [List.forall_mem_cons] at apart
      have first := runs_append_cons [] apart.1 (gap ++ ys)
      rw [List.nil_append] at first
      rw [List.cons_append, first, ih apart.2]
      rfl

/-- Whatever stands between two lists keeps their runs apart. -/
theorem runs_append_gap (xs : List α) {gap : List α} (some_ : gap ≠ [])
    (apart : ∀ x ∈ gap, keeps x = false) (ys : List α) :
    runs keeps (xs ++ gap ++ ys) = runs keeps xs ++ runs keeps ys := by
  cases gap with
  | nil => exact absurd rfl some_
  | cons x gap =>
      rw [List.forall_mem_cons] at apart
      rw [List.append_assoc, List.cons_append, runs_append_cons xs apart.1,
        runs_gap_append apart.2]

/-- A list of kept items is one run. -/
theorem pieces_of_all {xs : List α} (some_ : xs ≠ []) (all : ∀ x ∈ xs, keeps x = true) :
    pieces keeps xs = [.inl xs] := by
  induction xs with
  | nil => exact absurd rfl some_
  | cons x xs ih =>
      rw [List.forall_mem_cons] at all
      rw [pieces_cons, if_pos all.1]
      cases xs with
      | nil => rfl
      | cons y ys => rw [ih (List.cons_ne_nil y ys) all.2]

theorem runs_of_all {xs : List α} (some_ : xs ≠ []) (all : ∀ x ∈ xs, keeps x = true) :
    runs keeps xs = [xs] := by
  rw [runs, pieces_of_all some_ all]
  rfl

/-- A run has items, and all of them are kept. -/
theorem mem_runs {xs run : List α} (member : run ∈ runs keeps xs) :
    run ≠ [] ∧ ∀ x ∈ run, keeps x = true := by
  induction xs generalizing run with
  | nil => cases member
  | cons x xs ih =>
      rw [runs, pieces_cons] at member
      rw [runs] at ih
      split at member
      · next kept =>
          split at member
          · next longest rest found =>
              rw [found] at ih
              simp only [List.filterMap_cons, Sum.getLeft?_inl, List.mem_cons] at member ih
              rcases member with rfl | later
              · exact ⟨List.cons_ne_nil x longest,
                  List.forall_mem_cons.mpr ⟨kept, (ih (.inl rfl)).2⟩⟩
              · exact ih (.inr later)
          · simp only [List.filterMap_cons, Sum.getLeft?_inl, List.mem_cons] at member
            rcases member with rfl | later
            · exact ⟨List.cons_ne_nil x [], by simpa using kept⟩
            · exact ih later
      · exact ih (by simpa using member)

/-- The runs of a list that is spelt out. What is not kept has to be spelt in items that are not
kept either. -/
theorem runs_flatMap {keeps' : β → Bool} {spell : α → List β}
    (apart : ∀ x, keeps x = false → spell x ≠ [] ∧ ∀ y ∈ spell x, keeps' y = false)
    (xs : List α) : runs keeps' (xs.flatMap spell) =
      (runs keeps xs).flatMap fun run => runs keeps' (run.flatMap spell) := by
  have all (ys : List α) (kept : ∀ y ∈ ys, keeps y = true) : runs keeps' (ys.flatMap spell) =
      (runs keeps ys).flatMap fun run => runs keeps' (run.flatMap spell) := by
    cases ys with
    | nil => rfl
    | cons y ys => rw [runs_of_all (List.cons_ne_nil y ys) kept, List.flatMap_singleton]
  induction len : xs.length using Nat.strongRecOn generalizing xs with
  | ind n ih =>
      have leading : ∀ x ∈ xs.takeWhile keeps, keeps x = true := fun x member =>
        List.mem_takeWhile_imp member
      cases rest : xs.dropWhile keeps with
      | nil =>
          have whole := List.takeWhile_append_dropWhile (p := keeps) (l := xs)
          rw [rest, List.append_nil] at whole
          exact whole ▸ all _ leading
      | cons gap after =>
          have parts := List.takeWhile_append_dropWhile (p := keeps) (l := xs)
          have stops : keeps gap = false := by
            simpa [rest] using List.head?_dropWhile_not keeps xs
          rw [rest] at parts
          have shorter : after.length < n := by
            rw [← len, ← parts]
            simp
            omega
          rw [← parts, List.flatMap_append, List.flatMap_cons, ← List.append_assoc,
            runs_append_gap _ (apart gap stops).1 (apart gap stops).2,
            runs_append_cons _ stops, List.flatMap_append, all _ leading,
            ih after.length shorter after rfl]

/-! A list from its runs and its outline -/

theorem eq_of_sides {xs ys : List (α ⊕ β)}
    (lefts : xs.filterMap Sum.getLeft? = ys.filterMap Sum.getLeft?)
    (rights : xs.map Sum.getRight? = ys.map Sum.getRight?) : xs = ys := by
  induction xs generalizing ys with
  | nil => exact (List.map_eq_nil_iff.mp rights.symm).symm
  | cons x xs ih =>
      cases ys with
      | nil => cases rights
      | cons y ys =>
          rw [List.map_cons, List.map_cons, List.cons.injEq] at rights
          cases x with
          | inl x =>
              cases y with
              | inl y =>
                  simp only [List.filterMap_cons, Sum.getLeft?_inl, List.cons.injEq] at lefts
                  rw [lefts.1, ih lefts.2 rights.2]
              | inr y => cases rights.1
          | inr x =>
              cases y with
              | inl y => cases rights.1
              | inr y =>
                  rw [List.filterMap_cons_none rfl, List.filterMap_cons_none rfl] at lefts
                  have same : x = y := Option.some.inj rights.1
                  rw [ih lefts rights.2, same]

theorem eq_of_runs_outline {xs ys : List α} (same : runs keeps xs = runs keeps ys)
    (same' : outline keeps xs = outline keeps ys) : xs = ys := by
  rw [← flatten_pieces keeps xs, ← flatten_pieces keeps ys,
    eq_of_sides same same']

/-- The outline counts the runs. -/
theorem length_runs (xs : List α) :
    (runs keeps xs).length = (outline keeps xs).countP Option.isNone := by
  rw [runs, outline]
  generalize pieces keeps xs = parts
  induction parts with
  | nil => rfl
  | cons part parts ih =>
      cases part with
      | inl run => simpa using ih
      | inr gap =>
          rw [List.filterMap_cons_none rfl]
          simpa using ih

/-- Lists in a row are known from all their runs together and the outline of each of them. -/
theorem eq_of_flatMap_runs {words others : List (List α)}
    (same : words.flatMap (runs keeps) = others.flatMap (runs keeps))
    (same' : words.map (outline keeps) = others.map (outline keeps)) : words = others := by
  induction words generalizing others with
  | nil => exact (List.map_eq_nil_iff.mp same'.symm).symm
  | cons word words ih =>
      cases others with
      | nil => cases same'
      | cons other others =>
          rw [List.map_cons, List.map_cons, List.cons.injEq] at same'
          rw [List.flatMap_cons, List.flatMap_cons] at same
          have lengths : (runs keeps word).length = (runs keeps other).length := by
            rw [length_runs, length_runs, same'.1]
          obtain ⟨first, later⟩ := List.append_inj same lengths
          rw [eq_of_runs_outline first same'.1, ih later same'.2]

/-- Runs that are joined by a gap are found again. -/
theorem runs_joined {parts : List (List Char)} {keeps : Char → Bool} (apart : keeps ' ' = false)
    (all : ∀ part ∈ parts, part ≠ [] ∧ ∀ c ∈ part, keeps c = true) :
    runs keeps (" ".intercalate (parts.map String.ofList)).toList = parts := by
  induction parts with
  | nil => rfl
  | cons part rest ih =>
      rw [List.forall_mem_cons] at all
      cases rest with
      | nil => simpa using runs_of_all all.1.1 all.1.2
      | cons next later =>
          rw [List.map_cons, List.map_cons, String.intercalate_cons_cons, ← List.map_cons,
            String.toList_append, String.toList_append, String.toList_ofList, List.append_assoc]
          have gap := runs_append_cons part apart
            (" ".intercalate ((next :: later).map String.ofList)).toList
          exact gap.trans (by rw [runs_of_all all.1.1 all.1.2, ih all.2]; rfl)

end AgreementIntelligence.Lib.MaximalRuns
