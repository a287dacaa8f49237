import Mathlib.Data.List.Forall2

/-! Computations that may raise, taken apart at their binds. -/

namespace AgreementIntelligence.Lib.Results

/-- A sequence returns only when both of its parts do. -/
theorem bind_ok {ε α β : Type} {x : Except ε α} {f : α → Except ε β} {b : β} :
    (x >>= f) = .ok b ↔ ∃ a, x = .ok a ∧ f a = .ok b := by
  cases x with
  | error e => simp [bind, Except.bind]
  | ok a => simp [bind, Except.bind]

theorem bind_error {ε α β : Type} {x : Except ε α} {f : α → Except ε β} {e : ε} :
    (x >>= f) = .error e ↔ x = .error e ∨ ∃ a, x = .ok a ∧ f a = .error e := by
  cases x with
  | error e' => simp [bind, Except.bind]
  | ok a => simp [bind, Except.bind]

/-- A loop over a list returns only when every round does, and then it returns their results. -/
theorem mapM_ok {ε α β : Type} {f : α → Except ε β} {xs : List α} {ys : List β} :
    xs.mapM f = .ok ys ↔ List.Forall₂ (fun x y => f x = .ok y) xs ys := by
  induction xs generalizing ys with
  | nil => simp [pure, Except.pure, eq_comm]
  | cons x rest ih =>
      rw [List.mapM_cons, bind_ok, List.forall₂_cons_left_iff]
      simp only [bind_ok, ih, pure, Except.pure, Except.ok.injEq]
      constructor
      · rintro ⟨y, first, others, later, rfl⟩
        exact ⟨y, others, first, later, rfl⟩
      · rintro ⟨y, others, first, later, rfl⟩
        exact ⟨y, first, others, later, rfl⟩

/-- Each item of the second list stands against one of the first. -/
theorem mem_of_forall₂ {α β : Type} {r : α → β → Prop} {xs : List α} {ys : List β}
    (related : List.Forall₂ r xs ys) {y : β} (member : y ∈ ys) : ∃ x ∈ xs, r x y := by
  induction related with
  | nil => cases member
  | cons first later ih =>
      rcases List.mem_cons.mp member with rfl | deeper
      · exact ⟨_, List.mem_cons_self, first⟩
      · obtain ⟨x, inside, found⟩ := ih deeper
        exact ⟨x, List.mem_cons_of_mem _ inside, found⟩

theorem mem_of_mapM {ε α β : Type} {f : α → Except ε β} {xs : List α} {ys : List β}
    (loops : xs.mapM f = .ok ys) {y : β} (member : y ∈ ys) : ∃ x ∈ xs, f x = .ok y :=
  mem_of_forall₂ (mapM_ok.mp loops) member

theorem map_of_forall₂ {α β γ : Type} {r : α → β → Prop} {left : α → γ} {right : β → γ}
    (keeps : ∀ x y, r x y → right y = left x) {xs : List α} {ys : List β}
    (related : List.Forall₂ r xs ys) : ys.map right = xs.map left := by
  induction related with
  | nil => rfl
  | cons first later ih => rw [List.map_cons, List.map_cons, keeps _ _ first, ih]

/-- What each round keeps of its item, the loop keeps of the list. -/
theorem map_of_mapM {ε α β γ : Type} {f : α → Except ε β} {left : α → γ} {right : β → γ}
    (keeps : ∀ x y, f x = .ok y → right y = left x) {xs : List α} {ys : List β}
    (loops : xs.mapM f = .ok ys) : ys.map right = xs.map left :=
  map_of_forall₂ keeps (mapM_ok.mp loops)

/-- Rounds whose results are left out may as well be left out themselves, when they return. -/
theorem mapM_filter {ε α β : Type} {f : α → Except ε β} {drops : α → Bool} {left : β → Bool}
    (returns : ∀ x, drops x = true → ∃ y, f x = .ok y)
    (agrees : ∀ x y, f x = .ok y → drops x = left y) (xs : List α) :
    (xs.filter fun x => !drops x).mapM f =
      (xs.mapM f).map (List.filter fun y => !left y) := by
  induction xs with
  | nil => rfl
  | cons x rest ih =>
      rw [List.mapM_cons]
      cases first : f x with
      | error e =>
          have kept : drops x = false := by
            by_contra gone
            rw [Bool.not_eq_false] at gone
            obtain ⟨y, found⟩ := returns x gone
            rw [first] at found
            cases found
          rw [List.filter_cons_of_pos (by simp [kept]), List.mapM_cons, first]
          rfl
      | ok y =>
          have same := agrees x y first
          cases later : rest.mapM f with
          | error e =>
              rw [later] at ih
              by_cases gone : drops x = true
              · simp [gone, ih, bind, Except.bind, Except.map]
              · simp [gone, first, ih, bind, Except.bind, Except.map]
          | ok ys =>
              rw [later] at ih
              by_cases gone : drops x = true
              · simp [gone, ih, bind, Except.bind, Except.map, ← same, pure, Except.pure]
              · simp [gone, first, ih, bind, Except.bind, Except.map, ← same, pure, Except.pure]

/-- A loop whose results are looked at afterwards looks at each of them in its round. -/
theorem map_mapM {ε α β γ : Type} (f : α → Except ε β) (g : β → γ) (xs : List α) :
    (xs.mapM f).map (List.map g) = xs.mapM fun x => (f x).map g := by
  induction xs with
  | nil => rfl
  | cons x rest ih =>
      rw [List.mapM_cons, List.mapM_cons, ← ih]
      cases first : f x with
      | error e => rfl
      | ok y => cases rest.mapM f <;> rfl

theorem mapM_congr_map {ε α β : Type} {f : α → Except ε β} {xs xs' : List α}
    (same : List.Forall₂ (fun x x' => f x = f x') xs xs') : xs.mapM f = xs'.mapM f := by
  induction same with
  | nil => rfl
  | cons first later ih => rw [List.mapM_cons, List.mapM_cons, first, ih]

/-- A loop returns and keeps what each of its rounds returns and keeps. -/
theorem foldlM_ok {ε α σ : Type} {f : σ → α → Except ε σ} {kept : σ → Prop} {xs : List α}
    (round : ∀ x ∈ xs, ∀ s, kept s → ∃ next, f s x = .ok next ∧ kept next) {s : σ}
    (holds : kept s) : ∃ last, xs.foldlM f s = .ok last ∧ kept last := by
  induction xs generalizing s with
  | nil => exact ⟨s, rfl, holds⟩
  | cons x rest ih =>
      obtain ⟨next, first, still⟩ := round x List.mem_cons_self s holds
      rw [List.foldlM_cons, first]
      exact ih (fun y member => round y (List.mem_cons_of_mem x member)) still

/-- A loop that returns has kept what each of its rounds keeps. -/
theorem foldlM_keeps {ε α σ : Type} {f : σ → α → Except ε σ} {P : σ → Prop} {xs : List α}
    (round : ∀ x ∈ xs, ∀ s next, f s x = .ok next → P s → P next) {s last : σ}
    (loops : xs.foldlM f s = .ok last) (holds : P s) : P last := by
  induction xs generalizing s with
  | nil =>
      cases loops
      exact holds
  | cons x rest ih =>
      rw [List.foldlM_cons, bind_ok] at loops
      obtain ⟨next, first, later⟩ := loops
      exact ih (fun y member => round y (List.mem_cons_of_mem x member)) later
        (round x List.mem_cons_self s next first holds)

/-- A loop raises what the first of its rounds raises that does not return. -/
theorem mapM_error {ε α β : Type} {f : α → Except ε β} {xs : List α} {e : ε} :
    xs.mapM f = .error e ↔ ∃ before x after, xs = before ++ x :: after ∧
      (∀ y ∈ before, ∃ z, f y = .ok z) ∧ f x = .error e := by
  induction xs with
  | nil => simp [pure, Except.pure]
  | cons first rest ih =>
      rw [List.mapM_cons, bind_error]
      constructor
      · rintro (raises | ⟨z, returns, later⟩)
        · exact ⟨[], first, rest, rfl, nofun, raises⟩
        · rw [bind_error] at later
          rcases later with raises | ⟨results, _, made⟩
          · obtain ⟨before, x, after, rfl, returned, raises⟩ := ih.mp raises
            exact ⟨first :: before, x, after, rfl,
              List.forall_mem_cons.mpr ⟨⟨z, returns⟩, returned⟩, raises⟩
          · cases made
      · rintro ⟨before, x, after, same, returned, raises⟩
        cases before with
        | nil =>
            obtain ⟨rfl, -⟩ := List.cons.inj same
            exact .inl raises
        | cons y before =>
            obtain ⟨rfl, rfl⟩ := List.cons.inj same
            rw [List.forall_mem_cons] at returned
            obtain ⟨z, returns⟩ := returned.1
            refine .inr ⟨z, returns, bind_error.mpr (.inl ?_)⟩
            exact ih.mpr ⟨before, x, after, rfl, returned.2, raises⟩

end AgreementIntelligence.Lib.Results
