import Mathlib.Data.List.Basic
import Mathlib.Tactic.Common

/-! Runs of a machine given by a total step function. An input that the machine cannot
take, or a call that raises, is a step that leaves the state where it is, so a run is a
left fold over the inputs. The rules here turn a fact about one step into a fact about
every run, and a fact that appears during a run into the step at which it appears. -/

namespace AgreementIntelligence.Lib.Runs

variable {σ ι : Type*}

/-- The state after taking the inputs in order. -/
def run (step : σ → ι → σ) (s : σ) (inputs : List ι) : σ :=
  inputs.foldl step s

variable {step : σ → ι → σ} {s : σ} {inputs : List ι}

@[simp] theorem run_nil (step : σ → ι → σ) (s : σ) : run step s [] = s := rfl

@[simp] theorem run_cons (step : σ → ι → σ) (s : σ) (i : ι) (rest : List ι) :
    run step s (i :: rest) = run step (step s i) rest := rfl

theorem run_append (step : σ → ι → σ) (s : σ) (first second : List ι) :
    run step s (first ++ second) = run step (run step s first) second :=
  List.foldl_append

theorem run_concat (step : σ → ι → σ) (s : σ) (inputs : List ι) (last : ι) :
    run step s (inputs ++ [last]) = step (run step s inputs) last := by
  rw [run_append, run_cons, run_nil]

/-- What holds at the start and is kept by every step whose input meets `C` holds after
every run of such inputs. -/
theorem run_invariant_of (C : ι → Prop) (P : σ → Prop) (start : P s)
    (keeps : ∀ s i, C i → P s → P (step s i)) (meets : ∀ i ∈ inputs, C i) :
    P (run step s inputs) := by
  induction inputs generalizing s with
  | nil => exact start
  | cons i rest ih =>
      rw [run_cons]
      refine ih (keeps s i (meets i ?_) start) fun j hj => meets j ?_
      · exact List.mem_cons_self
      · exact List.mem_cons_of_mem i hj

theorem run_invariant (P : σ → Prop) (start : P s) (keeps : ∀ s i, P s → P (step s i)) :
    P (run step s inputs) :=
  run_invariant_of (fun _ => True) P start (fun s i _ => keeps s i) fun _ _ => trivial

/-- What holds at the start and is kept by every step taken where `C` holds, holds after every
run that meets `C` at each of its steps. -/
theorem run_invariant_along (C : σ → ι → Prop) (P : σ → Prop) (start : P s)
    (keeps : ∀ s i, C s i → P s → P (step s i))
    (meets : ∀ pre i post, inputs = pre ++ i :: post → C (run step s pre) i) :
    P (run step s inputs) := by
  induction inputs generalizing s with
  | nil => exact start
  | cons i rest ih =>
      have here : P (step s i) := keeps s i (meets [] i rest rfl) start
      refine ih here fun pre j post split => ?_
      exact meets (i :: pre) j post (by rw [split, List.cons_append])

/-- A run meets `C` at each of its steps; this form evaluates. -/
def meetsAlong (step : σ → ι → σ) (C : σ → ι → Prop) : σ → List ι → Prop
  | _, [] => True
  | s, i :: rest => C s i ∧ meetsAlong step C (step s i) rest

instance meetsAlong.decidable (step : σ → ι → σ) (C : σ → ι → Prop) [∀ s i, Decidable (C s i)] :
    ∀ (s : σ) (inputs : List ι), Decidable (meetsAlong step C s inputs)
  | _, [] => inferInstanceAs (Decidable True)
  | s, i :: rest =>
    have := meetsAlong.decidable step C (step s i) rest
    inferInstanceAs (Decidable (_ ∧ _))

theorem meetsAlong_iff {C : σ → ι → Prop} : meetsAlong step C s inputs ↔
    ∀ pre i post, inputs = pre ++ i :: post → C (run step s pre) i := by
  induction inputs generalizing s with
  | nil => simp [meetsAlong]
  | cons first rest ih =>
      rw [meetsAlong, ih]
      constructor
      · rintro ⟨here, later⟩ pre i post split
        cases pre with
        | nil =>
            cases split
            exact here
        | cons other pre =>
            cases split
            exact later pre i post rfl
      · intro each
        refine ⟨each [] first rest rfl, fun pre i post split => ?_⟩
        exact each (first :: pre) i post (by rw [split, List.cons_append])

/-- Two conditions that agree wherever an invariant and a side condition of the run hold are
met along the same runs, when the invariant is kept by the steps that meet them. -/
theorem meetsAlong_congr {P : σ → Prop} {E C D : σ → ι → Prop} (start : P s)
    (side : ∀ pre i post, inputs = pre ++ i :: post → E (run step s pre) i)
    (same : ∀ s i, P s → E s i → (C s i ↔ D s i))
    (keeps : ∀ s i, P s → E s i → C s i → P (step s i)) :
    meetsAlong step C s inputs ↔ meetsAlong step D s inputs := by
  induction inputs generalizing s with
  | nil => exact Iff.rfl
  | cons i rest ih =>
      have here : E s i := side [] i rest rfl
      rw [meetsAlong, meetsAlong, ← same s i start here]
      refine and_congr_right fun met => ?_
      refine ih (keeps s i start here met) fun pre j post split => ?_
      exact side (i :: pre) j post (by rw [split, List.cons_append])

/-- A relation between states that is reflexive, transitive and spans every step spans
every run; `P` is an invariant the step may rely on. -/
theorem run_relates {P : σ → Prop} {R : σ → σ → Prop} (refl : ∀ s, R s s)
    (trans : ∀ {a b c}, R a b → R b c → R a c) (start : P s)
    (keeps : ∀ s i, P s → P (step s i)) (spans : ∀ s i, P s → R s (step s i)) :
    R s (run step s inputs) := by
  induction inputs generalizing s with
  | nil => exact refl s
  | cons i rest ih => exact trans (spans s i start) (ih (keeps s i start))

/-- A property that does not hold at the start and holds at the end of a run begins to hold
at one of its steps. -/
theorem exists_step_of_begins (P : σ → Prop) (before : ¬ P s) (after : P (run step s inputs)) :
    ∃ pre i post, inputs = pre ++ i :: post ∧ ¬ P (run step s pre) ∧
      P (step (run step s pre) i) := by
  induction inputs generalizing s with
  | nil => exact absurd after before
  | cons i rest ih =>
      by_cases now : P (step s i)
      · exact ⟨[], i, rest, rfl, before, now⟩
      · obtain ⟨pre, j, post, split, low, high⟩ := ih now after
        exact ⟨i :: pre, j, post, by rw [split, List.cons_append], low, high⟩

/-- The start states of a machine together with everything its runs lead to. -/
def Reachable (step : σ → ι → σ) (init : σ → Prop) (s : σ) : Prop :=
  ∃ s₀ inputs, init s₀ ∧ run step s₀ inputs = s

theorem Reachable.invariant {init P : σ → Prop} (reached : Reachable step init s)
    (start : ∀ s, init s → P s) (keeps : ∀ s i, P s → P (step s i)) : P s := by
  obtain ⟨s₀, inputs, begins, rfl⟩ := reached
  exact run_invariant P (start s₀ begins) keeps

end AgreementIntelligence.Lib.Runs
