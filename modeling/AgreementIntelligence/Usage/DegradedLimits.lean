import AgreementIntelligence.Lib.Dict
import AgreementIntelligence.Lib.HalfEven
import AgreementIntelligence.Usage.Ledger
import Mathlib.Data.List.Induction
import Mathlib.Data.Rat.Floor
import Mathlib.Tactic.Linarith

/-! Rate limits while Redis is unavailable. Each process counts the calls of a key in windows of its
own; a refused caller is told how long the window still lasts, to the nearest second. Readings of the
clock are exact. -/

namespace AgreementIntelligence.Usage
open Identity Lib HalfEven

structure RateLimitPolicy where
  limit : ℤ
  windowSeconds : ℤ
  expensive : Bool
deriving DecidableEq, Repr

/-- `LimitDecision` with the field that only rate limits fill -/
structure RateLimitDecision extends LimitDecision where
  retryAfterSeconds : Option ℤ
deriving DecidableEq, Repr

/-- `_fallback_windows` -/
abbrev FallbackWindows := List (String × (ℚ × ℕ))

def RateLimitPolicy.conservativeLimit (policy : RateLimitPolicy) : ℤ :=
  max 1 (min policy.limit 10)

/-- The window that a call counts in, and the calls in it so far. -/
def RateLimitPolicy.window (policy : RateLimitPolicy) (now : ℚ) (known : Option (ℚ × ℕ)) : ℚ × ℕ :=
  let (startedAt, count) := known.getD (now, 0)
  if policy.windowSeconds ≤ now - startedAt then (now, 0) else (startedAt, count)

def retryAfter (remaining : ℚ) : ℤ := max 1 (roundHalfEven remaining)

/-- `_reserve_local_fallback` -/
def reserveLocalFallback (windows : FallbackWindows) (key : String) (policy : RateLimitPolicy)
    (now : ℚ) : RateLimitDecision × FallbackWindows :=
  let (startedAt, known) := policy.window now (Dict.get? windows key)
  let count := known + 1
  let written := Dict.set windows key (startedAt, count)
  if policy.conservativeLimit < count then
    (⟨⟨false, "rate_limit_exceeded", none⟩,
      some (retryAfter (policy.windowSeconds - (now - startedAt)))⟩, written)
  else (⟨⟨true, "allowed_degraded", none⟩, none⟩, written)

def rateKey (scope : LimitScope) (operation : String) : String :=
  "rate:" ++ scope.organizationId.str ++ ":" ++ scope.workspaceId.str ++ ":" ++ scope.userId.str ++
    ":" ++ operation

/-- `reserve_rate_limit`, where Redis returns a count and a time to live or raises -/
def reserveRateLimit (windows : FallbackWindows) (redis : Except String (ℤ × ℤ))
    (scope : LimitScope) (operation : String) (policy : RateLimitPolicy) (now : ℚ) :
    RateLimitDecision × FallbackWindows :=
  match redis with
  | .error _ =>
    if policy.expensive then (⟨⟨false, "limit_service_unavailable", none⟩, some 1⟩, windows)
    else reserveLocalFallback windows (rateKey scope operation) policy now
  | .ok (count, ttl) =>
    if policy.limit < count then (⟨⟨false, "rate_limit_exceeded", none⟩, some ttl⟩, windows)
    else (⟨⟨true, "allowed", none⟩, none⟩, windows)

/-! Calls one after another -/

structure FallbackCall where
  key : String
  now : ℚ
deriving DecidableEq, Repr

section Calls
variable (policies : String → RateLimitPolicy)

/-- One call; the policy belongs to the operation that the key names. -/
def fallbackCall (windows : FallbackWindows) (call : FallbackCall) :
    RateLimitDecision × FallbackWindows :=
  reserveLocalFallback windows call.key (policies call.key) call.now

def windowsAfter (calls : List FallbackCall) : FallbackWindows :=
  calls.foldl (fun windows call => (fallbackCall policies windows call).2) []

/-- What a call is told after others. -/
def decisionAfter (before : List FallbackCall) (call : FallbackCall) : RateLimitDecision :=
  (fallbackCall policies (windowsAfter policies before) call).1

/-- The calls with what they are told, from some windows on. -/
def decisionsFrom : FallbackWindows → List FallbackCall → List (FallbackCall × RateLimitDecision)
  | _, [] => []
  | windows, call :: calls =>
    let told := fallbackCall policies windows call
    (call, told.1) :: decisionsFrom told.2 calls

def decisions (calls : List FallbackCall) : List (FallbackCall × RateLimitDecision) :=
  decisionsFrom policies [] calls

/-- The readings of the calls of a key, and whether the calls are allowed. -/
def onKey (key : String) (calls : List FallbackCall) : List (ℚ × Bool) :=
  ((decisions policies calls).filter fun entry => entry.1.key = key).map fun entry =>
    (entry.1.now, entry.2.allowed)

end Calls

/-! What is promised -/

structure LimitWindow where
  start : ℚ
  calls : List (ℚ × Bool)

/-- A window begins with its first call, holds calls of its time only and allows some of them. -/
structure LimitWindow.Fits (window : LimitWindow) (seconds : ℚ) (limit : ℤ) : Prop where
  opens : window.calls.head?.map Prod.fst = some window.start
  inside : ∀ call ∈ window.calls, window.start ≤ call.1 ∧ call.1 < window.start + seconds
  allows : ((window.calls.filter Prod.snd).length : ℤ) ≤ limit

/-- The calls fall into windows, of which none begins before the one before it is over. -/
def Windowed (seconds : ℚ) (limit : ℤ) (calls : List (ℚ × Bool)) : Prop :=
  ∃ windows : List LimitWindow, calls = windows.flatMap (·.calls) ∧
    (∀ window ∈ windows, window.Fits seconds limit) ∧
    windows.Pairwise fun window later => window.start + seconds ≤ later.start

def Ordered (calls : List FallbackCall) : Prop :=
  calls.Pairwise fun call later => call.now ≤ later.now

/-- What is left of a window is not told as less than it is. -/
def NotRoundedDown (remaining : ℚ) : Prop :=
  remaining ≤ 1 ∨ Int.fract remaining = 0 ∨ 1 / 2 < Int.fract remaining ∨
    Int.fract remaining = 1 / 2 ∧ ⌊remaining⌋ % 2 = 1

/-- Whenever a call finds no room in its window, what is left of the window is not rounded down. -/
def ExactHints (policies : String → RateLimitPolicy) (calls : List FallbackCall) : Prop :=
  ∀ before call after, calls = before ++ call :: after → ∀ startedAt count,
    Dict.get? (windowsAfter policies before) call.key = some (startedAt, count) →
    call.now - startedAt < (policies call.key).windowSeconds →
    (policies call.key).conservativeLimit ≤ count →
    NotRoundedDown ((policies call.key).windowSeconds - (call.now - startedAt))

structure KeepsWord (policies : String → RateLimitPolicy) (calls : List FallbackCall) : Prop where
  windows : ∀ key, Windowed (policies key).windowSeconds (policies key).conservativeLimit
    (onKey policies key calls)
  apart : ∀ key, (decisions policies calls).filter (fun entry => entry.1.key = key) =
    decisions policies (calls.filter fun call => call.key = key)
  promises : ∀ before call after seconds, calls = before ++ call :: after →
    (decisionAfter policies before call).retryAfterSeconds = some seconds →
    ∀ between next, Ordered (before ++ call :: (between ++ [next])) →
      (∀ other ∈ between, other.key ≠ call.key) → next.key = call.key →
      call.now + seconds ≤ next.now →
      (decisionAfter policies (before ++ call :: between) next).allowed = true

/-! One call -/

theorem one_le_conservativeLimit (policy : RateLimitPolicy) : 1 ≤ policy.conservativeLimit :=
  le_max_left ..

section Step
variable {policies : String → RateLimitPolicy}

theorem fallbackCall_eq (windows : FallbackWindows) (call : FallbackCall) :
    fallbackCall policies windows call =
      let policy := policies call.key
      let window := policy.window call.now (Dict.get? windows call.key)
      let written := Dict.set windows call.key (window.1, window.2 + 1)
      if policy.conservativeLimit < (window.2 + 1 : ℕ) then
        (⟨⟨false, "rate_limit_exceeded", none⟩,
          some (retryAfter (policy.windowSeconds - (call.now - window.1)))⟩, written)
      else (⟨⟨true, "allowed_degraded", none⟩, none⟩, written) :=
  rfl

theorem get?_fallbackCall (windows : FallbackWindows) (call : FallbackCall) (key : String) :
    Dict.get? (fallbackCall policies windows call).2 key =
      if key = call.key then
        let window := (policies call.key).window call.now (Dict.get? windows call.key)
        some (window.1, window.2 + 1)
      else Dict.get? windows key := by
  have written : (fallbackCall policies windows call).2 = Dict.set windows call.key
      (((policies call.key).window call.now (Dict.get? windows call.key)).1,
        ((policies call.key).window call.now (Dict.get? windows call.key)).2 + 1) := by
    simp only [fallbackCall_eq]
    split <;> rfl
  rw [written, Dict.get?_set]
  simp only [eq_comm]

/-- A call is allowed as long as its window counts fewer calls than its policy allows. -/
theorem allowed_fallbackCall (windows : FallbackWindows) (call : FallbackCall) :
    (fallbackCall policies windows call).1.allowed = true ↔
      (((policies call.key).window call.now (Dict.get? windows call.key)).2 : ℤ) <
        (policies call.key).conservativeLimit := by
  simp only [fallbackCall_eq]
  split
  · next above =>
      push_cast at above
      simp
      omega
  · next below =>
      push_cast at below
      simp
      omega

/-- A call that is not allowed is told the rest of its window. -/
theorem retryAfter_fallbackCall (windows : FallbackWindows) (call : FallbackCall) (seconds : ℤ) :
    (fallbackCall policies windows call).1.retryAfterSeconds = some seconds ↔
      (policies call.key).conservativeLimit ≤
          (((policies call.key).window call.now (Dict.get? windows call.key)).2 : ℤ) ∧
        seconds = retryAfter ((policies call.key).windowSeconds -
          (call.now - ((policies call.key).window call.now (Dict.get? windows call.key)).1)) := by
  simp only [fallbackCall_eq]
  split
  · next above =>
      push_cast at above
      rw [and_iff_right (by omega), Option.some_inj, eq_comm]
  · next below =>
      push_cast at below
      simp
      omega

theorem windowsAfter_concat (calls : List FallbackCall) (call : FallbackCall) :
    windowsAfter policies (calls ++ [call]) =
      (fallbackCall policies (windowsAfter policies calls) call).2 := by
  rw [windowsAfter, List.foldl_append, List.foldl_cons, List.foldl_nil, windowsAfter]

theorem decisionsFrom_concat (windows : FallbackWindows) (calls : List FallbackCall)
    (call : FallbackCall) :
    decisionsFrom policies windows (calls ++ [call]) =
      decisionsFrom policies windows calls ++
        [(call, (fallbackCall policies (calls.foldl (fun windows call =>
          (fallbackCall policies windows call).2) windows) call).1)] := by
  induction calls generalizing windows with
  | nil => rfl
  | cons first calls ih => rw [List.cons_append, decisionsFrom, ih, decisionsFrom]; rfl

theorem decisions_concat (calls : List FallbackCall) (call : FallbackCall) :
    decisions policies (calls ++ [call]) =
      decisions policies calls ++ [(call, decisionAfter policies calls call)] :=
  decisionsFrom_concat [] calls call

theorem calls_decisions (calls : List FallbackCall) :
    (decisions policies calls).map Prod.fst = calls := by
  induction calls using List.reverseRecOn with
  | nil => rfl
  | append_singleton calls call ih =>
      rw [decisions_concat, List.map_append, ih, List.map_singleton]

/-- What a call is told depends on the window of its key alone. -/
theorem fallbackCall_congr {windows others : FallbackWindows} {call : FallbackCall}
    (same : Dict.get? windows call.key = Dict.get? others call.key) :
    (fallbackCall policies windows call).1 = (fallbackCall policies others call).1 := by
  simp only [fallbackCall_eq, same]
  split <;> rfl

/-- Calls on other keys leave the window of a key alone. -/
theorem get?_windowsAfter_filter (calls : List FallbackCall) (key : String) :
    Dict.get? (windowsAfter policies (calls.filter fun call => call.key = key)) key =
      Dict.get? (windowsAfter policies calls) key := by
  induction calls using List.reverseRecOn with
  | nil => rfl
  | append_singleton calls call ih =>
      rw [List.filter_append, windowsAfter_concat, get?_fallbackCall]
      by_cases here : call.key = key
      · rw [List.filter_cons_of_pos (by simpa using here), List.filter_nil, windowsAfter_concat,
          get?_fallbackCall, if_pos here.symm, if_pos here.symm, here, ih]
      · rw [List.filter_cons_of_neg (by simpa using here), List.filter_nil, List.append_nil, ih,
          if_neg (Ne.symm here)]

/-- A key is told what it would be told if there were no other keys. -/
theorem decisions_filter (calls : List FallbackCall) (key : String) :
    (decisions policies calls).filter (fun entry => entry.1.key = key) =
      decisions policies (calls.filter fun call => call.key = key) := by
  induction calls using List.reverseRecOn with
  | nil => rfl
  | append_singleton calls call ih =>
      rw [decisions_concat, List.filter_append, List.filter_append, ih]
      by_cases here : call.key = key
      · rw [List.filter_cons_of_pos (by simpa using here), List.filter_cons_of_pos
          (by simpa using here), List.filter_nil, List.filter_nil, decisions_concat]
        congr 3
        apply fallbackCall_congr
        rw [here, get?_windowsAfter_filter]
      · rw [List.filter_cons_of_neg (by simpa using here), List.filter_cons_of_neg
          (by simpa using here), List.filter_nil, List.filter_nil, List.append_nil, List.append_nil]

end Step

/-! Windows -/

/-- What is known of a key after its calls: the last of their windows, in which as many of the calls
are allowed as the policy has room for. -/
inductive Tracked (policy : RateLimitPolicy) : Option (ℚ × ℕ) → List (ℚ × Bool) → Prop
  | idle : Tracked policy none []
  | open_ {closed : List LimitWindow} {current : LimitWindow}
      (past : ∀ window ∈ closed, window.Fits policy.windowSeconds policy.conservativeLimit ∧
        window.start + policy.windowSeconds ≤ current.start)
      (disjoint : closed.Pairwise fun (window later : LimitWindow) =>
        window.start + policy.windowSeconds ≤ later.start)
      (fits : current.Fits policy.windowSeconds policy.conservativeLimit)
      (room : ((current.calls.filter Prod.snd).length : ℤ) =
        min (current.calls.length : ℤ) policy.conservativeLimit) :
      Tracked policy (some (current.start, current.calls.length))
        (closed.flatMap (·.calls) ++ current.calls)

theorem Tracked.windowed {policy : RateLimitPolicy} {known : Option (ℚ × ℕ)}
    {log : List (ℚ × Bool)} (tracked : Tracked policy known log) :
    Windowed policy.windowSeconds policy.conservativeLimit log := by
  cases tracked with
  | idle => exact ⟨[], rfl, by simp, .nil⟩
  | @open_ closed current past disjoint fits room =>
      refine ⟨closed ++ [current], by simp, ?_, ?_⟩
      · intro window member
        rcases List.mem_append.mp member with early | last
        · exact (past window early).1
        · rw [List.mem_singleton.mp last]
          exact fits
      · rw [List.pairwise_append]
        refine ⟨disjoint, List.pairwise_singleton .., ?_⟩
        intro window early later last
        rw [List.mem_singleton.mp last]
        exact (past window early).2

/-- The first call of a window is allowed. -/
theorem fits_first {policy : RateLimitPolicy} (positive : 0 < policy.windowSeconds) (now : ℚ) :
    (⟨now, [(now, true)]⟩ : LimitWindow).Fits policy.windowSeconds policy.conservativeLimit := by
  have room := one_le_conservativeLimit policy
  have seconds : (0 : ℚ) < policy.windowSeconds := by exact_mod_cast positive
  exact ⟨rfl, by simp [seconds], by simpa using room⟩

theorem LimitWindow.Fits.first {window : LimitWindow} {seconds : ℚ} {limit : ℤ}
    (fits : window.Fits seconds limit) : ∃ call ∈ window.calls, call.1 = window.start := by
  have opens := fits.opens
  rw [Option.map_eq_some_iff] at opens
  obtain ⟨call, here, start⟩ := opens
  exact ⟨call, List.mem_of_mem_head? here, start⟩

/-- A later call of the same window is allowed as long as there is room. -/
theorem LimitWindow.Fits.concat {window : LimitWindow} {seconds : ℚ} {limit : ℤ}
    (fits : window.Fits seconds limit)
    (room : ((window.calls.filter Prod.snd).length : ℤ) = min (window.calls.length : ℤ) limit)
    {now : ℚ} (begun : window.start ≤ now) (open_ : now < window.start + seconds) :
    let next : LimitWindow :=
      ⟨window.start, window.calls ++ [(now, decide ((window.calls.length : ℤ) < limit))]⟩
    next.Fits seconds limit ∧
      ((next.calls.filter Prod.snd).length : ℤ) = min (next.calls.length : ℤ) limit := by
  intro next
  have counted : ((next.calls.filter Prod.snd).length : ℤ) = min (next.calls.length : ℤ) limit := by
    rw [List.filter_append, List.length_append, List.length_append, Nat.cast_add, Nat.cast_add, room,
      List.length_singleton]
    by_cases free : (window.calls.length : ℤ) < limit
    · rw [decide_eq_true free, List.filter_cons_of_pos rfl, List.filter_nil, List.length_singleton]
      omega
    · rw [decide_eq_false free, List.filter_cons_of_neg (by simp), List.filter_nil, List.length_nil]
      omega
  refine ⟨⟨?_, ?_, ?_⟩, counted⟩
  · obtain ⟨call, member, -⟩ := fits.first
    rw [List.head?_append_of_ne_nil _ (List.ne_nil_of_mem member)]
    exact fits.opens
  · intro call member
    rcases List.mem_append.mp member with early | last
    · exact fits.inside call early
    · rw [List.mem_singleton.mp last]
      exact ⟨begun, open_⟩
  · rw [counted]
    exact min_le_right ..

theorem Tracked.call {policy : RateLimitPolicy} (positive : 0 < policy.windowSeconds)
    {known : Option (ℚ × ℕ)} {log : List (ℚ × Bool)} (tracked : Tracked policy known log) {now : ℚ}
    (later : ∀ entry ∈ log, entry.1 ≤ now) :
    Tracked policy (some ((policy.window now known).1, (policy.window now known).2 + 1))
      (log ++ [(now, decide (((policy.window now known).2 : ℤ) < policy.conservativeLimit))]) := by
  have least := one_le_conservativeLimit policy
  have seconds : (0 : ℚ) < policy.windowSeconds := by exact_mod_cast positive
  have first : decide (((0 : ℕ) : ℤ) < policy.conservativeLimit) = true := by
    rw [decide_eq_true_eq]
    omega
  cases tracked with
  | idle =>
      have here : policy.window now none = (now, 0) := by
        rw [RateLimitPolicy.window]
        simp
      rw [here, first]
      exact @open_ policy [] ⟨now, [(now, true)]⟩ (by simp) .nil (fits_first positive now)
        (by simp; omega)
  | @open_ closed current past disjoint fits room =>
      by_cases ended : (policy.windowSeconds : ℚ) ≤ now - current.start
      · -- the window is over, and the call begins the next one
        have here : policy.window now (some (current.start, current.calls.length)) = (now, 0) := by
          rw [RateLimitPolicy.window]
          exact if_pos ended
        rw [here, first]
        have again : closed.flatMap (·.calls) ++ current.calls =
            (closed ++ [current]).flatMap (·.calls) := by simp
        rw [again]
        refine @open_ policy (closed ++ [current]) ⟨now, [(now, true)]⟩ ?_ ?_
          (fits_first positive now) (by simp; omega)
        · intro window member
          rcases List.mem_append.mp member with early | last
          · have facts := past window early
            refine ⟨facts.1, ?_⟩
            have bound := facts.2
            dsimp only
            linarith
          · rw [List.mem_singleton.mp last]
            refine ⟨fits, ?_⟩
            dsimp only
            linarith
        · rw [List.pairwise_append]
          refine ⟨disjoint, List.pairwise_singleton .., ?_⟩
          intro window early other last
          rw [List.mem_singleton.mp last]
          exact (past window early).2
      · have here : policy.window now (some (current.start, current.calls.length)) =
            (current.start, current.calls.length) := by
          rw [RateLimitPolicy.window]
          exact if_neg ended
        rw [here, List.append_assoc]
        obtain ⟨call, member, start⟩ := fits.first
        have begun : current.start ≤ now := start ▸ later call (by simp [member])
        obtain ⟨next, counted⟩ := fits.concat room begun (by linarith)
        have tracked := @Tracked.open_ policy closed ⟨current.start, current.calls ++
          [(now, decide ((current.calls.length : ℤ) < policy.conservativeLimit))]⟩ past disjoint
          next counted
        rwa [List.length_append, List.length_singleton] at tracked

section Runs
variable {policies : String → RateLimitPolicy}

theorem onKey_concat (key : String) (calls : List FallbackCall) (call : FallbackCall) :
    onKey policies key (calls ++ [call]) = onKey policies key calls ++
      if call.key = key then [(call.now, (decisionAfter policies calls call).allowed)] else [] := by
  rw [onKey, decisions_concat, List.filter_append, List.map_append, ← onKey]
  by_cases here : call.key = key <;> simp [here]

/-- The calls of every key are tracked by its window. -/
theorem tracked_onKey (positive : ∀ key, 0 < (policies key).windowSeconds)
    {calls : List FallbackCall} (ordered : Ordered calls) (key : String) :
    Tracked (policies key) (Dict.get? (windowsAfter policies calls) key)
      (onKey policies key calls) := by
  induction calls using List.reverseRecOn with
  | nil => exact .idle
  | append_singleton calls call ih =>
      rw [Ordered, List.pairwise_append] at ordered
      have tracked := ih ordered.1
      rw [onKey_concat, windowsAfter_concat, get?_fallbackCall]
      by_cases here : call.key = key
      · have told : (decisionAfter policies calls call).allowed =
            decide ((((policies call.key).window call.now
              (Dict.get? (windowsAfter policies calls) call.key)).2 : ℤ) <
                (policies call.key).conservativeLimit) := by
          rw [Bool.eq_iff_iff, decide_eq_true_eq]
          exact allowed_fallbackCall ..
        rw [if_pos here.symm, if_pos here, told, here]
        apply tracked.call (positive key)
        intro entry member
        rw [onKey, List.mem_map] at member
        obtain ⟨record, among, rfl⟩ := member
        have early : record.1 ∈ calls := by
          have recorded := (List.mem_filter.mp among).1
          rw [← calls_decisions calls]
          exact List.mem_map_of_mem recorded
        exact ordered.2.2 _ early call List.mem_cons_self
      · rw [if_neg (Ne.symm here), if_neg here, List.append_nil]
        exact tracked

theorem le_retryAfter_iff (remaining : ℚ) :
    remaining ≤ retryAfter remaining ↔ NotRoundedDown remaining := by
  rw [retryAfter, Int.cast_max, le_max_iff, le_roundHalfEven_iff, Int.cast_one, NotRoundedDown]

/-- A refused call has found no room in the window that its key is known by. -/
theorem window_of_refused {windows : FallbackWindows} {call : FallbackCall} {seconds : ℤ}
    (refused : (fallbackCall policies windows call).1.retryAfterSeconds = some seconds) :
    ∃ startedAt count, Dict.get? windows call.key = some (startedAt, count) ∧
      call.now - startedAt < (policies call.key).windowSeconds ∧
      (policies call.key).conservativeLimit ≤ count ∧
      seconds = retryAfter ((policies call.key).windowSeconds - (call.now - startedAt)) := by
  have least := one_le_conservativeLimit (policies call.key)
  obtain ⟨full, told⟩ := (retryAfter_fallbackCall windows call seconds).mp refused
  cases known : Dict.get? windows call.key with
  | none =>
      have empty : ((policies call.key).window call.now none).2 = 0 := by
        simp only [RateLimitPolicy.window]
        split <;> rfl
      rw [known, empty] at full
      omega
  | some window =>
      rw [known, RateLimitPolicy.window] at full told
      dsimp only [Option.getD_some] at full told
      split at full
      · simp at full
        omega
      · next here =>
          rw [if_neg here] at told
          exact ⟨window.1, window.2, rfl, not_le.mp here, full, told⟩

/-- The window of a full key at a call that is refused, and at the calls behind it. -/
theorem get?_windowsAfter_refused {before between : List FallbackCall} {call : FallbackCall}
    {startedAt : ℚ} {count : ℕ}
    (known : Dict.get? (windowsAfter policies before) call.key = some (startedAt, count))
    (within : call.now - startedAt < (policies call.key).windowSeconds)
    (others : ∀ other ∈ between, other.key ≠ call.key) :
    Dict.get? (windowsAfter policies (before ++ call :: between)) call.key =
      some (startedAt, count + 1) := by
  induction between using List.reverseRecOn with
  | nil =>
      have window : (policies call.key).window call.now (some (startedAt, count)) =
          (startedAt, count) := if_neg (not_le.mpr within)
      rw [windowsAfter_concat, get?_fallbackCall, if_pos rfl, known, window]
  | append_singleton between last ih =>
      have apart := others last (by simp)
      rw [← List.cons_append, ← List.append_assoc, windowsAfter_concat, get?_fallbackCall,
        if_neg (Ne.symm apart)]
      exact ih fun other member => others other (by simp [member])

/-- A call on a full key is allowed once its window is over, and not before. -/
theorem allowed_next {windows : FallbackWindows} {next : FallbackCall} {startedAt : ℚ} {count : ℕ}
    (known : Dict.get? windows next.key = some (startedAt, count))
    (full : (policies next.key).conservativeLimit ≤ count) :
    (fallbackCall policies windows next).1.allowed = true ↔
      (policies next.key).windowSeconds ≤ next.now - startedAt := by
  have least := one_le_conservativeLimit (policies next.key)
  rw [allowed_fallbackCall, known, RateLimitPolicy.window]
  dsimp only [Option.getD_some]
  split
  · next ended => simp [ended]; omega
  · next here => simp [here]; omega

theorem ordered_next {before after : List FallbackCall} {call : FallbackCall} {remaining : ℚ}
    {seconds : ℤ} (ordered : Ordered (before ++ call :: after))
    (hint : retryAfter remaining = seconds) :
    Ordered (before ++ call :: ([] ++ [⟨call.key, call.now + seconds⟩])) := by
  have least : (1 : ℚ) ≤ seconds := by
    rw [← hint]
    exact_mod_cast le_max_left 1 _
  rw [Ordered, List.pairwise_append, List.pairwise_cons] at ordered ⊢
  obtain ⟨early, -, across⟩ := ordered
  refine ⟨early, ⟨?_, List.pairwise_singleton ..⟩, ?_⟩
  · intro later member
    rw [List.nil_append, List.mem_singleton] at member
    rw [member]
    dsimp only
    linarith
  · intro earlier inside later member
    have bound := across earlier inside call List.mem_cons_self
    rcases List.mem_cons.mp member with rfl | last
    · exact bound
    · rw [List.nil_append, List.mem_singleton] at last
      rw [last]
      dsimp only
      linarith

/-- The degraded limiter keeps its word exactly where no refused caller is told less than what is left
of its window. -/
theorem keepsWord_iff {calls : List FallbackCall}
    (positive : ∀ key, 0 < (policies key).windowSeconds) (ordered : Ordered calls) :
    KeepsWord policies calls ↔ ExactHints policies calls := by
  constructor
  · rintro kept before call after rfl startedAt count known within full
    have window : (policies call.key).window call.now (some (startedAt, count)) =
        (startedAt, count) := if_neg (not_le.mpr within)
    have refused : (decisionAfter policies before call).retryAfterSeconds =
        some (retryAfter ((policies call.key).windowSeconds - (call.now - startedAt))) := by
      apply (retryAfter_fallbackCall _ _ _).mpr
      rw [known, window]
      exact ⟨full, rfl⟩
    generalize hint : retryAfter ((policies call.key).windowSeconds - (call.now - startedAt)) =
      seconds at refused
    -- the caller comes back at the very second it was told
    have allowed := kept.promises before call after seconds rfl refused []
      ⟨call.key, call.now + seconds⟩ (ordered_next ordered hint) (by simp) rfl le_rfl
    have here := get?_windowsAfter_refused known within (List.forall_mem_nil _)
    have ended := (@allowed_next policies _ ⟨call.key, call.now + seconds⟩ _ _ here
      (by push_cast; omega)).mp allowed
    rw [← le_retryAfter_iff, hint]
    dsimp only at ended
    linarith
  · intro exact_
    refine ⟨fun key => (tracked_onKey positive ordered key).windowed, decisions_filter calls, ?_⟩
    rintro before call after seconds rfl refused between next - others same later
    obtain ⟨startedAt, count, known, within, full, told⟩ := window_of_refused refused
    have enough := (le_retryAfter_iff _).mpr
      (exact_ before call after rfl startedAt count known within full)
    rw [← told] at enough
    have here := get?_windowsAfter_refused known within others
    rw [← same] at here full enough
    apply (allowed_next here (by push_cast; omega)).mpr
    linarith

end Runs

/-! A window of sixty seconds with room for one call -/

def narrowPolicy : RateLimitPolicy := ⟨1, 60, false⟩

/-- The second caller is refused 1.4 seconds before the end of the window. -/
def narrowCalls : List FallbackCall := [⟨"rate:search", 0⟩, ⟨"rate:search", 293 / 5⟩]

theorem keepsWord_iff_narrow :
    KeepsWord (fun _ => narrowPolicy) narrowCalls ↔
      ExactHints (fun _ => narrowPolicy) narrowCalls :=
  keepsWord_iff (fun _ => by decide) (by simp [Ordered, narrowCalls]; norm_num)

/-- That caller is told one second, and comes back to a window that is not over. -/
theorem not_keepsWord : ¬ KeepsWord (fun _ => narrowPolicy) narrowCalls := by
  intro kept
  have allowed := kept.promises [⟨"rate:search", 0⟩] ⟨"rate:search", 293 / 5⟩ [] 1 rfl
    (by decide +kernel) [] ⟨"rate:search", 298 / 5⟩ (by simp [Ordered]; norm_num) (by simp) rfl
    (by norm_num)
  revert allowed
  decide +kernel

/-! Requests -/

structure RateRequest where
  scope : LimitScope
  operation : String
  now : ℚ

def RateRequest.call (request : RateRequest) : FallbackCall :=
  ⟨rateKey request.scope request.operation, request.now⟩

/-- The requests with what they are told while Redis raises; the policy belongs to the key. -/
def requestDecisions (policies : String → RateLimitPolicy) :
    FallbackWindows → List RateRequest → List (RateRequest × RateLimitDecision)
  | _, [] => []
  | windows, request :: requests =>
    let told := reserveRateLimit windows (.error "unavailable") request.scope request.operation
      (policies request.call.key) request.now
    (request, told.1) :: requestDecisions policies told.2 requests

/-- Only requests that are not expensive reach the degraded limiter, and it sees no others. -/
theorem requestDecisions_degraded (policies : String → RateLimitPolicy) (windows : FallbackWindows)
    (requests : List RateRequest) :
    ((requestDecisions policies windows requests).filter fun entry =>
        !(policies entry.1.call.key).expensive).map (fun entry => (entry.1.call, entry.2)) =
      decisionsFrom policies windows
        ((requests.filter fun request => !(policies request.call.key).expensive).map
          RateRequest.call) := by
  induction requests generalizing windows with
  | nil => rfl
  | cons request requests ih =>
      cases dear : (policies request.call.key).expensive with
      | true =>
          rw [requestDecisions, List.filter_cons_of_neg (by simp [dear]),
            List.filter_cons_of_neg (by simp [dear]), ← ih]
          simp [reserveRateLimit, dear]
      | false =>
          have told : reserveRateLimit windows (.error "unavailable") request.scope
              request.operation (policies request.call.key) request.now =
                fallbackCall policies windows request.call := by
            rw [reserveRateLimit]
            exact if_neg (by simp [dear])
          rw [requestDecisions, told, List.filter_cons_of_pos (by simp [dear]),
            List.filter_cons_of_pos (by simp [dear]), List.map_cons, List.map_cons, decisionsFrom, ih]

end AgreementIntelligence.Usage
