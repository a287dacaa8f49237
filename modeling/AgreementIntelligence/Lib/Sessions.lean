import Mathlib.Data.List.Basic

/-! Programs that talk through an ORM session to a database with row-level security. The scope of
a transaction decides which rows a statement sees, and a commit or a rollback clears it and expires
every object loaded before. Whatever is sent meets the database as other sessions have left it by
then, and may be refused, so that one program has a run for every course of events around it. -/

namespace AgreementIntelligence.Lib.Sessions

/-- A database of which a transaction sees the rows of its scope. -/
class Scoped (δ : Type) (ω : outParam Type) where
  visible : Option ω → δ → δ

/-- How a statement is refused: by a unique or foreign key, or otherwise. -/
inductive Refusal where
  | integrity
  | other
  deriving DecidableEq, Repr

/-- What the next thing sent meets. -/
structure Moment (δ : Type) where
  database : δ
  refusal : Option Refusal

/-- A row to insert or to update, by its table and the scope that it belongs to. -/
structure Write (ω τ : Type) where
  table : τ
  owner : ω
  deriving DecidableEq, Repr

inductive Sent (ω τ : Type) where
  | setScope (scope : ω)
  | read (scope : Option ω) (tables : List τ)
  | write (scope : Option ω) (row : Write ω τ) (refusal : Option Refusal)
  | commit
  | rollback
  deriving DecidableEq, Repr

structure Session (ω τ δ : Type) where
  moments : Nat → Moment δ
  scope : Option ω
  transaction : Nat
  pending : List (Write ω τ)
  log : List (Sent ω τ)

inductive Failure (ε : Type) where
  | integrityError
  | databaseError
  | objectDeleted
  | raised (error : ε)
  deriving DecidableEq, Repr

def Refusal.failure {ε : Type} : Refusal → Failure ε
  | .integrity => .integrityError
  | .other => .databaseError

variable {ω τ δ ε α β ρ : Type}

namespace Session

/-- A session in a transaction of some scope that has nothing to send yet. -/
def opened (moments : Nat → Moment δ) (scope : Option ω) : Session ω τ δ :=
  ⟨moments, scope, 0, [], []⟩

def now (session : Session ω τ δ) : Moment δ := session.moments session.log.length

def send (session : Session ω τ δ) (sent : Sent ω τ) : Session ω τ δ :=
  { session with log := session.log ++ [sent] }

/-- The transaction is over: its scope is cleared and nothing stays pending. -/
def ended (session : Session ω τ δ) : Session ω τ δ :=
  { session with scope := none, transaction := session.transaction + 1, pending := [] }

end Session

def Program (ω τ δ ε α : Type) := Session ω τ δ → Except (Failure ε) α × Session ω τ δ

namespace Program

instance : Monad (Program ω τ δ ε) where
  pure value session := (.ok value, session)
  bind program next session :=
    match program session with
    | (.ok value, after) => next value after
    | (.error failure, after) => (.error failure, after)

theorem bind_run (program : Program ω τ δ ε α) (next : α → Program ω τ δ ε β)
    (session : Session ω τ δ) : (program >>= next) session =
      match program session with
      | (.ok value, after) => next value after
      | (.error failure, after) => (.error failure, after) := rfl

def fail (failure : Failure ε) : Program ω τ δ ε α := fun session => (.error failure, session)

def raise (error : ε) : Program ω τ δ ε α := fail (.raised error)

/-- `try`: what the program comes to, a failure included. -/
def attempt (program : Program ω τ δ ε α) : Program ω τ δ ε (Except (Failure ε) α) :=
  fun session => (.ok (program session).1, (program session).2)

/-- An `INSERT` or `UPDATE` that the next flush sends. -/
def add (table : τ) (owner : ω) : Program ω τ δ ε Unit :=
  fun session => (.ok (), { session with pending := session.pending ++ [⟨table, owner⟩] })

variable [DecidableEq ω]

/-- The policy of a table lets a transaction write rows of its own scope only. -/
def refusalOf (session : Session ω τ δ) (row : Write ω τ) : Option Refusal :=
  if session.scope = some row.owner then session.now.refusal else some .other

/-- A refused flush rolls its transaction back. -/
def flushEach : List (Write ω τ) → Program ω τ δ ε Unit
  | [], session => (.ok (), { session with pending := [] })
  | row :: rest, session =>
    match refusalOf session row with
    | none => flushEach rest (session.send (.write session.scope row none))
    | some refusal =>
      (.error refusal.failure, (session.send (.write session.scope row (some refusal))).ended)

def flush : Program ω τ δ ε Unit := fun session => flushEach session.pending session

theorem flush_single {session : Session ω τ δ} {row : Write ω τ}
    (single : session.pending = [row]) :
    (flush : Program ω τ δ ε Unit) session =
      match refusalOf session row with
      | none => (.ok (), { session.send (.write session.scope row none) with pending := [] })
      | some refusal =>
        (.error refusal.failure, (session.send (.write session.scope row (some refusal))).ended) := by
  rw [flush, single, flushEach]
  cases refusalOf session row <;> rfl

def setScope (scope : ω) : Program ω τ δ ε Unit := fun session =>
  match session.now.refusal with
  | none => (.ok (), { session.send (.setScope scope) with scope := some scope })
  | some _ => (.error .databaseError, session.send (.setScope scope))

def sendCommit : Program ω τ δ ε Unit := fun session =>
  match session.now.refusal with
  | none => (.ok (), (session.send .commit).ended)
  | some refusal => (.error refusal.failure, (session.send .rollback).ended)

def commit : Program ω τ δ ε Unit := do
  flush
  sendCommit

def rollback : Program ω τ δ ε Unit := fun session => (.ok (), (session.send .rollback).ended)

variable [Scoped δ ω]

def read (tables : List τ) (query : δ → α) : Program ω τ δ ε α := fun session =>
  match session.now.refusal with
  | none =>
    (.ok (query (Scoped.visible session.scope session.now.database)),
      session.send (.read session.scope tables))
  | some _ => (.error .databaseError, session.send (.read session.scope tables))

/-- A query; what is pending is flushed before it. -/
def select (tables : List τ) (query : δ → α) : Program ω τ δ ε α := do
  flush
  read tables query

theorem select_of_settled {tables : List τ} {query : δ → α} {session : Session ω τ δ}
    (nothing : session.pending = []) :
    (select tables query : Program ω τ δ ε α) session = read tables query session := by
  rw [select, bind_run]
  have flushed : (flush : Program ω τ δ ε Unit) session = (.ok (), session) := by
    rw [flush, nothing, flushEach, ← nothing]
  rw [flushed]

/-- An `UPDATE` of its own, with the number of rows it finds. -/
def execute (table : τ) (owner : ω) (count : δ → Nat) : Program ω τ δ ε Nat := do
  flush
  fun session =>
    match session.now.refusal with
    | none =>
      (.ok (count (Scoped.visible session.scope session.now.database)),
        session.send (.write session.scope ⟨table, owner⟩ none))
    | some refusal =>
      (.error refusal.failure, session.send (.write session.scope ⟨table, owner⟩ (some refusal)))

/-- An object and the transaction that has loaded it. -/
structure Loaded (ρ : Type) where
  value : ρ
  transaction : Nat

def load (value : ρ) : Program ω τ δ ε (Loaded ρ) :=
  fun session => (.ok ⟨value, session.transaction⟩, session)

/-- The attributes of an object: an expired one is selected again by its key. -/
def attributes (object : Loaded ρ) (table : τ) (byKey : δ → Option ρ) : Program ω τ δ ε ρ :=
  fun session =>
    if object.transaction = session.transaction then (.ok object.value, session)
    else
      (do match ← select [table] byKey with
          | none => fail .objectDeleted
          | some value => pure value) session

end Program

/-! What a program sends -/

open Program

/-- The session has sent only what `p` admits, and so it will when it flushes in the scope; where
it is `scoped`, its transaction is in the scope. -/
structure Holds (p : Sent ω τ → Prop) (scope : ω) (inside : Bool) (session : Session ω τ δ) :
    Prop where
  log : ∀ sent ∈ session.log, p sent
  pending : ∀ row ∈ session.pending, ∀ refusal, p (.write (some scope) row refusal)
  scope : inside = true → session.scope = some scope

/-- What a program comes to that was started in the transaction `since`: whether it has returned or
failed, only what `p` admits was sent; if it has returned, then with a value as `post` says, and if
`after`, in the scope. -/
structure Ends (p : Sent ω τ → Prop) (scope : ω) (since : Nat) (after : Bool) (post : α → Prop)
    (outcome : Except (Failure ε) α × Session ω τ δ) : Prop where
  later : since ≤ outcome.2.transaction
  sent : Holds p scope false outcome.2
  returned : ∀ value, outcome.1 = .ok value → Holds p scope after outcome.2 ∧ post value

/-- The program sends only what `p` admits; it starts in the scope if `before`, and returns in it
if `after`. -/
def Sends (p : Sent ω τ → Prop) (scope : ω) (before : Bool) (program : Program ω τ δ ε α)
    (after : Bool) (post : α → Prop) : Prop :=
  ∀ session, Holds p scope before session →
    Ends p scope session.transaction after post (program session)

variable {p : Sent ω τ → Prop} {scope : ω} {before middle after : Bool}
  {program : Program ω τ δ ε α} {next : α → Program ω τ δ ε β} {post : α → Prop}

namespace Holds

variable {session : Session ω τ δ} {inside : Bool} {sent : Sent ω τ}

theorem any (holds : Holds p scope inside session) : Holds p scope false session :=
  ⟨holds.log, holds.pending, nofun⟩

theorem opened (moments : Nat → Moment δ) :
    Holds p scope true (Session.opened moments (some scope)) :=
  ⟨nofun, nofun, fun _ => rfl⟩

theorem opened_any (moments : Nat → Moment δ) (given : Option ω) :
    Holds p scope false (Session.opened moments given) :=
  ⟨nofun, nofun, nofun⟩

theorem log_send (holds : Holds p scope inside session) (admitted : p sent) :
    ∀ old ∈ (session.send sent).log, p old := by
  intro old member
  rw [Session.send, List.mem_append, List.mem_singleton] at member
  cases member with
  | inl earlier => exact holds.log old earlier
  | inr now => exact now ▸ admitted

theorem send (holds : Holds p scope inside session) (admitted : p sent) :
    Holds p scope inside (session.send sent) :=
  ⟨holds.log_send admitted, holds.pending, holds.scope⟩

theorem ended (holds : Holds p scope inside session) : Holds p scope false session.ended :=
  ⟨holds.log, nofun, nofun⟩

end Holds

namespace Sends

theorem pure {value : α} (right : post value) :
    Sends p scope before (Pure.pure value : Program ω τ δ ε α) before post := by
  intro session holds
  refine ⟨Nat.le.refl, holds.any, fun returned same => ⟨holds, ?_⟩⟩
  cases same
  exact right

theorem fail {failure : Failure ε} :
    Sends p scope before (Program.fail failure : Program ω τ δ ε α) after post :=
  fun _ holds => ⟨Nat.le.refl, holds.any, nofun⟩

theorem raise {error : ε} :
    Sends p scope before (Program.raise error : Program ω τ δ ε α) after post :=
  fail

theorem bind {mid : α → Prop} {post : β → Prop} (first : Sends p scope before program middle mid)
    (second : ∀ value, mid value → Sends p scope middle (next value) after post) :
    Sends p scope before (program >>= next) after post := by
  intro session holds
  have once := first session holds
  change Ends p scope session.transaction after post (match program session with
    | (.ok value, after) => next value after
    | (.error failure, after) => (.error failure, after))
  match ran : program session with
  | (.ok value, there) =>
      rw [ran] at once
      have returned := once.returned value rfl
      have rest := second value returned.2 there returned.1
      exact ⟨Nat.le_trans once.later rest.later, rest.sent, rest.returned⟩
  | (.error failure, there) =>
      rw [ran] at once
      exact ⟨once.later, once.sent, nofun⟩

theorem attempt {mid : α → Prop} {next : Except (Failure ε) α → Program ω τ δ ε β}
    {post : β → Prop} (first : Sends p scope before program middle mid)
    (returned : ∀ value, mid value → Sends p scope middle (next (.ok value)) after post)
    (failed : ∀ failure, Sends p scope false (next (.error failure)) after post) :
    Sends p scope before (Program.attempt program >>= next) after post := by
  intro session holds
  have once := first session holds
  change Ends p scope session.transaction after post (next (program session).1 (program session).2)
  cases ran : (program session).1 with
  | ok value =>
      have right := once.returned value ran
      have rest := returned value right.2 _ right.1
      exact ⟨Nat.le_trans once.later rest.later, rest.sent, rest.returned⟩
  | error failure =>
      have rest := failed failure _ once.sent
      exact ⟨Nat.le_trans once.later rest.later, rest.sent, rest.returned⟩

/-- Where the scope is not needed any more. -/
theorem leave (sends : Sends p scope before program after post) :
    Sends p scope before program false post := by
  intro session holds
  have ends := sends session holds
  refine ⟨ends.later, ends.sent, fun value returned => ?_⟩
  have right := ends.returned value returned
  exact ⟨right.1.any, right.2⟩

theorem ite {c : Prop} [Decidable c] {yes no : Program ω τ δ ε α}
    (ifTrue : c → Sends p scope before yes after post)
    (ifFalse : ¬ c → Sends p scope before no after post) :
    Sends p scope before (if c then yes else no) after post := by
  split
  · exact ifTrue ‹_›
  · exact ifFalse ‹_›

theorem add {table : τ} {owner : ω}
    (admitted : ∀ refusal, p (.write (some scope) ⟨table, owner⟩ refusal)) :
    Sends p scope before (Program.add table owner : Program ω τ δ ε Unit) before fun _ => True := by
  intro session holds
  have pending : ∀ row ∈ session.pending ++ [⟨table, owner⟩], ∀ refusal,
      p (.write (some scope) row refusal) := by
    intro row member
    rw [List.mem_append, List.mem_singleton] at member
    cases member with
    | inl earlier => exact holds.pending row earlier
    | inr now => exact now ▸ admitted
  exact ⟨Nat.le.refl, ⟨holds.log, pending, nofun⟩,
    fun _ _ => ⟨⟨holds.log, pending, holds.scope⟩, trivial⟩⟩

theorem load (value : ρ) :
    Sends p scope before (Program.load value : Program ω τ δ ε (Loaded ρ)) before
      fun object => object.value = value := by
  intro session holds
  refine ⟨Nat.le.refl, holds.any, fun object returned => ⟨holds, ?_⟩⟩
  cases returned
  rfl

theorem refused {session : Session ω τ δ} {inside : Bool} {failure : Failure ε}
    {since : Nat} (later : since ≤ session.transaction) (holds : Holds p scope inside session) :
    Ends p scope since after post (.error failure, session) :=
  ⟨later, holds.any, nofun⟩

theorem rollback (rolledBack : p .rollback) :
    Sends p scope before (Program.rollback : Program ω τ δ ε Unit) false fun _ => True := by
  intro session holds
  have ended := (holds.send rolledBack).ended
  exact ⟨Nat.le_succ _, ended, fun _ _ => ⟨ended, trivial⟩⟩

theorem setScope (admitted : p (.setScope scope)) :
    Sends p scope before (Program.setScope scope : Program ω τ δ ε Unit) true fun _ => True := by
  intro session holds
  rw [Program.setScope]
  split
  · have sent := holds.send admitted
    exact ⟨Nat.le.refl, ⟨sent.log, sent.pending, nofun⟩,
      fun _ _ => ⟨⟨sent.log, sent.pending, fun _ => rfl⟩, trivial⟩⟩
  · exact refused Nat.le.refl (holds.send admitted)

theorem read [Scoped δ ω] {tables : List τ} {query : δ → α} (admitted : p (.read (some scope) tables))
    (right : ∀ database, post (query (Scoped.visible (some scope) database))) :
    Sends p scope true (Program.read tables query : Program ω τ δ ε α) true post := by
  intro session holds
  have here : p (.read session.scope tables) := (holds.scope rfl).symm ▸ admitted
  have sent := holds.send here
  rw [Program.read]
  split
  · refine ⟨Nat.le.refl, sent.any, fun value returned => ⟨sent, ?_⟩⟩
    cases returned
    exact (holds.scope rfl).symm ▸ right _
  · exact refused Nat.le.refl sent

variable [DecidableEq ω]

theorem flushEach (rows : List (Write ω τ)) :
    ∀ session : Session ω τ δ, Holds p scope true session →
      (∀ row ∈ rows, ∀ refusal, p (.write (some scope) row refusal)) →
      Ends p scope session.transaction true (fun _ => True)
        (Program.flushEach rows session : Except (Failure ε) Unit × Session ω τ δ) := by
  induction rows with
  | nil =>
      intro session holds _
      exact ⟨Nat.le.refl, ⟨holds.log, nofun, nofun⟩, fun _ _ => ⟨⟨holds.log, nofun, holds.scope⟩, trivial⟩⟩
  | cons row rest ih =>
      intro session holds admitted
      have here (refusal : Option Refusal) : p (.write session.scope row refusal) :=
        (holds.scope rfl).symm ▸ admitted row List.mem_cons_self refusal
      rw [Program.flushEach]
      split
      · exact ih _ (holds.send (here none)) fun row member =>
          admitted row (List.mem_cons_of_mem _ member)
      · exact refused (Nat.le_succ _) (holds.send (here _)).ended

theorem flush :
    Sends p scope true (Program.flush : Program ω τ δ ε Unit) true fun _ => True :=
  fun session holds => flushEach session.pending session holds holds.pending

theorem commit (committed : p .commit) (rolledBack : p .rollback) :
    Sends p scope true (Program.commit : Program ω τ δ ε Unit) false fun _ => True := by
  refine bind flush fun _ _ session holds => ?_
  rw [sendCommit]
  split
  · have ended := (holds.send committed).ended
    exact ⟨Nat.le_succ _, ended, fun _ _ => ⟨ended, trivial⟩⟩
  · exact refused (Nat.le_succ _) (holds.send rolledBack).ended

variable [Scoped δ ω]

theorem select {tables : List τ} {query : δ → α} (admitted : p (.read (some scope) tables))
    (right : ∀ database, post (query (Scoped.visible (some scope) database))) :
    Sends p scope true (Program.select tables query : Program ω τ δ ε α) true post :=
  bind flush fun _ _ => read admitted right

/-- A query whose answer need not be looked at. -/
theorem query {tables : List τ} {query : δ → α} (admitted : p (.read (some scope) tables)) :
    Sends p scope true (Program.select tables query : Program ω τ δ ε α) true fun _ => True :=
  select admitted fun _ => trivial

theorem execute {table : τ} {owner : ω} {count : δ → Nat}
    (admitted : ∀ refusal, p (.write (some scope) ⟨table, owner⟩ refusal)) :
    Sends p scope true (Program.execute table owner count : Program ω τ δ ε Nat) true
      fun _ => True := by
  refine bind flush fun _ _ session holds => ?_
  have here (refusal : Option Refusal) : p (.write session.scope ⟨table, owner⟩ refusal) :=
    (holds.scope rfl).symm ▸ admitted refusal
  split
  · have sent := holds.send (here none)
    exact ⟨Nat.le.refl, sent.any, fun _ _ => ⟨sent, trivial⟩⟩
  · exact refused Nat.le.refl (holds.send (here _))

theorem attributes {object : Loaded ρ} {table : τ} {byKey : δ → Option ρ} {post : ρ → Prop}
    (admitted : p (.read (some scope) [table])) (loaded : post object.value)
    (right : ∀ database, ∀ value ∈ byKey (Scoped.visible (some scope) database), post value) :
    Sends p scope true (Program.attributes object table byKey : Program ω τ δ ε ρ) true post := by
  intro session holds
  rw [Program.attributes]
  split
  · refine ⟨Nat.le.refl, holds.any, fun value returned => ⟨holds, ?_⟩⟩
    cases returned
    exact loaded
  · have selected : Sends p scope true
        (Program.select [table] byKey : Program ω τ δ ε (Option ρ)) true
        fun found => ∀ value ∈ found, post value := select admitted right
    refine bind selected (fun found all => ?_) session holds
    cases found with
    | none => exact fail
    | some value => exact pure (all value rfl)

end Sends

/-- Started in the scope if `before`, the program comes to an outcome as `goal` says. -/
def Leads (p : Sent ω τ → Prop) (scope : ω) (before : Bool) (program : Program ω τ δ ε α)
    (goal : Except (Failure ε) α × Session ω τ δ → Prop) : Prop :=
  ∀ session, Holds p scope before session → goal (program session)

/-- A first part that sends only what `p` admits leads where the rest leads. -/
theorem Leads.bind {mid : α → Prop} {goal : Except (Failure ε) β × Session ω τ δ → Prop}
    (first : Sends p scope before program middle mid)
    (failed : ∀ failure session, Holds p scope false session → goal (.error failure, session))
    (second : ∀ value, mid value → Leads p scope middle (next value) goal) :
    Leads p scope before (program >>= next) goal := by
  intro session holds
  have once := first session holds
  change goal (match program session with
    | (.ok value, after) => next value after
    | (.error failure, after) => (.error failure, after))
  match ran : program session with
  | (.ok value, there) =>
      rw [ran] at once
      have returned := once.returned value rfl
      exact second value returned.2 there returned.1
  | (.error failure, there) =>
      rw [ran] at once
      exact failed failure there once.sent

end AgreementIntelligence.Lib.Sessions
