import AgreementIntelligence.Lib.Results
import AgreementIntelligence.Playbooks.VersionRaces

/-! A published version and the calls that race for it. The version is locked by a publication and
by its deletion, so these two exclude each other. No lock keeps a publication and an edit of a rule
apart: what the publication has validated may be changed before it commits, and an edit that the
trigger has let pass may commit after it. Where neither happens, a published version is fixed. -/

namespace AgreementIntelligence.Playbooks
open Identity Lib.Casing Lib.Runs

variable {casing : CaseTable} {system : RaceSystem}

/-- The trigger has let an edit pass, and the transaction is open. -/
def Transaction.edits : Transaction → Bool
  | .passed _ => true
  | .written _ => true
  | _ => false

/-- The rules that a publication has validated. -/
def Transaction.validatedRules : Transaction → Option (List PlaybookRule)
  | .validated rules => some rules
  | .marked rules => some rules
  | _ => none

/-- A publication commits while the rules are the ones it has validated and no edit is open that the
trigger has let pass. -/
def PublishesAlone (system : RaceSystem) : RaceAction → Prop
  | .advance i => ∀ transaction ∈ system.transactions[i]?, transaction.marks = true →
      transaction.validatedRules = some system.rows.rules ∧
        ∀ other ∈ system.transactions, other.edits = false
  | _ => True

instance : DecidableRel PublishesAlone
  | system, .advance i => inferInstanceAs (Decidable (∀ transaction ∈ system.transactions[i]?, _))
  | _, .begin .. => inferInstanceAs (Decidable True)
  | _, .abandon _ => inferInstanceAs (Decidable True)

/-- What holds between two statements of such a run. -/
structure Fixed (casing : CaseTable) (system : RaceSystem) : Prop where
  valid : system.rows.published = true → validateForPublication casing system.rows.rules = .ok ()
  settled : system.rows.published = true → ∀ other ∈ system.transactions, other.edits = false
  checked : ∀ other ∈ system.transactions, ∀ rules, other.validatedRules = some rules →
    validateForPublication casing rules = .ok ()
  excluded : ∀ other ∈ system.transactions, other.discards = true →
    system.rows.published = false ∧ ∀ marked ∈ system.transactions, marked.marks = false

/-! Transactions -/

/-- Fewer transactions, with the same rows. -/
theorem Fixed.fewer (fixed : Fixed casing system) {transactions : List Transaction}
    (kept : transactions ⊆ system.transactions) :
    Fixed casing { system with transactions := transactions } where
  valid := fixed.valid
  settled published other member := fixed.settled published other (kept member)
  checked other member := fixed.checked other (kept member)
  excluded other member discards := by
    obtain ⟨unpublished, unmarked⟩ := fixed.excluded other (kept member) discards
    exact ⟨unpublished, fun marked inside => unmarked marked (kept inside)⟩

/-- Rows that are not published. -/
theorem Fixed.unpublished (fixed : Fixed casing system) {rows : VersionRows}
    (draft : rows.published = false) : Fixed casing ⟨rows, system.transactions⟩ where
  valid published := by simp [draft] at published
  settled published := by simp [draft] at published
  checked := fixed.checked
  excluded other member discards := ⟨draft, (fixed.excluded other member discards).2⟩

theorem marks_of_discards {transaction : Transaction} (discards : transaction.discards = true) :
    transaction.marks = false := by
  cases transaction <;> first | rfl | cases discards

/-- What a transaction may become. -/
structure MayBecome (casing : CaseTable) (system : RaceSystem) (next : Transaction) : Prop where
  passed : next.edits = true → system.rows.published = false
  validated : ∀ rules, next.validatedRules = some rules →
    validateForPublication casing rules = .ok ()
  discarded : next.discards = true → system.rows.published = false ∧
    ∀ other ∈ system.transactions, other.marks = false
  marked : next.marks = true → ∀ other ∈ system.transactions, other.discards = false

theorem Fixed.more (fixed : Fixed casing system) {next : Transaction}
    (fits : MayBecome casing system next) {transactions : List Transaction}
    (members : ∀ other ∈ transactions, other ∈ system.transactions ∨ other = next) :
    Fixed casing { system with transactions := transactions } where
  valid := fixed.valid
  settled published other member := by
    rcases members other member with before | rfl
    · exact fixed.settled published other before
    · by_contra edits
      simp [fits.passed (Bool.eq_true_of_not_eq_false edits)] at published
  checked other member := by
    rcases members other member with before | rfl
    · exact fixed.checked other before
    · exact fits.validated
  excluded other member discards := by
    rcases members other member with before | rfl
    · refine ⟨(fixed.excluded other before discards).1, fun marked inside => ?_⟩
      rcases members marked inside with earlier | rfl
      · exact (fixed.excluded other before discards).2 marked earlier
      · by_contra marks
        simp [fits.marked (Bool.eq_true_of_not_eq_false marks) other before] at discards
    · refine ⟨(fits.discarded discards).1, fun marked inside => ?_⟩
      rcases members marked inside with earlier | rfl
      · exact (fits.discarded discards).2 marked earlier
      · exact marks_of_discards discards

/-- A transaction of which none of this is told. -/
theorem MayBecome.plain {next : Transaction} (edits : next.edits = false)
    (validated : next.validatedRules = none) (discards : next.discards = false)
    (marks : next.marks = false) : MayBecome casing system next where
  passed := by simp [edits]
  validated := by simp [validated]
  discarded := by simp [discards]
  marked := by simp [marks]

/-! Statements -/

theorem continues_of_missed {write : RuleWrite} {next : Transaction}
    (continues : missed write = .continues next) : next = .idle := by
  cases write with
  | insert | update => cases continues
  | delete =>
    cases continues
    rfl

theorem changeVersion_continues {version : Option PlaybookVersion} {absent present : Outcome}
    {next : Transaction} (continues : changeVersion version absent present = .continues next) :
    absent = .continues next ∧ version = none ∨
      present = .continues next ∧ version.any (·.status = .published) = false := by
  cases version with
  | none => exact .inl ⟨continues, rfl⟩
  | some version =>
    simp only [changeVersion] at continues
    split_ifs at continues with published
    exact .inr ⟨continues, by simpa using published⟩

/-- What a transaction goes on with. -/
theorem advance_continues (fixed : Fixed casing system) {transaction next : Transaction}
    (member : transaction ∈ system.transactions)
    (continues : advance casing system transaction = .continues next) :
    MayBecome casing system next := by
  cases transaction with
  | editing | discarding =>
    cases continues
    exact .plain rfl rfl rfl rfl
  | written | idle | discarded | marked => cases continues
  | loaded call version rules =>
    simp only [advance] at continues
    split at continues <;> cases continues
    exact .plain rfl rfl rfl rfl
  | prepared write =>
    simp only [advance] at continues
    split_ifs at continues with absent published
    · rw [continues_of_missed continues]
      exact .plain rfl rfl rfl rfl
    · cases continues
      exact ⟨fun _ => by simpa using published, by simp [Transaction.validatedRules],
        by simp [Transaction.discards], by simp [Transaction.marks]⟩
  | passed write =>
    simp only [advance] at continues
    split_ifs at continues with waits absent refused
    · rw [continues_of_missed continues]
      exact .plain rfl rfl rfl rfl
    · cases continues
      refine ⟨fun _ => ?_, by simp [Transaction.validatedRules], by simp [Transaction.discards],
        by simp [Transaction.marks]⟩
      by_contra published
      have closed := fixed.settled (Bool.eq_true_of_not_eq_false published) _ member
      simp [Transaction.edits] at closed
  | deleting remaining removed =>
    cases remaining with
    | nil =>
      simp only [advance] at continues
      split at continues
      · cases continues
      rename_i waits
      have free : ∀ other ∈ system.transactions, other.marks = false := by
        intro other inside
        simp only [List.any_eq_true, Bool.or_eq_true, not_exists, not_and, not_or,
          Bool.not_eq_true] at waits
        exact (waits other inside).1.1
      rcases changeVersion_continues continues with ⟨same, gone⟩ | ⟨same, draft⟩
      · cases same
        exact ⟨by simp [Transaction.edits], by simp [Transaction.validatedRules],
          fun _ => ⟨by simp [VersionRows.published, gone], free⟩, by simp [Transaction.marks]⟩
      · split_ifs at same
        cases same
        exact ⟨by simp [Transaction.edits], by simp [Transaction.validatedRules],
          fun _ => ⟨draft, free⟩, by simp [Transaction.marks]⟩
    | cons ruleId rest =>
      simp only [advance] at continues
      split_ifs at continues <;> cases continues <;> exact .plain rfl rfl rfl rfl
  | publishing =>
    simp only [advance] at continues
    split at continues
    next => cases continues
    next passed =>
      cases continues
      exact ⟨by simp [Transaction.edits], by simp [Transaction.validatedRules, passed],
        by simp [Transaction.discards], by simp [Transaction.marks]⟩
  | validated rules =>
    simp only [advance] at continues
    split_ifs at continues with waits
    rcases changeVersion_continues continues with ⟨same, gone⟩ | ⟨same, draft⟩
    · cases same
    · cases same
      refine ⟨by simp [Transaction.edits], ?_, by simp [Transaction.discards], fun _ => ?_⟩
      · intro checked same
        exact fixed.checked _ member checked same
      · intro other inside
        simp only [List.any_eq_true, Bool.or_eq_true, not_exists, not_and, not_or,
          Bool.not_eq_true] at waits
        exact (waits other inside).2

/-- What is committed: by an edit that was let pass, by a deletion, or by a publication. -/
theorem advance_commits {transaction : Transaction} {rows : VersionRows}
    (commits : advance casing system transaction = .commits rows) :
    rows = system.rows ∨
      (transaction.edits = true ∧ rows.version = system.rows.version) ∨
      (transaction.discards = true ∧ rows.version = none) ∨
      transaction.marks = true ∧ rows = { system.rows with
        version := system.rows.version.map fun version => { version with status := .published } } := by
  cases transaction with
  | editing | discarding => cases commits
  | written write =>
    cases commits
    exact .inr (.inl ⟨rfl, rfl⟩)
  | idle =>
    cases commits
    exact .inl rfl
  | discarded removed =>
    cases commits
    exact .inr (.inr (.inl ⟨rfl, rfl⟩))
  | marked rules =>
    cases commits
    exact .inr (.inr (.inr ⟨rfl, rfl⟩))
  | loaded call version rules =>
    simp only [advance] at commits
    split at commits <;> cases commits
  | prepared write =>
    simp only [advance, missed] at commits
    split_ifs at commits
    split at commits <;> cases commits
  | passed write =>
    simp only [advance, missed] at commits
    split_ifs at commits
    split at commits <;> cases commits
  | deleting remaining removed =>
    cases remaining with
    | nil =>
      simp only [advance, changeVersion] at commits
      split at commits
      · cases commits
      · split at commits
        · cases commits
        · split_ifs at commits
    | cons ruleId rest =>
      simp only [advance] at commits
      split_ifs at commits
  | publishing =>
    simp only [advance] at commits
    split at commits <;> cases commits
  | validated rules =>
    simp only [advance, changeVersion] at commits
    split at commits
    · cases commits
    · split at commits
      · cases commits
      · split_ifs at commits

/-! Steps -/

/-- A version that is published is marked as it is. -/
theorem mark_of_published {rows : VersionRows} (published : rows.published = true) :
    { rows with version := rows.version.map fun version => { version with status := .published } } =
      rows := by
  obtain ⟨version, rules⟩ := rows
  cases version with
  | none => rfl
  | some version =>
    simp only [VersionRows.published, Option.any_some, decide_eq_true_eq] at published
    simp only [Option.map_some, ← published]

/-- Rows that are published stay as they are. -/
theorem advance_published (fixed : Fixed casing system) (published : system.rows.published = true)
    {transaction : Transaction} (member : transaction ∈ system.transactions) {rows : VersionRows}
    (commits : advance casing system transaction = .commits rows) : rows = system.rows := by
  rcases advance_commits commits with same | ⟨edits, -⟩ | ⟨discards, -⟩ | ⟨-, marked⟩
  · exact same
  · simp [fixed.settled published transaction member] at edits
  · simp [(fixed.excluded transaction member discards).1] at published
  · rw [marked, mark_of_published published]

theorem raceStep_rows (fixed : Fixed casing system) (published : system.rows.published = true)
    (action : RaceAction) : (raceStep casing system action).rows = system.rows := by
  cases action with
  | begin caller playbookId versionNumber call =>
    simp only [raceStep]
    split <;> rfl
  | abandon i => rfl
  | advance i =>
    simp only [raceStep]
    split
    next => rfl
    next transaction found =>
      cases outcome : advance casing system transaction with
      | waits | fails | continues => rfl
      | commits rows =>
        exact advance_published fixed published (List.mem_of_getElem? found) outcome

theorem begin_plain {rows : VersionRows} {caller : PlaybookCaller} {playbookId : Uuid}
    {versionNumber : Nat} {call : VersionCall} {transaction : Transaction}
    (begun : begin rows caller playbookId versionNumber call = .ok transaction) :
    MayBecome casing system transaction := by
  simp only [begin, Lib.Results.bind_ok] at begun
  obtain ⟨-, -, -, -, version, -, -, -, last⟩ := begun
  cases last
  cases call <;> exact .plain rfl rfl rfl rfl

theorem Fixed.commit (fixed : Fixed casing system) {i : Nat} (alone : PublishesAlone system (.advance i))
    {transaction : Transaction} (found : system.transactions[i]? = some transaction)
    {rows : VersionRows} (commits : advance casing system transaction = .commits rows) :
    Fixed casing ⟨rows, system.transactions.eraseIdx i⟩ := by
  have member := List.mem_of_getElem? found
  have fewer := fixed.fewer (List.eraseIdx_subset (l := system.transactions) (k := i))
  rcases advance_commits commits with rfl | ⟨edits, version⟩ | ⟨-, gone⟩ | ⟨marks, rfl⟩
  · exact fewer
  · refine fewer.unpublished ?_
    rw [VersionRows.published, version]
    by_contra published
    have closed := fixed.settled (Bool.eq_true_of_not_eq_false published) transaction member
    simp [edits] at closed
  · refine fewer.unpublished ?_
    rw [VersionRows.published, gone]
    rfl
  · obtain ⟨read, settled⟩ := alone transaction found marks
    refine ⟨fun _ => fixed.checked transaction member _ read, ?_, fewer.checked, ?_⟩
    · intro _ other inside
      exact settled other (List.mem_of_mem_eraseIdx inside)
    · intro other inside discards
      have unmarked := (fixed.excluded other (List.mem_of_mem_eraseIdx inside) discards).2
      simp [unmarked transaction member] at marks

theorem raceStep_fixed (fixed : Fixed casing system) {action : RaceAction}
    (alone : PublishesAlone system action) : Fixed casing (raceStep casing system action) := by
  cases action with
  | begin caller playbookId versionNumber call =>
    simp only [raceStep]
    split
    next => exact fixed
    next transaction begun =>
      apply fixed.more (begin_plain begun)
      intro other member
      simpa using member
  | abandon i => exact fixed.fewer (List.eraseIdx_subset ..)
  | advance i =>
    simp only [raceStep]
    split
    next => exact fixed
    next transaction found =>
      cases outcome : advance casing system transaction with
      | waits => exact fixed
      | fails => exact fixed.fewer (List.eraseIdx_subset ..)
      | continues next =>
        apply fixed.more (advance_continues fixed (List.mem_of_getElem? found) outcome)
        intro other member
        exact List.mem_or_eq_of_mem_set member
      | commits rows => exact fixed.commit alone found outcome

/-- From the commit that publishes it on, a version has the same valid rules. -/
def PublishedFixed (casing : CaseTable) (start : RaceSystem) (actions : List RaceAction) : Prop :=
  ∀ before after, actions = before ++ after →
    (run (raceStep casing) start before).rows.published = true →
    validateForPublication casing (run (raceStep casing) start before).rows.rules = .ok () ∧
      (run (raceStep casing) start actions).rows = (run (raceStep casing) start before).rows

theorem start_fixed {version : PlaybookVersion} (draft : version.status = .draft)
    (rules : List PlaybookRule) : Fixed casing (.start version rules) where
  valid published := by simp [RaceSystem.start, VersionRows.published, draft] at published
  settled _ other member := by cases member
  checked other member := by cases member
  excluded other member := by cases member

/-- Runs in which publications commit alone. -/
theorem publishedFixed_of_alone {version : PlaybookVersion} (draft : version.status = .draft)
    {rules : List PlaybookRule} {actions : List RaceAction}
    (alone : meetsAlong (raceStep casing) PublishesAlone (.start version rules) actions) :
    PublishedFixed casing (.start version rules) actions := by
  intro before after split published
  have each := meetsAlong_iff.mp alone
  have fixed : Fixed casing (run (raceStep casing) (.start version rules) before) := by
    apply run_invariant_along PublishesAlone (Fixed casing) (start_fixed draft rules)
    · intro system action met fixed
      exact raceStep_fixed fixed met
    · intro pre action post same
      exact each pre action (post ++ after) (by simp [split, same])
  refine ⟨fixed.valid published, ?_⟩
  have both : Fixed casing (run (raceStep casing) (.start version rules) actions) ∧
      (run (raceStep casing) (.start version rules) actions).rows =
        (run (raceStep casing) (.start version rules) before).rows := by
    rw [split, run_append]
    apply run_invariant_along PublishesAlone (fun system => Fixed casing system ∧
      system.rows = (run (raceStep casing) (.start version rules) before).rows) ⟨fixed, rfl⟩
    · rintro system action met ⟨fixed, same⟩
      refine ⟨raceStep_fixed fixed met, ?_⟩
      rw [raceStep_rows fixed (by rw [same, published]), same]
    · intro pre action post same
      rw [← run_append]
      exact each (before ++ pre) action post (by simp [split, same])
  exact both.2

/-! Two orders of the same calls -/

def racedVersion : PlaybookVersion := ⟨.ofNat 5, .ofNat 1, .ofNat 2, .ofNat 3, 1, .draft⟩

def racedRule : PlaybookRule := ⟨.ofNat 6, .ofNat 5, "liability", "Liability", .prohibited, none, none,
  .high, "Exposure", "Ask", ⟨.deterministic, false⟩⟩

def racing (call : VersionCall) : RaceAction :=
  .begin ⟨.ofNat 1, .ofNat 2, true, false⟩ (.ofNat 3) 1 call

/-- The only rule is deleted by a transaction that is let pass before the publication. -/
def publishedFirst : List RaceAction :=
  [racing (.edit (.deleteRule (.ofNat 6) true)), .advance 0, .advance 0, .advance 0, .advance 0,
    racing .publish, .advance 1, .advance 1, .advance 1]

/-- The only rule is deleted after the publication has validated it. -/
def editedFirst : List RaceAction :=
  [racing .publish, .advance 0, racing (.edit (.deleteRule (.ofNat 6) true)), .advance 1, .advance 1,
    .advance 1, .advance 1, .advance 1, .advance 0, .advance 0]

theorem publication_races :
    ¬ PublishedFixed .ascii (.start racedVersion [racedRule]) (publishedFirst ++ [.advance 0]) ∧
      ¬ PublishedFixed .ascii (.start racedVersion [racedRule]) editedFirst := by
  constructor
  · intro fixed
    have same := (fixed publishedFirst [.advance 0] rfl (by decide)).2
    revert same
    decide
  · intro fixed
    have valid := (fixed editedFirst [] rfl (by decide)).1
    revert valid
    decide

/-- The rule is renamed before it is published, and deleted in vain after. -/
def oneByOne : List RaceAction :=
  [racing (.edit (.updateRule (.ofNat 6) ⟨none, some (some "Cap"), none, none, none, none, none, none,
    none⟩)), .advance 0, .advance 0, .advance 0, .advance 0, .advance 0, racing .publish,
    .advance 0, racing (.edit (.deleteRule (.ofNat 6) true)), .advance 1, .advance 1, .advance 0,
    .advance 0, .advance 0, .advance 0]

theorem publishedFixed_oneByOne :
    (run (raceStep .ascii) (.start racedVersion [racedRule]) oneByOne).rows.published = true ∧
      (run (raceStep .ascii) (.start racedVersion [racedRule]) oneByOne).transactions = [] ∧
      PublishedFixed .ascii (.start racedVersion [racedRule]) oneByOne :=
  ⟨by decide, by decide, publishedFixed_of_alone rfl (by decide)⟩

end AgreementIntelligence.Playbooks
