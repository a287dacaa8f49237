import AgreementIntelligence.Playbooks

/-! Calls that race for one playbook version, statement by statement. A statement sees the rows that
are committed when it runs. What a call writes is its own until it commits, and the rows and keys
that it has written are locked until then. The trigger on the rules looks the status of their version
up and locks nothing, and neither does a rule lock its version against a change of the status. The
other versions that a publication looks for may refuse it at any time. -/

namespace AgreementIntelligence.Playbooks
open Identity Lib.Casing Lib.Runs
open ApprovalPolicies (HttpException)

/-- The committed rows of one version. -/
structure VersionRows where
  version : Option PlaybookVersion
  rules : List PlaybookRule
  deriving DecidableEq, Repr

def VersionRows.db (rows : VersionRows) : PlaybookDb := ⟨[], rows.version.toList, rows.rules, []⟩

/-- What `prevent_published_playbook_rule_mutation` looks up. -/
def VersionRows.published (rows : VersionRows) : Bool :=
  rows.version.any fun version => version.status = .published

/-! Writes -/

/-- A statement on one rule. An update has the values that the session has loaded, for only the
columns that differ from them are sent. -/
inductive RuleWrite where
  | insert (rule : PlaybookRule)
  | update (loaded updated : PlaybookRule)
  | delete (ruleId : Uuid)
  deriving DecidableEq, Repr

def RuleWrite.ruleId : RuleWrite → Uuid
  | .insert rule => rule.id
  | .update loaded _ => loaded.id
  | .delete ruleId => ruleId

/-- The entry that a write puts into the index of clause types. -/
def RuleWrite.newClauseType : RuleWrite → Option String
  | .insert rule => some rule.clauseType
  | .update loaded updated =>
    if updated.clauseType = loaded.clauseType then none else some updated.clauseType
  | .delete _ => none

def RuleWrite.inserts : RuleWrite → Bool
  | .insert _ => true
  | _ => false

def sentColumn {α : Type} [DecidableEq α] (loaded updated row : α) : α :=
  if updated = loaded then row else updated

def sentUpdate (loaded updated row : PlaybookRule) : PlaybookRule :=
  { row with
    clauseType := sentColumn loaded.clauseType updated.clauseType row.clauseType
    title := sentColumn loaded.title updated.title row.title
    policyType := sentColumn loaded.policyType updated.policyType row.policyType
    preferredLanguage :=
      sentColumn loaded.preferredLanguage updated.preferredLanguage row.preferredLanguage
    fallbackLanguage :=
      sentColumn loaded.fallbackLanguage updated.fallbackLanguage row.fallbackLanguage
    severity := sentColumn loaded.severity updated.severity row.severity
    legalRationale := sentColumn loaded.legalRationale updated.legalRationale row.legalRationale
    reviewerGuidance :=
      sentColumn loaded.reviewerGuidance updated.reviewerGuidance row.reviewerGuidance
    evaluationConfig :=
      sentColumn loaded.evaluationConfig updated.evaluationConfig row.evaluationConfig }

def RuleWrite.apply (write : RuleWrite) (rules : List PlaybookRule) : List PlaybookRule :=
  match write with
  | .insert rule => rules ++ [rule]
  | .update loaded updated =>
    Lib.Table.update (·.id) rules loaded.id (sentUpdate loaded updated)
  | .delete ruleId => rules.filter fun rule => rule.id ≠ ruleId

/-- A key that is taken, or a foreign key to a version that is gone. -/
def VersionRows.refuses (rows : VersionRows) : RuleWrite → Bool
  | .insert rule =>
    rule.id ∈ rows.rules.map (·.id) ∨ rule.clauseType ∈ rows.rules.map (·.clauseType) ∨
      rows.version = none
  | .update loaded updated => rows.rules.any fun other =>
    other.id ≠ loaded.id ∧ (RuleWrite.update loaded updated).newClauseType = some other.clauseType
  | .delete _ => false

/-! Calls -/

inductive RuleCall where
  | addRule (ruleId : Uuid) (request : PlaybookRuleWrite)
  | updateRule (ruleId : Uuid) (request : UpdatePlaybookRuleRequest)
  | deleteRule (ruleId : Uuid) (confirmed : Bool)
  deriving DecidableEq, Repr

inductive VersionCall where
  | edit (call : RuleCall)
  | deleteVersion (confirmed : Bool)
  | publish
  deriving DecidableEq, Repr

/-- A transaction by what it does next. -/
inductive Transaction where
  /-- The version was a draft; its rules are read next. -/
  | editing (call : RuleCall) (version : PlaybookVersion)
  /-- The rule of the call is looked for next. -/
  | loaded (call : RuleCall) (version : PlaybookVersion) (rules : List PlaybookRule)
  /-- The trigger looks the status up next. -/
  | prepared (write : RuleWrite)
  /-- The row is written next. -/
  | passed (write : RuleWrite)
  | written (write : RuleWrite)
  /-- A `DELETE` has found no row. -/
  | idle
  | discarding
  /-- The rules are deleted one by one, and the version after them. -/
  | deleting (remaining removed : List Uuid)
  | discarded (removed : List Uuid)
  | publishing
  | validated (rules : List PlaybookRule)
  | marked (rules : List PlaybookRule)
  deriving DecidableEq, Repr

structure RaceSystem where
  rows : VersionRows
  transactions : List Transaction
  deriving DecidableEq, Repr

def confirmCall : VersionCall → Except HttpException Unit
  | .edit (.deleteRule _ confirmed) => requireConfirmed confirmed
  | .deleteVersion confirmed => requireConfirmed confirmed
  | _ => .ok ()

def VersionCall.opened (version : PlaybookVersion) : VersionCall → Transaction
  | .edit call => .editing call version
  | .deleteVersion _ => .discarding
  | .publish => .publishing

/-- Until the first statement after the draft check. -/
def begin (rows : VersionRows) (caller : PlaybookCaller) (playbookId : Uuid) (versionNumber : Nat)
    (call : VersionCall) : Except HttpException Transaction := do
  authorize caller
  confirmCall call
  let version ← versionInScope rows.db caller playbookId versionNumber
  ensureDraft version
  .ok (call.opened version)

/-- The write of a call. A rule that the session has loaded before keeps the values of that time. -/
def prepare (version : PlaybookVersion) (loaded committed : List PlaybookRule) :
    RuleCall → Option RuleWrite
  | .addRule ruleId request => some (.insert (ruleRecord ruleId version.id request))
  | .updateRule ruleId request => do
    let row ← committed.find? fun rule => rule.id = ruleId
    let rule := (loaded.find? fun rule => rule.id = ruleId).getD row
    match updatedRule rule request with
    | .error _ => none
    | .ok updated => some (.update rule updated)
  | .deleteRule ruleId _ => do
    let row ← committed.find? fun rule => rule.id = ruleId
    some (.delete row.id)

/-! Locks -/

def Transaction.lockedRules : Transaction → List Uuid
  | .written write => [write.ruleId]
  | .deleting _ removed => removed
  | .discarded removed => removed
  | _ => []

def Transaction.newClauseType : Transaction → Option String
  | .written write => write.newClauseType
  | _ => none

/-- The version is deleted, and the transaction is open. -/
def Transaction.discards : Transaction → Bool
  | .discarded _ => true
  | _ => false

/-- The version is published, and the transaction is open. -/
def Transaction.marks : Transaction → Bool
  | .marked _ => true
  | _ => false

/-- A rule is inserted, and the transaction is open. -/
def Transaction.inserts : Transaction → Bool
  | .written write => write.inserts
  | _ => false

/-- A lock on the rule, on an equal clause type, or on the version that a new rule refers to. -/
def RaceSystem.holdsBack (system : RaceSystem) (write : RuleWrite) (other : Transaction) : Bool :=
  write.ruleId ∈ other.lockedRules ||
    (write.newClauseType.any fun clauseType => other.newClauseType = some clauseType ||
      system.rows.rules.any fun rule =>
        rule.clauseType = clauseType && rule.id ∈ other.lockedRules) ||
    (write.inserts && other.discards)

/-! Steps -/

inductive Outcome where
  | waits
  | fails
  | continues (next : Transaction)
  | commits (rows : VersionRows)
  deriving DecidableEq, Repr

/-- The row of a write is there; for a `DELETE` that finds none nothing fires and nothing fails. -/
def VersionRows.reaches (rows : VersionRows) : RuleWrite → Bool
  | .insert _ => true
  | write => write.ruleId ∈ rows.rules.map (·.id)

def missed : RuleWrite → Outcome
  | .delete _ => .continues .idle
  | _ => .fails

/-- The `UPDATE` or `DELETE` of the version, with its trigger. -/
def changeVersion (version : Option PlaybookVersion) (absent present : Outcome) : Outcome :=
  match version with
  | none => absent
  | some version => if version.status = .published then .fails else present

/-- The next statement of a transaction. -/
def advance (casing : CaseTable) (system : RaceSystem) : Transaction → Outcome
  | .editing call version => .continues (.loaded call version system.rows.rules)
  | .loaded call version rules =>
    match prepare version rules system.rows.rules call with
    | none => .fails
    | some write => .continues (.prepared write)
  | .prepared write =>
    if !system.rows.reaches write then missed write
    else if system.rows.published then .fails
    else .continues (.passed write)
  | .passed write =>
    if system.transactions.any (system.holdsBack write) then .waits
    else if !system.rows.reaches write then missed write
    else if system.rows.refuses write then .fails
    else .continues (.written write)
  | .written write => .commits { system.rows with rules := write.apply system.rows.rules }
  | .idle => .commits system.rows
  | .discarding => .continues (.deleting (system.rows.rules.map (·.id)) [])
  | .deleting (ruleId :: rest) removed =>
    if system.transactions.any fun other => ruleId ∈ other.lockedRules then .waits
    else if ruleId ∉ system.rows.rules.map (·.id) then .continues (.deleting rest removed)
    else if system.rows.published then .fails
    else .continues (.deleting rest (ruleId :: removed))
  | .deleting [] removed =>
    if system.transactions.any fun other => other.marks || other.discards || other.inserts then
      .waits
    else
      changeVersion system.rows.version (.continues (.discarded removed))
        (if system.rows.rules.any fun rule => rule.id ∉ removed then .fails
        else .continues (.discarded removed))
  | .discarded removed =>
    .commits ⟨none, system.rows.rules.filter fun rule => rule.id ∉ removed⟩
  | .publishing =>
    match validateForPublication casing system.rows.rules with
    | .error _ => .fails
    | .ok () => .continues (.validated system.rows.rules)
  | .validated rules =>
    if system.transactions.any fun other => other.marks || other.discards then .waits
    else changeVersion system.rows.version .fails (.continues (.marked rules))
  | .marked _ => .commits { system.rows with
      version := system.rows.version.map fun version => { version with status := .published } }

inductive RaceAction where
  | begin (caller : PlaybookCaller) (playbookId : Uuid) (versionNumber : Nat) (call : VersionCall)
  | advance (i : Nat)
  | abandon (i : Nat)
  deriving DecidableEq, Repr

def RaceSystem.settle (system : RaceSystem) (i : Nat) : Outcome → RaceSystem
  | .waits => system
  | .fails => { system with transactions := system.transactions.eraseIdx i }
  | .continues next => { system with transactions := system.transactions.set i next }
  | .commits rows => ⟨rows, system.transactions.eraseIdx i⟩

def raceStep (casing : CaseTable) (system : RaceSystem) : RaceAction → RaceSystem
  | .begin caller playbookId versionNumber call =>
    match begin system.rows caller playbookId versionNumber call with
    | .error _ => system
    | .ok transaction => { system with transactions := system.transactions ++ [transaction] }
  | .advance i =>
    match system.transactions[i]? with
    | none => system
    | some transaction => system.settle i (advance casing system transaction)
  | .abandon i => { system with transactions := system.transactions.eraseIdx i }

/-- No call is under way yet. -/
def RaceSystem.start (version : PlaybookVersion) (rules : List PlaybookRule) : RaceSystem :=
  ⟨⟨some version, rules⟩, []⟩

end AgreementIntelligence.Playbooks
