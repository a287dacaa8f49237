import AgreementIntelligence.Lib.Runs
import AgreementIntelligence.Lib.Table
import AgreementIntelligence.ApprovalPolicies.Publication
import AgreementIntelligence.Lib.Text

/-! Legal playbooks, their versions, the rules of a version and the calls that write them. Each
call runs in one transaction, and a call that raises leaves the store as it was. Authors, time
stamps that nothing reads and the texts that only a response shows are left out. -/

namespace AgreementIntelligence.Playbooks
open Identity Lib.Casing Lib.Runs Lib.Text
open ApprovalPolicies (AgreementFamily DocumentDirection HttpException hideResource httpError
  integrityError)

inductive PlaybookStatus where
  | draft
  | published
  deriving DecidableEq, Repr

inductive PolicyType where
  | required
  | prohibited
  | preferred
  deriving DecidableEq, Repr

def PolicyType.value : PolicyType → String
  | .required => "required"
  | .prohibited => "prohibited"
  | .preferred => "preferred"

inductive Severity where
  | low
  | medium
  | high
  | critical
  deriving DecidableEq, Repr

inductive EvaluationMethod where
  | deterministic
  | semantic
  deriving DecidableEq, Repr

structure RuleEvaluationConfig where
  method : EvaluationMethod
  semanticAssessmentPermitted : Bool
  deriving DecidableEq, Repr

structure LegalPlaybook where
  id : Uuid
  organizationId : Uuid
  workspaceId : Uuid
  agreementFamily : AgreementFamily
  documentDirection : DocumentDirection
  jurisdiction : String
  priority : Nat
  archivedAt : Option Time
  deriving DecidableEq, Repr

structure PlaybookVersion where
  id : Uuid
  organizationId : Uuid
  workspaceId : Uuid
  playbookId : Uuid
  version : Nat
  status : PlaybookStatus
  deriving DecidableEq, Repr

structure PlaybookRule where
  id : Uuid
  playbookVersionId : Uuid
  clauseType : String
  title : String
  policyType : PolicyType
  preferredLanguage : Option String
  fallbackLanguage : Option String
  severity : Severity
  legalRationale : String
  reviewerGuidance : String
  evaluationConfig : RuleEvaluationConfig
  deriving DecidableEq, Repr

structure PlaybookAuditEvent where
  id : Uuid
  organizationId : Uuid
  workspaceId : Uuid
  playbookVersionId : Uuid
  agreementId : Option Uuid
  action : String
  occurredAt : Time
  deriving DecidableEq, Repr

structure PlaybookDb where
  playbooks : List LegalPlaybook
  versions : List PlaybookVersion
  rules : List PlaybookRule
  auditEvents : List PlaybookAuditEvent
  deriving DecidableEq, Repr

def PlaybookDb.empty : PlaybookDb := ⟨[], [], [], []⟩

/-- Versions joined with the playbooks they belong to. -/
def PlaybookDb.joined (db : PlaybookDb) : List (PlaybookVersion × LegalPlaybook) :=
  db.versions.flatMap fun version =>
    (db.playbooks.filter fun playbook => playbook.id = version.playbookId).map fun playbook =>
      (version, playbook)

def PlaybookDb.rulesOf (db : PlaybookDb) (versionId : Uuid) : List PlaybookRule :=
  db.rules.filter fun rule => rule.playbookVersionId = versionId

structure PlaybookCaller where
  organizationId : Uuid
  workspaceId : Uuid
  /-- `PLAYBOOKS_MANAGE` opens the workspace to the caller. -/
  mayManage : Bool
  /-- `REVIEWS_APPROVE` opens the workspace to the caller. -/
  mayApprove : Bool
  deriving DecidableEq, Repr

structure PlaybookRuleWrite where
  clauseType : String
  title : String
  policyType : PolicyType
  preferredLanguage : Option String
  fallbackLanguage : Option String
  severity : Severity
  legalRationale : String
  reviewerGuidance : String
  evaluationConfig : RuleEvaluationConfig
  deriving DecidableEq, Repr

/-- A field that is `none` is not set by the request; `some none` sets it to null. -/
structure UpdatePlaybookRuleRequest where
  clauseType : Option (Option String)
  title : Option (Option String)
  policyType : Option (Option PolicyType)
  preferredLanguage : Option (Option String)
  fallbackLanguage : Option (Option String)
  severity : Option (Option Severity)
  legalRationale : Option (Option String)
  reviewerGuidance : Option (Option String)
  evaluationConfig : Option (Option RuleEvaluationConfig)
  deriving DecidableEq, Repr

structure CreatePlaybookRequest where
  agreementFamily : AgreementFamily
  documentDirection : DocumentDirection
  jurisdiction : String
  priority : Nat
  rules : List PlaybookRuleWrite
  deriving DecidableEq, Repr

/-- What `active_agreement_statement` finds of an agreement. -/
structure ActiveAgreement where
  id : Uuid
  agreementType : String
  deriving DecidableEq, Repr

def authorize (caller : PlaybookCaller) : Except HttpException Unit :=
  if caller.mayManage then .ok () else .error hideResource

def authorizeOverride (caller : PlaybookCaller) : Except HttpException Unit :=
  if caller.mayApprove then .ok () else .error hideResource

/-- A text that does not fit its column. -/
def dataError : HttpException := httpError 500 "data_error"

def confirmationRequired : HttpException := httpError 422 "deletion_confirmation_required"

def requireConfirmed (confirmed : Bool) : Except HttpException Unit :=
  if confirmed then .ok () else .error confirmationRequired

def invalidDraft (message : String) : HttpException := ⟨422, "invalid_playbook_draft", message⟩

def playbookInScope (db : PlaybookDb) (caller : PlaybookCaller) (playbookId : Uuid) :
    Except HttpException LegalPlaybook :=
  match db.playbooks.find? fun playbook => playbook.id = playbookId ∧
      playbook.organizationId = caller.organizationId ∧
      playbook.workspaceId = caller.workspaceId with
  | none => .error hideResource
  | some playbook => .ok playbook

def versionInScope (db : PlaybookDb) (caller : PlaybookCaller) (playbookId : Uuid)
    (versionNumber : Nat) : Except HttpException PlaybookVersion :=
  match db.versions.find? fun version => version.playbookId = playbookId ∧
      version.version = versionNumber ∧ version.organizationId = caller.organizationId ∧
      version.workspaceId = caller.workspaceId with
  | none => .error hideResource
  | some version => .ok version

def ensureDraft (version : PlaybookVersion) : Except HttpException Unit :=
  if version.status = .published then .error (httpError 409 "published_playbook_immutable")
  else .ok ()

/-- `_audit` -/
def PlaybookDb.audit (db : PlaybookDb) (id : Uuid) (now : Time) (version : PlaybookVersion)
    (action : String) (agreementId : Option Uuid) : PlaybookDb :=
  { db with auditEvents := db.auditEvents ++
      [⟨id, version.organizationId, version.workspaceId, version.id, agreementId, action, now⟩] }

def insertPlaybook (db : PlaybookDb) (playbook : LegalPlaybook) : Except HttpException PlaybookDb :=
  if playbook.jurisdiction.length > 16 then .error dataError
  else if playbook.id ∈ db.playbooks.map (·.id) then .error integrityError
  else .ok { db with playbooks := db.playbooks ++ [playbook] }

def insertVersion (db : PlaybookDb) (version : PlaybookVersion) :
    Except HttpException PlaybookDb :=
  if version.id ∈ db.versions.map (·.id) then .error integrityError
  else .ok { db with versions := db.versions ++ [version] }

/-- The clause types of a version are unique as they are spelt. -/
def insertRule (db : PlaybookDb) (rule : PlaybookRule) : Except HttpException PlaybookDb :=
  if rule.id ∈ db.rules.map (·.id) ∨
      rule.clauseType ∈ (db.rulesOf rule.playbookVersionId).map (·.clauseType) then
    .error integrityError
  else .ok { db with rules := db.rules ++ [rule] }

def insertRules (db : PlaybookDb) : List PlaybookRule → Except HttpException PlaybookDb
  | [] => .ok db
  | rule :: rest => do
    let db ← insertRule db rule
    insertRules db rest

/-- `_add_rule_record` -/
def ruleRecord (id versionId : Uuid) (rule : PlaybookRuleWrite) : PlaybookRule where
  id := id
  playbookVersionId := versionId
  clauseType := rule.clauseType
  title := rule.title
  policyType := rule.policyType
  preferredLanguage := rule.preferredLanguage
  fallbackLanguage := rule.fallbackLanguage
  severity := rule.severity
  legalRationale := rule.legalRationale
  reviewerGuidance := rule.reviewerGuidance
  evaluationConfig := rule.evaluationConfig

def create (casing : CaseTable) (uuid4 : Nat → Uuid) (now : Time) (db : PlaybookDb)
    (caller : PlaybookCaller) (request : CreatePlaybookRequest) :
    Except HttpException PlaybookDb := do
  authorize caller
  let playbook : LegalPlaybook := {
    id := uuid4 0
    organizationId := caller.organizationId
    workspaceId := caller.workspaceId
    agreementFamily := request.agreementFamily
    documentDirection := request.documentDirection
    jurisdiction := casing.upperText request.jurisdiction
    priority := request.priority
    archivedAt := none }
  let version : PlaybookVersion := {
    id := uuid4 1
    organizationId := caller.organizationId
    workspaceId := caller.workspaceId
    playbookId := playbook.id
    version := 1
    status := .draft }
  let db ← insertPlaybook db playbook
  let db ← insertVersion db version
  let db ← insertRules db (request.rules.zipIdx.map fun entry =>
    ruleRecord (uuid4 (3 + entry.2)) version.id entry.1)
  .ok (db.audit (uuid4 2) now version "draft_created" none)

/-- `coalesce(max(version), 0) + 1` -/
def nextVersion (db : PlaybookDb) (playbookId : Uuid) : Nat :=
  ((db.versions.filter fun version => version.playbookId = playbookId).map (·.version)).foldl max 0
    + 1

def sourceRules (db : PlaybookDb) (caller : PlaybookCaller) (playbookId : Uuid) :
    Option Nat → Except HttpException (List PlaybookRule)
  | none => .ok []
  | some number => do
    let source ← versionInScope db caller playbookId number
    .ok (db.rulesOf source.id)

/-- `create_version`; the playbook row is locked meanwhile. -/
def createVersion (uuid4 : Nat → Uuid) (now : Time) (db : PlaybookDb) (caller : PlaybookCaller)
    (playbookId : Uuid) (sourceVersion : Option Nat) : Except HttpException PlaybookDb := do
  authorize caller
  let playbook ← playbookInScope db caller playbookId
  let copied ← sourceRules db caller playbookId sourceVersion
  let version : PlaybookVersion := {
    id := uuid4 1
    organizationId := caller.organizationId
    workspaceId := caller.workspaceId
    playbookId := playbook.id
    version := nextVersion db playbook.id
    status := .draft }
  let db ← insertVersion db version
  let db ← insertRules db (copied.zipIdx.map fun entry =>
    { entry.1 with id := uuid4 (3 + entry.2), playbookVersionId := version.id })
  .ok (db.audit (uuid4 2) now version "draft_created" none)

def overrideForAgreement (uuid4 : Nat → Uuid) (now : Time) (db : PlaybookDb)
    (caller : PlaybookCaller) (agreement : Option ActiveAgreement) (playbookVersionId : Uuid) :
    Except HttpException PlaybookDb := do
  authorizeOverride caller
  match agreement with
  | none => .error hideResource
  | some agreement =>
    match db.joined.find? fun pair => pair.1.id = playbookVersionId ∧
        pair.1.organizationId = caller.organizationId ∧
        pair.1.workspaceId = caller.workspaceId ∧ pair.1.status = .published with
    | none => .error hideResource
    | some (version, playbook) =>
      if playbook.archivedAt ≠ none then .error hideResource
      else if playbook.agreementFamily.value ≠ agreement.agreementType then
        .error (httpError 422 "playbook_override_family_mismatch")
      else .ok (db.audit (uuid4 2) now version "agreement_override_recorded" (some agreement.id))

def addRule (uuid4 : Nat → Uuid) (now : Time) (db : PlaybookDb) (caller : PlaybookCaller)
    (playbookId : Uuid) (versionNumber : Nat) (request : PlaybookRuleWrite) :
    Except HttpException PlaybookDb := do
  authorize caller
  let version ← versionInScope db caller playbookId versionNumber
  ensureDraft version
  let db ← insertRule db (ruleRecord (uuid4 3) version.id request)
  .ok (db.audit (uuid4 2) now version "rule_created" none)

/-- `setattr` on a column that is not nullable, followed by the flush. -/
def setField {α : Type} (old : α) : Option (Option α) → Except HttpException α
  | none => .ok old
  | some none => .error integrityError
  | some (some new) => .ok new

def ruleInVersion (db : PlaybookDb) (versionId ruleId : Uuid) : Except HttpException PlaybookRule :=
  match (db.rulesOf versionId).find? fun rule => rule.id = ruleId with
  | none => .error hideResource
  | some rule => .ok rule

def updatedRule (rule : PlaybookRule) (request : UpdatePlaybookRuleRequest) :
    Except HttpException PlaybookRule := do
  let clauseType ← setField rule.clauseType request.clauseType
  let title ← setField rule.title request.title
  let policyType ← setField rule.policyType request.policyType
  let severity ← setField rule.severity request.severity
  let legalRationale ← setField rule.legalRationale request.legalRationale
  let reviewerGuidance ← setField rule.reviewerGuidance request.reviewerGuidance
  let evaluationConfig ← setField rule.evaluationConfig request.evaluationConfig
  .ok { rule with
    clauseType := clauseType
    title := title
    policyType := policyType
    preferredLanguage := request.preferredLanguage.getD rule.preferredLanguage
    fallbackLanguage := request.fallbackLanguage.getD rule.fallbackLanguage
    severity := severity
    legalRationale := legalRationale
    reviewerGuidance := reviewerGuidance
    evaluationConfig := evaluationConfig }

def updateRule (uuid4 : Nat → Uuid) (now : Time) (db : PlaybookDb) (caller : PlaybookCaller)
    (playbookId : Uuid) (versionNumber : Nat) (ruleId : Uuid)
    (request : UpdatePlaybookRuleRequest) : Except HttpException PlaybookDb := do
  authorize caller
  let version ← versionInScope db caller playbookId versionNumber
  ensureDraft version
  let rule ← ruleInVersion db version.id ruleId
  let updated ← updatedRule rule request
  if ∃ other ∈ db.rulesOf version.id, other.id ≠ rule.id ∧ other.clauseType = updated.clauseType
  then .error integrityError
  else
    .ok ({ db with rules := Lib.Table.update (·.id) db.rules rule.id fun _ => updated }.audit
      (uuid4 2) now version "rule_updated" none)

def deleteRule (uuid4 : Nat → Uuid) (now : Time) (db : PlaybookDb) (caller : PlaybookCaller)
    (playbookId : Uuid) (versionNumber : Nat) (ruleId : Uuid) (confirmed : Bool) :
    Except HttpException PlaybookDb := do
  authorize caller
  requireConfirmed confirmed
  let version ← versionInScope db caller playbookId versionNumber
  ensureDraft version
  let rule ← ruleInVersion db version.id ruleId
  .ok ({ db with rules := db.rules.filter fun other => other.id ≠ rule.id }.audit
    (uuid4 2) now version "rule_deleted" none)

/-- One turn of the last loop of `_validate_for_publication`. -/
def validateRule (rule : PlaybookRule) : Except HttpException Unit :=
  if strip rule.title = "" ∨ strip rule.legalRationale = "" ∨ strip rule.reviewerGuidance = "" then
    .error (invalidDraft "title, legal rationale, and reviewer guidance are required")
  else if rule.policyType ≠ .prohibited ∧ strip (rule.preferredLanguage.getD "") = "" then
    .error (invalidDraft ("preferred language is required for " ++ rule.policyType.value ++
      " rules"))
  else .ok ()

def validateRules : List PlaybookRule → Except HttpException Unit
  | [] => .ok ()
  | rule :: rest => do
    validateRule rule
    validateRules rest

def validateForPublication (casing : CaseTable) (rules : List PlaybookRule) :
    Except HttpException Unit :=
  if rules = [] then .error (invalidDraft "at least one playbook rule is required")
  else if ¬ (rules.map fun rule => casing.casefold (strip rule.clauseType)).Nodup then
    .error (invalidDraft "playbook version contains duplicate clause types")
  else validateRules rules

/-- What the routing check of a publication looks for. -/
def routesAlike (playbook : LegalPlaybook) (version : PlaybookVersion)
    (other : PlaybookVersion × LegalPlaybook) : Bool :=
  other.1.organizationId = version.organizationId ∧ other.1.workspaceId = version.workspaceId ∧
    other.1.status = .published ∧ other.1.playbookId ≠ version.playbookId ∧
    other.2.archivedAt = none ∧ other.2.agreementFamily = playbook.agreementFamily ∧
    other.2.documentDirection = playbook.documentDirection ∧
    other.2.jurisdiction = playbook.jurisdiction ∧ other.2.priority = playbook.priority

def publish (casing : CaseTable) (uuid4 : Nat → Uuid) (now : Time) (db : PlaybookDb)
    (caller : PlaybookCaller) (playbookId : Uuid) (versionNumber : Nat) :
    Except HttpException PlaybookDb := do
  authorize caller
  let version ← versionInScope db caller playbookId versionNumber
  ensureDraft version
  validateForPublication casing (db.rulesOf version.id)
  if ∃ other ∈ db.versions, other.playbookId = playbookId ∧ other.status = .published then
    .error (httpError 409 "published_playbook_exists")
  else
    let playbook ← playbookInScope db caller playbookId
    if db.joined.any (routesAlike playbook version) then
      .error (httpError 409 "playbook_routing_conflict")
    else
      .ok ({ db with versions := Lib.Table.update (·.id) db.versions version.id fun row =>
        { row with status := .published } }.audit (uuid4 2) now version "published" none)

/-- `delete_version`; the rules go with their version. -/
def deleteVersion (uuid4 : Nat → Uuid) (now : Time) (db : PlaybookDb) (caller : PlaybookCaller)
    (playbookId : Uuid) (versionNumber : Nat) (confirmed : Bool) :
    Except HttpException PlaybookDb := do
  authorize caller
  requireConfirmed confirmed
  let version ← versionInScope db caller playbookId versionNumber
  ensureDraft version
  let db := db.audit (uuid4 2) now version "draft_deleted" none
  .ok { db with
    versions := db.versions.filter fun row => row.id ≠ version.id
    rules := db.rules.filter fun rule => rule.playbookVersionId ≠ version.id }

/-- The audit events of a list of versions, one each. -/
def auditAll (uuid4 : Nat → Uuid) (now : Time) (action : String) (db : PlaybookDb)
    (versions : List PlaybookVersion) : PlaybookDb :=
  versions.zipIdx.foldl (fun db entry => db.audit (uuid4 (2 + entry.2)) now entry.1 action none) db

/-- `archive`; the answer needs a version, so a playbook without any is not archived. -/
def archive (uuid4 : Nat → Uuid) (now : Time) (db : PlaybookDb) (caller : PlaybookCaller)
    (playbookId : Uuid) : Except HttpException PlaybookDb := do
  authorize caller
  let playbook ← playbookInScope db caller playbookId
  let versions := db.versions.filter fun version => version.playbookId = playbook.id
  if ∃ version ∈ versions, version.status = .draft then
    .error (httpError 409 "draft_playbook_version_must_be_deleted")
  else if versions = [] then .error (httpError 500 "internal_server_error")
  else if playbook.archivedAt ≠ none then .ok db
  else
    .ok (auditAll uuid4 now "archived" { db with
      playbooks := Lib.Table.update (·.id) db.playbooks playbook.id fun row =>
        { row with archivedAt := some now } } versions)

def deletePlaybook (uuid4 : Nat → Uuid) (now : Time) (db : PlaybookDb) (caller : PlaybookCaller)
    (playbookId : Uuid) (confirmed : Bool) : Except HttpException PlaybookDb := do
  authorize caller
  requireConfirmed confirmed
  let playbook ← playbookInScope db caller playbookId
  let versions := db.versions.filter fun version => version.playbookId = playbook.id ∧
    version.organizationId = caller.organizationId ∧ version.workspaceId = caller.workspaceId
  if ∃ version ∈ versions, version.status = .published then
    .error (httpError 409 "published_playbook_must_be_archived")
  else
    let db := auditAll uuid4 now "draft_deleted" db versions
    .ok { db with
      rules := db.rules.filter fun rule => rule.playbookVersionId ∉ versions.map (·.id)
      versions := db.versions.filter fun version => version.id ∉ versions.map (·.id)
      playbooks := db.playbooks.filter fun other => other.id ≠ playbook.id }

inductive PlaybookCall where
  | create (request : CreatePlaybookRequest)
  | createVersion (playbookId : Uuid) (sourceVersion : Option Nat)
  | overrideForAgreement (agreement : Option ActiveAgreement) (playbookVersionId : Uuid)
  | addRule (playbookId : Uuid) (versionNumber : Nat) (request : PlaybookRuleWrite)
  | updateRule (playbookId : Uuid) (versionNumber : Nat) (ruleId : Uuid)
      (request : UpdatePlaybookRuleRequest)
  | deleteRule (playbookId : Uuid) (versionNumber : Nat) (ruleId : Uuid) (confirmed : Bool)
  | publish (playbookId : Uuid) (versionNumber : Nat)
  | deleteVersion (playbookId : Uuid) (versionNumber : Nat) (confirmed : Bool)
  | archive (playbookId : Uuid)
  | deletePlaybook (playbookId : Uuid) (confirmed : Bool)

/-- A call with its caller, the identifiers it draws and the time it reads. -/
structure PlaybookEvent where
  uuid4 : Nat → Uuid
  now : Time
  caller : PlaybookCaller
  call : PlaybookCall

def answer (casing : CaseTable) (db : PlaybookDb) (event : PlaybookEvent) :
    Except HttpException PlaybookDb :=
  match event.call with
  | .create request => create casing event.uuid4 event.now db event.caller request
  | .createVersion playbookId source =>
    createVersion event.uuid4 event.now db event.caller playbookId source
  | .overrideForAgreement agreement versionId =>
    overrideForAgreement event.uuid4 event.now db event.caller agreement versionId
  | .addRule playbookId number request =>
    addRule event.uuid4 event.now db event.caller playbookId number request
  | .updateRule playbookId number ruleId request =>
    updateRule event.uuid4 event.now db event.caller playbookId number ruleId request
  | .deleteRule playbookId number ruleId confirmed =>
    deleteRule event.uuid4 event.now db event.caller playbookId number ruleId confirmed
  | .publish playbookId number =>
    publish casing event.uuid4 event.now db event.caller playbookId number
  | .deleteVersion playbookId number confirmed =>
    deleteVersion event.uuid4 event.now db event.caller playbookId number confirmed
  | .archive playbookId => archive event.uuid4 event.now db event.caller playbookId
  | .deletePlaybook playbookId confirmed =>
    deletePlaybook event.uuid4 event.now db event.caller playbookId confirmed

def playbookStep (casing : CaseTable) (db : PlaybookDb) (event : PlaybookEvent) : PlaybookDb :=
  match answer casing db event with
  | .error _ => db
  | .ok after => after

end AgreementIntelligence.Playbooks
