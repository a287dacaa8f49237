import AgreementIntelligence.Lib.Results
import AgreementIntelligence.Worker.Messages

/-! A loop reads a message before its `try`, so one message that cannot be read ends the loop, and
nothing else does. -/

namespace AgreementIntelligence.Worker
open Identity Lib Json Results

section Loops
variable {μ : Type} {receive : Delivery → Int → Except Raised (Option μ)}
  {handles : μ → Bool → Bool}

/-- The message of a round, where it can be read, and whether it is handled. -/
def readable (receive : Delivery → Int → Except Raised (Option μ)) (handles : μ → Bool → Bool)
    (poll : Poll) : Option (μ × Bool) :=
  poll.delivery.bind fun delivery =>
    (receive delivery poll.now).toOption.join.map fun message =>
      (message, handles message poll.fails)

/-- The messages that were given to the processor, and whether it took them. -/
def Outcome.processed (outcome : Outcome μ) : List (μ × Bool) :=
  outcome.events.filterMap fun
    | .idle => none
    | .skipped message => some (message, false)
    | .acknowledged message => some (message, true)

/-- The loop went on to the stop event and gave every message that can be read to the processor. -/
def Outcome.Survives (outcome : Outcome μ) (expected : List (μ × Bool)) : Prop :=
  outcome.raised = none ∧ outcome.processed = expected

def Receives (receive : Delivery → Int → Except Raised (Option μ)) (poll : Poll) : Prop :=
  ∀ delivery, poll.delivery = some delivery → ∃ message, receive delivery poll.now = .ok message

theorem runLoop_cons_receives {poll : Poll} (receives : Receives receive poll) (rest : List Poll) :
    (runLoop receive handles (poll :: rest)).raised = (runLoop receive handles rest).raised ∧
      (runLoop receive handles (poll :: rest)).processed =
        (readable receive handles poll).toList ++ (runLoop receive handles rest).processed := by
  rw [runLoop]
  cases arrived : poll.delivery with
  | none => simp [readable, arrived, Outcome.processed]
  | some delivery =>
    obtain ⟨message, received⟩ := receives delivery arrived
    cases message with
    | none =>
      simp [readable, arrived, received, Outcome.processed, Except.toOption]
    | some message =>
      cases handled : handles message poll.fails <;>
        simp [readable, arrived, received, handled, Outcome.processed, Except.toOption]

theorem runLoop_cons_raises {poll : Poll} (raises : ¬ Receives receive poll) (rest : List Poll) :
    (runLoop receive handles (poll :: rest)).raised ≠ none := by
  rw [runLoop]
  cases arrived : poll.delivery with
  | none => exact absurd (by simp [Receives, arrived]) raises
  | some delivery =>
    cases received : receive delivery poll.now with
    | error raised => simp [received]
    | ok message =>
      refine absurd (fun other same => ?_) raises
      obtain rfl := Option.some.inj (arrived.symm.trans same)
      exact ⟨message, received⟩

theorem survives_iff (polls : List Poll) :
    (runLoop receive handles polls).Survives (polls.filterMap (readable receive handles)) ↔
      ∀ poll ∈ polls, Receives receive poll := by
  induction polls with
  | nil => simp [Outcome.Survives, runLoop, Outcome.processed]
  | cons poll rest ih =>
    rw [List.forall_mem_cons, ← ih, Outcome.Survives, Outcome.Survives]
    by_cases receives : Receives receive poll
    · obtain ⟨raised, processed⟩ := @runLoop_cons_receives _ _ handles _ receives rest
      have split : (poll :: rest).filterMap (readable receive handles) =
          (readable receive handles poll).toList ++ rest.filterMap (readable receive handles) := by
        cases here : readable receive handles poll <;> simp [here]
      rw [raised, processed, split, List.append_cancel_left_eq]
      exact ⟨fun both => ⟨receives, both⟩, fun both => both.2⟩
    · have raised := @runLoop_cons_raises _ _ handles _ receives rest
      exact ⟨fun both => absurd both.1 raised, fun both => absurd both.1 receives⟩

end Loops

/-! When a message can be read -/

section Receivers
variable {φ : Type} {texts : Texts φ} {delivery : Delivery} {now : Int}

theorem readFields_ok {body : String} {fields : List (String × Json φ)} :
    readFields texts body = .ok fields ↔ texts.loads body = some (.object fields) := by
  rw [readFields]
  split <;> simp_all

theorem readUuid_ok {text : String} :
    (∃ value, readUuid text = .ok value) ↔ (UuidText.parse? text).isSome = true := by
  rw [readUuid]
  split <;> simp_all

/-- The key is there, and its value is the text of a UUID. -/
def HasUuid (texts : Texts φ) (fields : List (String × Json φ)) (key : String) : Prop :=
  ∃ value, fields.lookup key = some value ∧ (UuidText.parse? (texts.str value)).isSome = true

theorem uuidAt_ok {fields : List (String × Json φ)} {key : String} :
    (∃ value, uuidAt texts fields key = .ok value) ↔ HasUuid texts fields key := by
  rw [uuidAt, HasUuid]
  cases fields.lookup key <;> simp [readUuid_ok]

/-- The timestamp is not a number of more digits than `int` reads. -/
def ShortTimestamp (delivery : Delivery) : Prop :=
  ∀ sentAt, delivery.sentTimestamp = some sentAt → isDecimal sentAt = true →
    sentAt.length ≤ maxDigits

theorem queueAgeMs_ok : (∃ age, queueAgeMs delivery now = .ok age) ↔ ShortTimestamp delivery := by
  rw [queueAgeMs, ShortTimestamp]
  cases delivery.sentTimestamp with
  | none => simp
  | some sentAt =>
    cases decimal : isDecimal sentAt <;> by_cases long : maxDigits < sentAt.length <;>
      simp [decimal, long]
    omega

/-- The body is an object with the keys of its kind of message, and these hold UUIDs. A message of a
deletion may leave its job out. -/
def ReadableProcessing (texts : Texts φ) (delivery : Delivery) : Prop :=
  ShortTimestamp delivery ∧ ∃ fields, texts.loads delivery.body = some (.object fields) ∧
    HasUuid texts fields "organization_id" ∧ HasUuid texts fields "workspace_id" ∧
    if messageType texts fields = "agreement_deletion" then
      HasUuid texts fields "deletion_id" ∧
        (fields.lookup "job_id" = none ∨ HasUuid texts fields "job_id")
    else HasUuid texts fields "job_id"

/-- The body is an object, and one of a review workflow holds the UUIDs of its event. -/
def ReadableWorkflow (texts : Texts φ) (delivery : Delivery) : Prop :=
  ∃ fields, texts.loads delivery.body = some (.object fields) ∧
    (fields.lookup "kind" = some (.string "review-workflow") →
      HasUuid texts fields "event_id" ∧ HasUuid texts fields "organization_id" ∧
        HasUuid texts fields "workspace_id")

theorem readDeletionId_ok {fields : List (String × Json φ)} {deletionId : Option Uuid} :
    readDeletionId texts fields = .ok deletionId ↔
      if messageType texts fields = "agreement_deletion" then
        ∃ id, uuidAt texts fields "deletion_id" = .ok id ∧ deletionId = some id
      else deletionId = none := by
  rw [readDeletionId]
  split_ifs
  · cases uuidAt texts fields "deletion_id" <;> simp [Except.map, eq_comm]
  · simp [eq_comm]

theorem jobText_ok {fields : List (String × Json φ)} {deletionId : Option Uuid} :
    (∃ value, readUuid (jobText texts fields deletionId) = .ok value) ↔
      fields.lookup "job_id" = none ∧ deletionId ≠ none ∨ HasUuid texts fields "job_id" := by
  rw [readUuid_ok, HasUuid]
  cases job : fields.lookup "job_id" with
  | some value => simp [jobText, job]
  | none =>
    cases deletionId with
    | some id => simp [jobText, job, UuidText.parse?_str]
    | none =>
      have unread : UuidText.parse? "None" = none := by decide
      simp [jobText, job, texts.str_null, unread]

theorem receiveProcessing_ok :
    (∃ message, receiveProcessing texts delivery now = .ok message) ↔
      ReadableProcessing texts delivery := by
  simp only [receiveProcessing, bind_ok, readFields_ok]
  constructor
  · rintro ⟨message, fields, loaded, deletionId, deleted, jobId, job, organizationId, organization,
      workspaceId, workspace, age, aged, -⟩
    refine ⟨queueAgeMs_ok.mp ⟨age, aged⟩, fields, loaded, uuidAt_ok.mp ⟨_, organization⟩,
      uuidAt_ok.mp ⟨_, workspace⟩, ?_⟩
    have named := jobText_ok.mp ⟨jobId, job⟩
    rw [readDeletionId_ok] at deleted
    split_ifs at deleted ⊢ with deletion
    · obtain ⟨id, read, rfl⟩ := deleted
      exact ⟨uuidAt_ok.mp ⟨id, read⟩, named.imp_left And.left⟩
    · exact named.resolve_left fun left => left.2 deleted
  · rintro ⟨short, fields, loaded, organization, workspace, job⟩
    obtain ⟨organizationId, organization⟩ := uuidAt_ok.mpr organization
    obtain ⟨workspaceId, workspace⟩ := uuidAt_ok.mpr workspace
    obtain ⟨age, aged⟩ := (@queueAgeMs_ok _ now).mpr short
    have read : ∃ deletionId jobId, readDeletionId texts fields = .ok deletionId ∧
        readUuid (jobText texts fields deletionId) = .ok jobId := by
      simp only [readDeletionId_ok]
      split_ifs at job ⊢ with deletion
      · obtain ⟨id, deleted⟩ := uuidAt_ok.mpr job.1
        obtain ⟨jobId, named⟩ := (@jobText_ok _ texts fields (some id)).mpr
          (job.2.imp_left fun absent => ⟨absent, by simp⟩)
        exact ⟨some id, jobId, ⟨id, deleted, rfl⟩, named⟩
      · obtain ⟨jobId, named⟩ := (@jobText_ok _ texts fields none).mpr (.inr job)
        exact ⟨none, jobId, rfl, named⟩
    obtain ⟨deletionId, jobId, deleted, named⟩ := read
    exact ⟨_, fields, loaded, deletionId, deleted, jobId, named, organizationId, organization,
      workspaceId, workspace, age, aged, rfl⟩

theorem receiveWorkflow_ok :
    (∃ message, receiveWorkflow texts delivery = .ok message) ↔
      ReadableWorkflow texts delivery := by
  simp only [receiveWorkflow, bind_ok, readFields_ok]
  constructor
  · rintro ⟨message, fields, loaded, received⟩
    refine ⟨fields, loaded, fun review => ?_⟩
    simp only [review, bind_ok] at received
    obtain ⟨eventId, event, organizationId, organization, workspaceId, workspace, -⟩ := received
    exact ⟨uuidAt_ok.mp ⟨_, event⟩, uuidAt_ok.mp ⟨_, organization⟩, uuidAt_ok.mp ⟨_, workspace⟩⟩
  · rintro ⟨fields, loaded, ids⟩
    by_cases review : fields.lookup "kind" = some (.string "review-workflow")
    · obtain ⟨event, organization, workspace⟩ := ids review
      obtain ⟨eventId, event⟩ := uuidAt_ok.mpr event
      obtain ⟨organizationId, organization⟩ := uuidAt_ok.mpr organization
      obtain ⟨workspaceId, workspace⟩ := uuidAt_ok.mpr workspace
      refine ⟨some ⟨eventId, delivery.receiptHandle, organizationId, workspaceId⟩, fields, loaded, ?_⟩
      simp only [review, bind_ok]
      exact ⟨eventId, event, organizationId, organization, workspaceId, workspace, rfl⟩
    · refine ⟨none, fields, loaded, ?_⟩
      split
      next kind => exact absurd kind review
      next => rfl

end Receivers

/-! Both loops -/

section Worker
variable {φ : Type} (texts : Texts φ)

/-- The processing loop gets over its polls. -/
def ProcessingSurvives (deletions : Bool) (polls : List Poll) : Prop :=
  (runProcessingLoop texts deletions polls).Survives
    (polls.filterMap (readable (receiveProcessing texts) (handlesProcessing deletions)))

def WorkflowSurvives (polls : List Poll) : Prop :=
  (runWorkflowLoop texts polls).Survives
    (polls.filterMap (readable (fun delivery _ => receiveWorkflow texts delivery) handlesWorkflow))

/-- The loops go on and process what can be read exactly when all that they receive can be read. -/
theorem loops_survive_iff (deletions : Bool) (jobs events : List Poll) :
    (ProcessingSurvives texts deletions jobs ↔
      ∀ poll ∈ jobs, ∀ delivery, poll.delivery = some delivery →
        ReadableProcessing texts delivery) ∧
    (WorkflowSurvives texts events ↔
      ∀ poll ∈ events, ∀ delivery, poll.delivery = some delivery →
        ReadableWorkflow texts delivery) := by
  constructor
  · rw [ProcessingSurvives, runProcessingLoop, survives_iff]
    simp only [Receives, receiveProcessing_ok]
  · rw [WorkflowSurvives, runWorkflowLoop, survives_iff]
    simp only [Receives, receiveWorkflow_ok]

end Worker

/-- A body that both receivers can read. -/
def sampleBody : String :=
  "\x7b\"kind\": \"review-workflow\", \"event_id\": \"00000000-0000-0000-0000-000000000001\", " ++
  "\"job_id\": \"00000000-0000-0000-0000-000000000001\", " ++
  "\"organization_id\": \"00000000-0000-0000-0000-000000000001\", " ++
  "\"workspace_id\": \"00000000-0000-0000-0000-000000000001\"\x7d"

def sampleTexts : Texts Unit where
  loads body :=
    let id (key : String) : String × Json Unit :=
      (key, .string "00000000-0000-0000-0000-000000000001")
    if body = sampleBody then
      some (.object [("kind", .string "review-workflow"), id "event_id", id "job_id",
        id "organization_id", id "workspace_id"])
    else none
  str
    | .string text => text
    | _ => "None"
  str_string _ := rfl
  str_null := rfl

def samplePoll (body : String) : Poll :=
  ⟨some ⟨body, "receipt", [], some "1767225600000"⟩, 1767225600500, false⟩

/-- Either loop is over at a body that is no JSON, and the next message is never processed. -/
theorem loops_end :
    (¬ ProcessingSurvives sampleTexts true [samplePoll "oops", samplePoll sampleBody] ∧
      runProcessingLoop sampleTexts true [samplePoll "oops", samplePoll sampleBody] =
        ⟨[], some .decode⟩) ∧
    ¬ WorkflowSurvives sampleTexts [samplePoll "oops", samplePoll sampleBody] ∧
      runWorkflowLoop sampleTexts [samplePoll "oops", samplePoll sampleBody] =
        ⟨[], some .decode⟩ := by
  have unread : sampleTexts.loads "oops" = none := by decide
  have processing : runProcessingLoop sampleTexts true [samplePoll "oops", samplePoll sampleBody] =
      ⟨[], some .decode⟩ := by
    simp [runProcessingLoop, runLoop, samplePoll, receiveProcessing, readFields, unread, bind,
      Except.bind]
  have workflow : runWorkflowLoop sampleTexts [samplePoll "oops", samplePoll sampleBody] =
      ⟨[], some .decode⟩ := by
    simp [runWorkflowLoop, runLoop, samplePoll, receiveWorkflow, readFields, unread, bind,
      Except.bind]
  simp [ProcessingSurvives, WorkflowSurvives, processing, workflow, Outcome.Survives]

end AgreementIntelligence.Worker
