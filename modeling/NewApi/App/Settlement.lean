import NewApi.App.Execution

/-!
# Acceptance, observation and settlement of executions

What happens to an execution after its claim. `Call` lists the transactions on the
tables of `App.Execution`.
-/

namespace NewApi.App

open Checked

/-! ## Acceptance and observation -/

/-- The text fits a column and has no blanks at its ends. -/
def trimmedWithin (text : String) (limit : Nat) : Bool :=
  text.utf8ByteSize ≤ limit ∧ Text.trimSpace text.toList = text.toList

def ProviderState.isObserved (state : ProviderState) : Bool :=
  state ∈ [.queued, .running, .succeeded, .failed, .cancelled]

variable (db : Db)

/-- `RecordAppTaskAcceptanceTx`. -/
def recordAppTaskAcceptance (executionID : Nat) (providerID : String) (state : ProviderState) :
    Except String Db := do
  refuse (¬ trimmedWithin providerID 255 ∨ (providerID = "" ∧ state ≠ .unknown) ∨
    (providerID ≠ "" ∧ ¬ state.isObserved)) "invalid_provider_observation"
  let e ← found (db.executions.find executionID) recordNotFound
  refuse (e.kind ≠ .task) "invalid_execution_kind"
  if e.providerAccepted then do
    refuse (e.providerTaskID ≠ providerID) "provider_identity_conflict"
    .ok db
  else do
    refuse (e.status ≠ .dispatching ∧ e.status ≠ .acceptanceUnknown) "invalid_state_transition"
    if providerID = "" then
      .ok { db with executions := db.executions.save { e with status := .acceptanceUnknown } }
    else do
      let tasks ← found (db.tasks.insert
        { taskID := e.taskID, userID := e.scope.userID, channelID := e.selection.channelID
          upstreamTaskID := providerID, quota := e.reservedQuota, status := state }) "duplicate key"
      .ok { db with
        tasks
        executions := db.executions.save { e with
          providerTaskID := providerID, providerAccepted := true, status := .accepted
          providerState := state } }

/-- Whether a lease row may be claimed. -/
def Lease.isDue (l : Lease) (now : Int) : Bool :=
  0 < l.nextAttemptAt ∧ l.nextAttemptAt ≤ now ∧ l.leaseExpiresAt ≤ now

/-- The first row in the order `next_attempt_at, execution_id`. -/
def earliest : List Lease → Option Lease
  | [] => none
  | l :: ls =>
    match earliest ls with
    | none => some l
    | some m =>
      if m.nextAttemptAt < l.nextAttemptAt ∨
          (m.nextAttemptAt = l.nextAttemptAt ∧ m.executionID < l.executionID) then some m
      else some l

/-- The transaction of `ClaimAppTaskReconcile`. Seconds for the clock and the duration. -/
def claimAppTaskReconcile (owner : String) (now duration : Int) :
    Except String (Option (Execution × Lease) × Db) := do
  refuse (owner = "" ∨ ¬ trimmedWithin owner 64 ∨ now ≤ 0 ∨ duration < 1 ∨ 300 < duration)
    "invalid_reconcile_lease"
  match earliest (db.leases.rows.filter fun l => l.isDue now) with
  | none => .ok (none, db)
  | some l => do
    refuse (l.leaseEpoch = 9223372036854775807) "reconcile_epoch_exhausted"
    let e ← found (db.executions.find l.executionID) recordNotFound
    if e.kind ≠ .task ∨ e.billingState = .settled then
      .ok (none, { db with leases := db.leases.save { l with nextAttemptAt := 0 } })
    else
      let l := { l with
        leaseOwner := owner, leaseEpoch := l.leaseEpoch + 1, leaseExpiresAt := now + duration }
      .ok (some (e, l), { db with leases := db.leases.save l })

/-- The lease is the one of the row and has not run out. -/
def Lease.holds (lease current : Lease) (now : Int) : Bool :=
  lease.leaseOwner ≠ "" ∧ current.leaseOwner = lease.leaseOwner ∧
    current.leaseEpoch = lease.leaseEpoch ∧ now < current.leaseExpiresAt

/-- The row given back, due again at a time. -/
def Lease.released (l : Lease) (nextAttemptAt : Int) : Lease :=
  { l with leaseOwner := "", leaseExpiresAt := 0, nextAttemptAt }

def leaseLost : String := "app task lease lost"

variable (e : Execution)

/-- The statuses of the projection, by an update that matches no row without one. -/
def Db.projectStatus (state : ProviderState) : Table Projection.taskID :=
  match db.tasks.find e.taskID with
  | some t =>
    if t.userID = e.scope.userID then db.tasks.save { t with status := state } else db.tasks
  | none => db.tasks

/-- `RecordAppTaskObservationTx`, without a state when `state` is empty. -/
def recordAppTaskObservation (lease : Lease) (state : Option ProviderState)
    (observationError : String) (now : Int) : Except String Db := do
  refuse (state ∉ [none, some .queued, some .running] ∨ 128 < observationError.utf8ByteSize)
    "invalid_provider_observation"
  let e ← found (db.executions.find lease.executionID) recordNotFound
  refuse (e.kind ≠ .task) "invalid_execution_kind"
  let current ← found (db.leases.find lease.executionID) recordNotFound
  refuse (¬ lease.holds current now) leaseLost
  let leases := db.leases.save { current.released (now + 30) with
    lastObservationError := observationError }
  match state with
  | none => .ok { db with leases }
  | some state => do
    refuse (¬ e.providerAccepted ∨ e.providerEvidenceHash ≠ none) "invalid_state_transition"
    .ok { db with
      leases
      executions := db.executions.save { e with providerState := state }
      tasks := db.projectStatus e state }

/-! ## Settlement -/

variable (raw : JsonText)

/-- One JSON text of the evidence of a task in canonical form. -/
def canonicalEvidence : Option JsonText :=
  if raw.size = 0 then some raw
  else if maxJSON < raw.size then none
  else raw.value.map fun value => marshal value.normal

/-- The evidence that `FinalizeAppTaskTx` hashes and stores. -/
def TaskTerminal.canonical (t : TaskTerminal) : Option TaskTerminal :=
  if t.providerState ∉ [.succeeded, .failed, .cancelled] ∨ t.finalQuota < 0 ∨
      maxInt32 < t.finalQuota then none
  else match canonicalEvidence t.usageJSON, canonicalEvidence t.artifactsJSON,
      canonicalEvidence t.resultJSON with
    | some usageJSON, some artifactsJSON, some resultJSON =>
      some { t with usageJSON, artifactsJSON, resultJSON }
    | _, _, _ => none

/-- The row with the evidence of the provider. -/
def Execution.withEvidence (t : TaskTerminal) (billing : BillingState) : Execution :=
  { e with
    providerState := t.providerState, billingState := billing, finalQuota := t.finalQuota
    usageJSON := t.usageJSON, artifactsJSON := t.artifactsJSON, resultJSON := t.resultJSON
    providerEvidenceHash := some (.task e.id t) }

/-- What both finalizers end with: the counters, the marker and the outbox row. -/
def Db.close (final : Int) (digest : Digest) (missing : String) : Except String Db := do
  let db ← found (db.count e.selection.channelID final) missing
  let settlements ← found (db.settlements.insert
    { executionID := e.id, fundingSource := e.fundingSource, fundingRef := e.fundingRef
      reservedQuota := e.reservedQuota, finalQuota := final, terminalEvidenceHash := digest })
    "duplicate key"
  let outbox ← found (db.outbox.insert { executionID := e.id, kind := e.kind }) "duplicate key"
  .ok { db with settlements, outbox }

/-- The part of `FinalizeAppTaskTx` after its checks: whether the funding was settled. -/
def storeTerminal (current : Lease) (sub : Option Subscription) (t : TaskTerminal) (now : Int) :
    Except String (Bool × Db) := do
  let task ← found (db.tasks.find e.taskID) recordNotFound
  refuse (task.userID ≠ e.scope.userID) recordNotFound
  refuse (task.channelID ≠ e.selection.channelID ∨ task.upstreamTaskID ≠ e.providerTaskID)
    "invalid_task_projection"
  match settleAppTaskFunding db e sub t.finalQuota with
  | none => .ok (false, { db with
      executions := db.executions.save (e.withEvidence t .settlementPending)
      tasks := db.tasks.save { task with status := t.providerState, quota := e.reservedQuota }
      leases := db.leases.save (current.released (now + 30)) })
  | some db => do
    let db ← Db.close { db with
        executions := db.executions.save (e.withEvidence t .settled)
        tasks := db.tasks.save { task with status := t.providerState, quota := t.finalQuota }
        leases := db.leases.save (current.released 0) }
      e t.finalQuota (.task e.id t) "settlement_channel_missing"
    .ok (true, db)

/-- `FinalizeAppTaskTx`: whether the execution is settled. -/
def finalizeAppTask (lease : Lease) (terminal : TaskTerminal) (now : Int) :
    Except String (Bool × Db) := do
  refuse (lease.executionID = 0) "invalid_terminal_evidence"
  let t ← found terminal.canonical "invalid_terminal_evidence"
  let e ← found (db.executions.find lease.executionID) recordNotFound
  refuse (e.kind ≠ .task) recordNotFound
  let sub ← lockAppTaskFunding db e
  refuse (e.reservedQuota < 0 ∨ maxInt32 < e.reservedQuota) "invalid_funding"
  match db.settlements.find e.id with
  | some marker => do
    refuse (marker.terminalEvidenceHash ≠ .task e.id t) "terminal_evidence_conflict"
    .ok (true, db)
  | none => do
    let current ← found (db.leases.find e.id) recordNotFound
    refuse (¬ lease.holds current now) leaseLost
    refuse (¬ e.providerAccepted ∨ e.providerTaskID = "") "provider_acceptance_unresolved"
    refuse (e.providerEvidenceHash ≠ none ∧ e.providerEvidenceHash ≠ some (.task e.id t))
      "terminal_evidence_conflict"
    storeTerminal db e current sub t now

/-- `canonicalAppResponseJSON`: an object. -/
def canonicalAppResponseJSON : Option JsonText :=
  if raw.size = 0 ∨ maxJSON < raw.size then none
  else match raw.value with
    | some (.object members) => some (marshal (.object members.normal))
    | some .null => some (marshal .null)
    | _ => none

/-- `canonicalOptionalAppResponseJSON`: empty, or a value that is not null. -/
def canonicalOptionalAppResponseJSON : Option JsonText :=
  if raw.size = 0 then some .empty
  else if maxJSON < raw.size then none
  else match raw.value with
    | none | some .null => none
    | some value => some (marshal value.normal)

/-- What `FinalizeAppResponseTx` asks of the facts of a terminal in canonical form. -/
def ResponseTerminal.wellFormed (t : ResponseTerminal) : Bool :=
  if t.isRejected then
    300 ≤ t.httpStatus ∧ t.httpStatus ≤ 599 ∧ t.finalQuota = 0 ∧ t.responseID = "" ∧
      t.providerModel = "" ∧ t.providerStatus = .rejected ∧ t.rawUsageJSON.size = 0 ∧
      t.normalizedUsageJSON.size = 0
  else
    t.httpStatus = 200 ∧ t.responseID ≠ "" ∧ t.responseID.utf8ByteSize ≤ 255 ∧
      t.providerModel ≠ "" ∧ t.providerStatus = .completed ∧ t.rawUsageJSON.size ≠ 0 ∧
      t.normalizedUsageJSON.size ≠ 0

/-- The evidence that `FinalizeAppResponseTx` hashes and stores. -/
def ResponseTerminal.canonical (t : ResponseTerminal) : Option ResponseTerminal :=
  if t.finalQuota < 0 ∨ maxInt32 < t.finalQuota ∨ (¬ t.isRejected ∧ t.body = "") ∨
      maxJSON < t.body.utf8ByteSize ∨ t.bodySHA256 ≠ t.body then none
  else match canonicalAppResponseJSON t.safeHeadersJSON,
      canonicalOptionalAppResponseJSON t.rawUsageJSON,
      canonicalOptionalAppResponseJSON t.normalizedUsageJSON with
    | some safeHeadersJSON, some rawUsageJSON, some normalizedUsageJSON =>
      let t := { t with safeHeadersJSON, rawUsageJSON, normalizedUsageJSON }
      if t.wellFormed then some t else none
    | _, _, _ => none

/-- The row of a captured or rejected response. -/
def Execution.answered (t : ResponseTerminal) : Execution :=
  { e with
    status := if t.isRejected then .rejected else .captured, providerState := t.providerStatus
    billingState := .settled, finalQuota := t.finalQuota, usageJSON := t.normalizedUsageJSON
    providerEvidenceHash := some (.response e.id t) }

/-- `FinalizeAppResponseTx`. -/
def finalizeAppResponse (executionID : Nat) (terminal : ResponseTerminal) (now : Int) :
    Except String (ResponseResult × Db) := do
  refuse (executionID = 0 ∨ now ≤ 0) "invalid_terminal_evidence"
  let t ← found terminal.canonical "invalid_terminal_evidence"
  let e ← found (db.executions.find executionID) recordNotFound
  refuse (e.kind ≠ .response) recordNotFound
  let sub ← lockAppTaskFunding db e
  refuse (e.reservedQuota < 0 ∨ maxInt32 < e.reservedQuota ∨ e.reservedQuota < t.finalQuota ∨
    (¬ t.isRejected ∧ t.providerModel ≠ e.selection.actualModel)) "invalid_terminal_evidence"
  match db.settlements.find e.id with
  | some marker => do
    refuse (marker.terminalEvidenceHash ≠ .response e.id t) "terminal_evidence_conflict"
    let result ← found (db.results.find e.id) recordNotFound
    .ok (result, db)
  | none => do
    refuse (e.status ≠ .dispatching ∨ e.billingState ≠ .reserved) "invalid_state_transition"
    let db ← found (settleAppTaskFunding db e sub t.finalQuota) "invalid_funding"
    let results ← found (db.results.insert ⟨e.id, t⟩) "duplicate key"
    let db ← Db.close { db with results, executions := db.executions.save (e.answered t) }
      e t.finalQuota (.response e.id t) recordNotFound
    .ok (⟨e.id, t⟩, db)

/-- `MarkAppResponseOutcomeUnknownTx`. -/
def markAppResponseOutcomeUnknown (executionID : Nat) (now : Int) : Except String Db := do
  refuse (executionID = 0 ∨ now ≤ 0) "invalid_execution"
  let e ← found (db.executions.find executionID) recordNotFound
  refuse (e.kind ≠ .response) "invalid_execution_kind"
  match e.status with
  | .captured | .rejected | .acceptanceUnknown => .ok db
  | .dispatching => .ok { db with
      executions := db.executions.save { e with status := .acceptanceUnknown } }
  | .accepted => .error "invalid_state_transition"

/-! ## Calls -/

inductive Call
  | claimTask (grantID : String) (r : Request) (taskID : String) (now : Int)
  | claimResponse (grantID : String) (r : Request) (taskID : String) (now : Int)
  | lookupResponse (grantID submissionHash : String)
  | acceptance (executionID : Nat) (providerID : String) (state : ProviderState)
  | claimReconcile (owner : String) (now duration : Int)
  | observation (lease : Lease) (state : Option ProviderState) (err : String) (now : Int)
  | finalizeTask (lease : Lease) (terminal : TaskTerminal) (now : Int)
  | finalizeResponse (executionID : Nat) (terminal : ResponseTerminal) (now : Int)
  | markUnknown (executionID : Nat) (now : Int)

/-- The tables a call commits. -/
def Call.perform : Call → Except String Db
  | .claimTask grantID r taskID now => (claimAppTaskExecution db grantID r taskID now).map (·.2.2)
  | .claimResponse grantID r taskID now =>
    (claimAppResponseExecution db grantID r taskID now).map (·.2.2.2)
  | .lookupResponse grantID hash => (lookupAppResponseExecution db grantID hash).map fun _ => db
  | .acceptance id providerID state => recordAppTaskAcceptance db id providerID state
  | .claimReconcile owner now duration => (claimAppTaskReconcile db owner now duration).map (·.2)
  | .observation lease state err now => recordAppTaskObservation db lease state err now
  | .finalizeTask lease terminal now => (finalizeAppTask db lease terminal now).map (·.2)
  | .finalizeResponse id terminal now => (finalizeAppResponse db id terminal now).map (·.2)
  | .markUnknown id now => markAppResponseOutcomeUnknown db id now

/-- One attempt of `RunAppPluginTransaction`: a transaction that the database commits, or
rolls back although its body succeeded. -/
structure Attempt where
  call : Call
  commits : Bool

def Db.attempt (a : Attempt) : Db :=
  match a.call.perform db with
  | .ok db' => if a.commits then db' else db
  | .error _ => db

end NewApi.App
