import NewApi.Lib.Checked
import NewApi.Lib.Json
import NewApi.Model.Quota
import NewApi.Model.Subscription

/-!
# Executions of apps

An app runs a request under a grant. The claims reserve the quota and create the
execution row before the provider is called. A response execution is finalized by its
caller, a task execution is observed under a lease and finalized with the evidence of
the provider (`App.Settlement`).

Every function is the body of one transaction, which an error rolls back. A digest
stands for what it hashes.
-/

namespace NewApi.App

open Checked

/-! ## Rows -/

/-- Whose work it is, as a grant fixes it. -/
structure Scope where
  (appKey installationID appSessionID subject : String)
  userID : Int
  (runID executionRequestID operation : String)
deriving DecidableEq

/-- What `logical_hash` hashes. -/
structure Logical where
  (installationID subject runID executionRequestID operation : String)
deriving DecidableEq

def Scope.logical (s : Scope) : Logical :=
  ⟨s.installationID, s.subject, s.runID, s.executionRequestID, s.operation⟩

inductive FundingSource
  | wallet
  | subscription
  | other (text : String)
deriving DecidableEq

/-- The model, channel and plugin of an execution. -/
structure Selection where
  (publicModel actualModel : String)
  channelID : Int
  (group pluginKey pluginVersion pluginSHA256 protocol : String)
deriving DecidableEq

structure Credential where
  (connectionDigest credentialDigest : String)
  credentialIndex : Int
deriving DecidableEq

inductive ModelKind
  | taskBacked
  | nativeResponse
  | other (text : String)
deriving DecidableEq

/-- `AppExecutionModel`, a model that a grant allows. -/
structure ExecutionModel where
  executionKind : ModelKind
  selection : Selection
  credential : Credential
  (channelType apiType : Int)
  requestProfile : String
deriving DecidableEq

/-- `AppExecutionFunding`, the funding that a grant was given with. -/
structure Funding where
  source : FundingSource
  reference : String
  (subscriptionID periodStart periodEnd periodReset : Int)
deriving DecidableEq

structure Grant where
  grantID : String
  scope : Scope
  /-- `ModelsJSON`, unless it cannot be read. -/
  models : Option (List ExecutionModel)
  fundingSource : FundingSource
  fundingRef : String
  /-- `FundingSnapshotJSON`, unless it cannot be read. -/
  fundingSnapshot : Option Funding
  expiresAt : Int
deriving DecidableEq

/-- A JSON column or argument: its size in bytes and what it decodes to. -/
structure JsonText where
  size : Nat
  value : Option Json
deriving DecidableEq

def JsonText.empty : JsonText := ⟨0, none⟩

/-- What `common.Marshal` prints. -/
def marshal (value : Json) : JsonText := ⟨value.size, some value⟩

inductive Kind
  | task
  | response
deriving DecidableEq

inductive Status
  | dispatching
  | acceptanceUnknown
  | accepted
  | captured
  | rejected
deriving DecidableEq

inductive ProviderState
  | unknown
  | queued
  | running
  | succeeded
  | failed
  | cancelled
  | completed
  | rejected
  | other (text : String)
deriving DecidableEq

inductive BillingState
  | reserved
  | settlementPending
  | settled
deriving DecidableEq

/-- `AppTaskTerminal`. -/
structure TaskTerminal where
  providerState : ProviderState
  finalQuota : Int
  (usageJSON artifactsJSON resultJSON : JsonText)
deriving DecidableEq

/-- `AppResponseTerminal`. -/
structure ResponseTerminal where
  isRejected : Bool
  httpStatus : Int
  safeHeadersJSON : JsonText
  (body bodySHA256 responseID providerModel : String)
  providerStatus : ProviderState
  (rawUsageJSON normalizedUsageJSON : JsonText)
  finalQuota : Int
deriving DecidableEq

/-- What the digest of terminal evidence hashes. -/
inductive Digest
  | task (executionID : Nat) (terminal : TaskTerminal)
  | response (executionID : Nat) (terminal : ResponseTerminal)
deriving DecidableEq

/-- The columns of an execution that only its claim writes. -/
structure Claimed where
  id : Nat
  kind : Kind
  logical : Logical
  (taskID grantID : String)
  scope : Scope
  submissionHash : String
  selection : Selection
  credential : Credential
  fundingSource : FundingSource
  fundingRef : String
  (subscriptionID periodStart periodEnd periodReset reservedQuota : Int)
  priceSnapshot : ExecutionModel
deriving DecidableEq

/-- `AppTaskExecution`. -/
structure Execution extends Claimed where
  providerTaskID : String := ""
  providerAccepted : Bool := false
  status : Status := .dispatching
  providerState : ProviderState := .unknown
  billingState : BillingState := .reserved
  finalQuota : Int := 0
  usageJSON : JsonText := .empty
  artifactsJSON : JsonText := .empty
  resultJSON : JsonText := .empty
  providerEvidenceHash : Option Digest := none
deriving DecidableEq

def Execution.key (e : Execution) : Nat := e.id

/-- `AppTaskReconcile`. -/
structure Lease where
  executionID : Nat
  nextAttemptAt : Int
  leaseOwner : String := ""
  leaseEpoch : Int := 0
  leaseExpiresAt : Int := 0
  lastObservationError : String := ""
deriving DecidableEq

/-- The `Task` row of an accepted execution, which is `app_managed`. -/
structure Projection where
  taskID : String
  (userID channelID : Int)
  upstreamTaskID : String
  quota : Int
  status : ProviderState
  key : String := ""
  tokenID : Int := 0
deriving DecidableEq

/-- `AppTaskSettlement`. -/
structure Settlement where
  executionID : Nat
  fundingSource : FundingSource
  fundingRef : String
  (reservedQuota finalQuota : Int)
  terminalEvidenceHash : Digest
deriving DecidableEq

/-- `AppTaskOutbox`. Its event id is the digest of the kind and the execution. -/
structure Outbox where
  executionID : Nat
  kind : Kind
deriving DecidableEq

/-- `AppResponseResult`, the captured columns of the terminal. -/
structure ResponseResult where
  executionID : Nat
  terminal : ResponseTerminal
deriving DecidableEq

structure User where
  id : Int
  enabled : Bool
  (quota usedQuota : Int)
  requestCount : Nat
deriving DecidableEq

structure Subscription where
  (id userID planID : Int)
  active : Bool
  (startTime endTime lastResetTime nextResetTime amountTotal amountUsed : Int)
deriving DecidableEq

structure Channel where
  (id usedQuota : Int)
deriving DecidableEq

/-- The tables, with the one user whose quota the grants spend. -/
structure Db where
  mode : QuotaMode
  user : User
  subscriptions : Table Subscription.id
  plans : Table SubscriptionPlan.id
  channels : Table Channel.id
  grants : Table Grant.grantID
  executions : Table Execution.key
  nextID : Nat
  leases : Table Lease.executionID
  tasks : Table Projection.taskID
  settlements : Table Settlement.executionID
  outbox : Table Outbox.executionID
  results : Table ResponseResult.executionID

def recordNotFound : String := "record not found"

def maxInt32 : Int := 2147483647

/-! ## Funding -/

variable (db : Db)

/-- The wallet with an amount taken from it. -/
def Db.takeWallet (amount : Int) : Db :=
  { db with user := { db.user with quota := db.user.quota - amount } }

/-- The subscription with an amount used of it. -/
def Db.takeSubscription (sub : Subscription) (amount : Int) : Db :=
  { db with subscriptions :=
      db.subscriptions.save { sub with amountUsed := sub.amountUsed + amount } }

/-- The subscription of the id, if it is the user's. -/
def Db.subscriptionOf (id userID : Int) : Option Subscription :=
  (db.subscriptions.find id).filter fun sub => sub.userID = userID

/-- The subscription is in the period of the funding, which has no reset. -/
def Subscription.periodHolds (sub : Subscription) (plan : SubscriptionPlan) (funding : Funding)
    (now : Int) : Bool :=
  sub.active ∧ sub.startTime ≤ now ∧ now < sub.endTime ∧ sub.startTime = funding.periodStart ∧
    sub.endTime = funding.periodEnd ∧ sub.lastResetTime = funding.periodReset ∧
    plan.quotaResetPeriod = .never ∧ sub.nextResetTime = 0

def Subscription.covers (sub : Subscription) (amount : Int) : Bool :=
  0 ≤ sub.amountUsed ∧ 0 ≤ sub.amountTotal ∧ sub.amountUsed ≤ maxWalletQuota - amount ∧
    (0 < sub.amountTotal →
      sub.amountUsed ≤ sub.amountTotal ∧ amount ≤ sub.amountTotal - sub.amountUsed)

/-- `ReserveAppExecutionFundingTx`. -/
def reserveAppExecutionFunding (grant : Grant) (amount now : Int) :
    Except String (Funding × Db) := do
  let funding ← found grant.fundingSnapshot "invalid_funding"
  refuse (amount < 0 ∨ maxInt32 < amount ∨ funding.source ≠ grant.fundingSource ∨
    funding.reference ≠ grant.fundingRef) "invalid_funding"
  refuse (grant.scope.userID ≠ db.user.id) recordNotFound
  refuse (¬ db.user.enabled) "identity_inactive"
  match funding.source with
  | .wallet => do
    refuse (db.mode.redisEnabled ∨ db.mode.batchUpdateEnabled) "wallet_accounting_unavailable"
    refuse (db.user.quota < 0 ∨ maxWalletQuota < db.user.quota ∨ db.user.quota < amount)
      "insufficient_quota"
    .ok (funding, db.takeWallet amount)
  | .subscription => do
    let sub ← found (db.subscriptionOf funding.subscriptionID db.user.id) recordNotFound
    let plan ← found (db.plans.find sub.planID) recordNotFound
    refuse (¬ sub.periodHolds plan funding now) "funding_period_changed"
    refuse (¬ sub.covers amount) "insufficient_quota"
    .ok (funding, db.takeSubscription sub amount)
  | .other _ => .error "invalid_funding"

/-- `lockAppTaskFundingTx`, the subscription of the execution unless the wallet pays. -/
def lockAppTaskFunding (e : Execution) : Except String (Option Subscription) := do
  refuse (e.scope.userID ≠ db.user.id) recordNotFound
  match e.fundingSource with
  | .wallet => .ok none
  | .subscription => do
    refuse (e.subscriptionID ≤ 0) "invalid_funding"
    let sub ← found (db.subscriptionOf e.subscriptionID e.scope.userID) recordNotFound
    .ok (some sub)
  | .other _ => .error "invalid_funding"

/-- The funding check of `settleAppTaskFundingTx`. -/
def canSettle (e : Execution) (sub : Option Subscription) (final : Int) : Bool :=
  let delta := final - e.reservedQuota
  match e.fundingSource, sub with
  | .wallet, _ =>
    db.user.quota ≤ maxWalletQuota ∧ (0 < delta → delta ≤ db.user.quota) ∧
      (delta < 0 → db.user.quota ≤ maxWalletQuota + delta)
  | _, none => false
  | _, some sub =>
    sub.startTime = e.periodStart ∧ sub.endTime = e.periodEnd ∧
      sub.lastResetTime = e.periodReset ∧ 0 ≤ sub.amountUsed ∧ 0 ≤ sub.amountTotal ∧
      sub.amountUsed ≤ maxWalletQuota ∧ e.reservedQuota ≤ sub.amountUsed ∧
      (0 < delta → sub.amountUsed ≤ maxWalletQuota - delta ∧ (0 < sub.amountTotal →
        sub.amountUsed ≤ sub.amountTotal ∧ delta ≤ sub.amountTotal - sub.amountUsed)) ∧
      (delta < 0 → -delta ≤ sub.amountUsed)

/-- `settleAppTaskFundingTx`, nothing when the funding check fails. -/
def settleAppTaskFunding (e : Execution) (sub : Option Subscription) (final : Int) : Option Db :=
  if canSettle db e sub final then
    match e.fundingSource, sub with
    | .wallet, _ => some (db.takeWallet (final - e.reservedQuota))
    | _, some sub => some (db.takeSubscription sub (final - e.reservedQuota))
    | _, none => none
  else none

/-- What a settlement counts: the user's and the channel's used quota, and the request. -/
def Db.count (channelID final : Int) : Option Db :=
  match db.channels.find channelID with
  | none => none
  | some channel => some { db with
      user := { db.user with
        usedQuota := db.user.usedQuota + final, requestCount := db.user.requestCount + 1 }
      channels := db.channels.save { channel with usedQuota := channel.usedQuota + final } }

/-! ## Claims -/

/-- The columns of a request that a claim reads. -/
structure Request where
  grantID : String
  scope : Scope
  submissionHash : String
  selection : Selection
  credential : Credential
  fundingSource : FundingSource
  reservedQuota : Int
  requestFactsJSON : JsonText
deriving DecidableEq

/-- The request is for the grant. -/
def Request.within (r : Request) (grant : Grant) : Bool :=
  r.grantID = grant.grantID ∧ r.scope = grant.scope ∧ r.submissionHash ≠ ""

/-- The query `logical_hash = ? OR grant_id = ?`, `LIMIT 1`. -/
def Db.existing (grant : Grant) : Option Execution :=
  db.executions.rows.find? fun e => e.logical = grant.scope.logical ∨ e.grantID = grant.grantID

/-- A new row, unless an execution has one of its unique columns. -/
def Db.createExecution (row : Claimed) : Except String (Execution × Db) := do
  refuse (∃ e ∈ db.executions.rows,
    e.logical = row.logical ∨ e.taskID = row.taskID ∨ e.grantID = row.grantID) "duplicate key"
  let e : Execution := { row with id := db.nextID }
  let executions ← found (db.executions.insert e) "duplicate key"
  .ok (e, { db with executions, nextID := db.nextID + 1 })

/-- What both claims end with: the reservation and the row, whose task id is random. -/
def dispatch (kind : Kind) (grant : Grant) (r : Request) (selection : Selection)
    (model : ExecutionModel) (taskID : String) (now : Int) : Except String (Execution × Db) := do
  let (funding, db) ← reserveAppExecutionFunding db grant r.reservedQuota now
  db.createExecution {
    id := 0, kind, logical := grant.scope.logical, taskID, grantID := grant.grantID
    scope := grant.scope, submissionHash := r.submissionHash, selection
    credential := r.credential, fundingSource := grant.fundingSource
    fundingRef := grant.fundingRef, subscriptionID := funding.subscriptionID
    periodStart := funding.periodStart, periodEnd := funding.periodEnd
    periodReset := funding.periodReset, reservedQuota := r.reservedQuota, priceSnapshot := model }

/-- The model that a task request selects. -/
def Request.selectsTask (r : Request) (m : ExecutionModel) : Bool :=
  m.executionKind = .taskBacked ∧ m.selection = r.selection

/-- The model that a response request selects, at OpenAI's channel and API types. -/
def Request.selectsResponse (r : Request) (m : ExecutionModel) : Bool :=
  m.executionKind = .nativeResponse ∧ m.selection.protocol = "openai_responses" ∧
    m.channelType = 1 ∧ m.apiType = 0 ∧ m.requestProfile = "responses.text.v1" ∧
    m.selection.pluginKey = "" ∧ m.selection.pluginVersion = "" ∧
    m.selection.pluginSHA256 = "" ∧ m.selection.publicModel = r.selection.publicModel ∧
    m.selection.actualModel = r.selection.actualModel ∧
    m.selection.channelID = r.selection.channelID ∧ m.selection.group = r.selection.group ∧
    m.credential = r.credential

/-- `ClaimAppTaskExecutionTx`: the execution and whether this call dispatches it. -/
def claimAppTaskExecution (grantID : String) (r : Request) (taskID : String) (now : Int) :
    Except String (Execution × Bool × Db) := do
  let grant ← found (db.grants.find grantID) recordNotFound
  refuse (¬ r.within grant) "scope_denied"
  match db.existing grant with
  | some e => do
    refuse (e.kind ≠ .task ∨ e.submissionHash ≠ r.submissionHash ∨ e.grantID ≠ grantID)
      "idempotency_conflict"
    .ok (e, false, db)
  | none => do
    refuse (grant.expiresAt ≤ now) "execution_grant_expired"
    refuse (r.reservedQuota < 0 ∨ maxInt32 < r.reservedQuota ∨
      r.fundingSource ≠ grant.fundingSource) "invalid_funding"
    let models ← found grant.models "invalid_grant"
    let model ← found (models.find? r.selectsTask) "scope_denied"
    let (e, db) ← dispatch db .task grant r r.selection model taskID now
    let leases ← found (db.leases.insert { executionID := e.id, nextAttemptAt := now })
      "duplicate key"
    .ok (e, true, { db with leases })

/-- `lookupAppResponseExecutionTx`: the execution of the grant with its result. -/
def lookupAppResponse (grant : Grant) (submissionHash : String) :
    Except String (Option (Execution × ResponseResult)) :=
  match db.existing grant with
  | none => .ok none
  | some e => do
    refuse (e.kind ≠ .response ∨ e.submissionHash ≠ submissionHash ∨ e.grantID ≠ grant.grantID)
      "idempotency_conflict"
    match e.status with
    | .captured | .rejected => do
      let result ← found (db.results.find e.id) "execution_outcome_unknown"
      .ok (some (e, result))
    | _ => .error "execution_outcome_unknown"

/-- `LookupAppResponseExecutionTx`. -/
def lookupAppResponseExecution (grantID submissionHash : String) :
    Except String (Option (Execution × ResponseResult)) := do
  refuse (grantID = "" ∨ submissionHash = "") "scope_denied"
  let grant ← found (db.grants.find grantID) recordNotFound
  lookupAppResponse db grant submissionHash

/-- The largest JSON text that is taken, 64 KiB. -/
def maxJSON : Nat := 65536

/-- Whether a text decodes into a map. -/
def JsonText.isMap (text : JsonText) : Bool :=
  match text.value with
  | some (.object _) | some .null => true
  | _ => false

/-- `ClaimAppResponseExecutionTx`: the execution, its result when it is a replay, and whether
this call dispatches it. -/
def claimAppResponseExecution (grantID : String) (r : Request) (taskID : String) (now : Int) :
    Except String (Execution × Option ResponseResult × Bool × Db) := do
  let grant ← found (db.grants.find grantID) recordNotFound
  refuse (¬ r.within grant) "scope_denied"
  match ← lookupAppResponse db grant r.submissionHash with
  | some (e, result) => .ok (e, some result, false, db)
  | none => do
    refuse (grant.expiresAt ≤ now) "execution_grant_expired"
    refuse (r.reservedQuota < 0 ∨ maxInt32 < r.reservedQuota ∨
      r.fundingSource ≠ grant.fundingSource ∨ r.requestFactsJSON.size = 0 ∨
      maxJSON < r.requestFactsJSON.size) "invalid_funding"
    refuse (¬ r.requestFactsJSON.isMap) "invalid_request_facts"
    let models ← found grant.models "invalid_grant"
    let model ← found (models.find? r.selectsResponse) "scope_denied"
    -- The row of a response names no plugin.
    let selection := { r.selection with pluginKey := "", pluginVersion := "", pluginSHA256 := "" }
    let (e, db) ← dispatch db .response grant r selection model taskID now
    .ok (e, none, true, db)

end NewApi.App
