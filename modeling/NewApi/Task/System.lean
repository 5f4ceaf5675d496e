import NewApi.Lib.Runs
import NewApi.Task.Polling

/-!
# Pollers, sweepers and dispatchers

A poller and a sweeper read the row and work from their copy. A dispatcher takes the lease of a
deferred task, reads the row and submits the task. Whoever wins its write goes on to the billing
calls, which move funds first and store the quota after that. The steps of the workers come in
any order, and what a worker has in memory between its steps is its phase.

`charged` and `credited` are what was taken for this task and what was given back. A subscription
takes a credit off its used amount, which does not go below zero.
-/

namespace NewApi

/-! ## Deferred submissions -/

/-- `taskdto.TaskError`. -/
structure TaskError where
  statusCode : Nat
  noRetry : Bool
  (message code : String)
deriving DecidableEq

/-- `relay.TaskSubmitResult`. -/
structure TaskSubmitResult where
  (upstreamTaskId taskData : String)
  quota : Int
  immediate : Option TaskInfo
  pluginState : String
deriving DecidableEq

/-- `deferredTaskErrorRetryable`. -/
def deferredTaskErrorRetryable (error : TaskError) : Bool :=
  !error.noRetry &&
    decide (error.statusCode = 408 ∨ error.statusCode = 429 ∨ 500 ≤ error.statusCode)

def deferredDispatchMaxAttempts : Nat := 3

/-- `deferredTaskFailureReason`. -/
def deferredTaskFailureReason (error : TaskError) : String :=
  let message := Text.trimSpace error.message.toList
  let code := Text.trimSpace error.code.toList
  if message ≠ [] then String.ofList message
  else if code ≠ [] then String.ofList code
  else "deferred task submission failed"

/-- The part of `applyDeferredTaskResult` for a result that is there at once. -/
def applyImmediate (cfg : PollConfig) (now : Int) (t : Task) (info : TaskInfo) : Task :=
  let status := TaskStatus.ofText info.status
  let ended := status = .success ∨ status = .failure
  { t with
    status := status
    progress := if ended then "100%" else if info.progress = "" then "10%" else info.progress
    finishTime := if ended then now else t.finishTime
    failReason := if status = .failure then info.reason else t.failReason
    privateData := { t.privateData with
      resultUrl := if info.url ≠ "" then info.url
        else if status = .success then cfg.proxyUrl t.taskId
        else t.privateData.resultUrl } }

/-- `applyDeferredTaskResult`. -/
def applyDeferredTaskResult (cfg : PollConfig) (now : Int) (copy : Task)
    (result : TaskSubmitResult) : Task :=
  let t := { copy with
    status := .submitted
    progress := "10%"
    startTime := orNow copy.startTime now
    data := result.taskData
    privateData := { copy.privateData with
      upstreamTaskId := result.upstreamTaskId
      deferredRequest := none
      pluginState := if result.pluginState ≠ "" then result.pluginState
        else copy.privateData.pluginState } }
  match result.immediate with
  | none => t
  | some info => applyImmediate cfg now t info

/-- The billing calls after a submission that was stored. -/
def submissionBilling (t : Task) (result : TaskSubmitResult) : List BillingOp :=
  (if result.quota ≠ t.quota then [.recalculate result.quota] else []) ++
    (if t.status = .failure then [.refund] else [])

/-! ## The system -/

namespace Tasks

/-- Where a worker is. -/
inductive Phase
  | idle
  | polling (copy : Task)
  | sweeping (copy : Task)
  | claimed (owner : String)
  | dispatching (owner : String) (copy : Task)
  /-- These billing calls are next. A poller goes on with its copy after them. -/
  | billing (poller : Bool) (copy : Task) (ops : List BillingOp)
  | storing (poller : Bool) (copy : Task) (ops : List BillingOp)
deriving DecidableEq

/-- The worker is between the two steps of a billing call. -/
def Phase.isStoring : Phase → Bool
  | .storing _ _ _ => true
  | _ => false

structure System where
  row : Task
  workers : Nat → Phase
  (charged credited : Nat)

def System.withPhase (s : System) (id : Nat) (phase : Phase) : System :=
  { s with workers := Function.update s.workers id phase }

/-! ## Billing -/

/-- What the funding source of the task takes of a credit. -/
def credit (t : Task) (amount used : Nat) : Nat :=
  if t.isSubscription then min amount used else amount

/-- `taskAdjustFunding` from the quota of the copy to another one. -/
def System.adjustFunding (s : System) (t : Task) (target used : Nat) : System :=
  { s with
    charged := s.charged + (target - t.quota)
    credited := s.credited + credit t (t.quota - target) used }

/-- The quota that a billing call leaves, if it does anything. -/
def billingTarget (t : Task) (op : BillingOp) : Option Nat :=
  if t.isAppManaged then none
  else
    match op with
    | .refund => if t.quota = 0 then none else some 0
    | .recalculate actual =>
      if actual < 0 ∨ actual = t.quota then none else some actual.toNat

/-- What the environment decides about a step of a billing call. -/
structure BillEnv where
  (fundingOk quotaOk : Bool)
  used : Nat

/-- A step of `RefundTaskQuota` or of `RecalculateTaskQuota`. -/
def billStep (id : Nat) (env : BillEnv) (s : System) : System :=
  match s.workers id with
  | .billing poller copy [] => s.withPhase id (if poller then .polling copy else .idle)
  | .billing poller copy (op :: ops) =>
    match billingTarget copy op with
    | none => s.withPhase id (.billing poller copy ops)
    | some target =>
      if env.fundingOk then
        (s.adjustFunding copy target env.used).withPhase id
          (.storing poller { copy with quota := target } ops)
      else s.withPhase id (.billing poller copy ops)
  | .storing poller copy ops =>
    { s with row := if env.quotaOk then s.row.updateQuota copy.quota else s.row }.withPhase id
      (.billing poller copy ops)
  | _ => s

/-! ## Polling and sweeping -/

def System.applyUpdate (s : System) (id : Nat) (poller dbOk : Bool) (u : PollUpdate) : System :=
  match u.fromStatus with
  | none => s.withPhase id (.billing poller u.copy u.won)
  | some fromStatus =>
    match if dbOk then Task.updateWithStatus fromStatus u.copy s.row else none with
    | some row => { s with row }.withPhase id (.billing poller u.copy u.won)
    | none => s.withPhase id (.billing poller u.copy u.lost)

variable (cfg : PollConfig)

/-- A polling pass comes to the task. After an unguarded failure it does not come
back to it. -/
def pollStep (id : Nat) (outcome : PollOutcome) (now : Int) (dbOk : Bool) (s : System) : System :=
  match s.workers id with
  | .polling copy =>
    match outcome.bulkFailure copy with
    | some reason =>
      { s with row := if dbOk then s.row.bulkFail reason else s.row }.withPhase id .idle
    | none => s.applyUpdate id true dbOk (outcome.update cfg now copy)
  | _ => s

def sweepStep (id : Nat) (now : Int) (dbOk : Bool) (s : System) : System :=
  match s.workers id with
  | .sweeping copy => s.applyUpdate id false dbOk (sweepTimedOutTask cfg now copy)
  | _ => s

/-! ## Dispatching -/

/-- `ClaimDeferredTask`, its update. -/
def claimStep (id : Nat) (owner : String) (now lockUntil : Int) (dbOk : Bool) (s : System) :
    System :=
  match s.workers id with
  | .idle =>
    match if dbOk then s.row.claimDeferred owner now lockUntil else none with
    | some row => { s with row }.withPhase id (.claimed owner)
    | none => s
  | _ => s

/-- `ClaimDeferredTask`, its read. -/
def reloadStep (id : Nat) (dbOk : Bool) (s : System) : System :=
  match s.workers id with
  | .claimed owner =>
    if dbOk ∧ s.row.dispatchOwner = owner then s.withPhase id (.dispatching owner s.row)
    else s.withPhase id .idle
  | _ => s

/-- What a dispatcher writes after a submission, and what follows it. -/
def dispatchWrite (owner : String) (copy : Task) (now : Int) (row : Task) :
    Except TaskError TaskSubmitResult → Option (Task × Phase)
  | .error error =>
    let reason := deferredTaskFailureReason error
    if deferredTaskErrorRetryable error ∧ copy.dispatchAttempts < deferredDispatchMaxAttempts then
      (row.requeueDeferred owner reason).map fun row => (row, .idle)
    else
      let t := copy.failedDeferred reason now
      (Task.failDeferred owner reason t row).map fun row => (row, .billing false t [.refund])
  | .ok result =>
    let t := applyDeferredTaskResult cfg now copy result
    (Task.completeDeferred owner t row).map fun row =>
      (row, .billing false t (submissionBilling t result))

/-- The rest of `deferredTaskDispatchHandler.Run` for one task. -/
def dispatchStep (id : Nat) (outcome : Except TaskError TaskSubmitResult) (now : Int) (dbOk : Bool)
    (s : System) : System :=
  match s.workers id with
  | .dispatching owner copy =>
    match if dbOk then dispatchWrite cfg owner copy now s.row outcome else none with
    | some (row, phase) => { s with row }.withPhase id phase
    | none => s.withPhase id .idle
  | _ => s

/-! ## Steps -/

inductive Action
  | read (id : Nat)
  | readTimedOut (id : Nat) (cutoff : Int)
  | poll (id : Nat) (outcome : PollOutcome) (now : Int) (dbOk : Bool)
  | sweep (id : Nat) (now : Int) (dbOk : Bool)
  | claim (id : Nat) (owner : String) (now lockUntil : Int) (dbOk : Bool)
  | reload (id : Nat) (dbOk : Bool)
  | dispatch (id : Nat) (outcome : Except TaskError TaskSubmitResult) (now : Int) (dbOk : Bool)
  | bill (id : Nat) (env : BillEnv)
  | leave (id : Nat)

def step (s : System) : Action → System
  | .read id =>
    match s.workers id with
    | .idle => if s.row.unfinishedSync then s.withPhase id (.polling s.row) else s
    | _ => s
  | .readTimedOut id cutoff =>
    match s.workers id with
    | .idle => if s.row.timedOut cutoff then s.withPhase id (.sweeping s.row) else s
    | _ => s
  | .poll id outcome now dbOk => pollStep cfg id outcome now dbOk s
  | .sweep id now dbOk => sweepStep cfg id now dbOk s
  | .claim id owner now lockUntil dbOk => claimStep id owner now lockUntil dbOk s
  | .reload id dbOk => reloadStep id dbOk s
  | .dispatch id outcome now dbOk => dispatchStep cfg id outcome now dbOk s
  | .bill id env => billStep id env s
  | .leave id =>
    match s.workers id with
    | .polling _ => s.withPhase id .idle
    | _ => s

/-- The task is submitted and charged, and nobody works on it. -/
structure Initial (s : System) : Prop where
  idle : ∀ id, s.workers id = .idle
  charged : s.charged = s.row.quota
  credited : s.credited = 0

def plainConfig : PollConfig where
  maxFailures := 3
  timeoutMinutes := 60
  proxyUrl taskId := "/v1/videos/" ++ taskId
  pricing := ⟨fun _ _ => none, fun _ _ => 0, fun _ _ => none⟩

def plainTask : Task where
  taskId := "task_a"
  quota := 100
  status := .submitted
  failReason := ""
  submitTime := 1800000000
  startTime := 0
  finishTime := 0
  progress := "10%"
  executionMode := .plain
  dispatchStatus := .none
  dispatchOwner := ""
  dispatchLockUntil := 0
  dispatchAttempts := 0
  dispatchError := ""
  privateData := ⟨"up", "", some .wallet, 0, false, false, none, "", 0⟩
  data := ""

def untouched (t : Task) : System := ⟨t, fun _ => .idle, t.quota, 0⟩

theorem untouched_initial (t : Task) : Initial (untouched t) := ⟨fun _ => rfl, rfl, rfl⟩

end Tasks

end NewApi
