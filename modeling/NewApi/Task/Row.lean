import NewApi.Model.Quota

/-!
# Task rows

An asynchronous task has one row: the quota that was charged for it, its status and progress, and
for a deferred task the lease of its dispatcher. A conditional write is `none` when its condition
does not hold.

`UpdateWithStatus` compares only the status and then stores every column of the copy in memory,
with the quota and the lease as they were when it was read. `TaskBulkUpdateByID` and
`UpdateQuota` compare nothing, and the writes of a dispatcher compare only its lease.
-/

namespace NewApi

/-- A status is any text. The ones the source names have a constructor. -/
inductive TaskStatus
  | notStart
  | submitted
  | queued
  | inProgress
  | failure
  | success
  | cancelled
  | unknown
  | other (text : String)
deriving DecidableEq

namespace TaskStatus

/-- `model.TaskStatus(text)`. -/
def ofText (text : String) : TaskStatus :=
  if text = "NOT_START" then .notStart
  else if text = "SUBMITTED" then .submitted
  else if text = "QUEUED" then .queued
  else if text = "IN_PROGRESS" then .inProgress
  else if text = "FAILURE" then .failure
  else if text = "SUCCESS" then .success
  else if text = "CANCELLED" then .cancelled
  else if text = "UNKNOWN" then .unknown
  else .other text

/-- The statuses that the queries for unfinished tasks leave out. -/
def terminal : TaskStatus → Bool
  | .failure | .success | .cancelled => true
  | _ => false

end TaskStatus

inductive TaskExecutionMode
  | plain
  | deferred
  | appManaged
deriving DecidableEq

inductive TaskDispatchStatus
  | none
  | pending
  | running
  | dispatched
  | failed
deriving DecidableEq

/-- `TaskPrivateData`, as far as polling and billing read it. -/
structure TaskPrivateData where
  (upstreamTaskId resultUrl : String)
  billingSource : Option BillingSource
  subscriptionId : Int
  (tiered perCallBilling : Bool)
  deferredRequest : Option String
  pluginState : String
  pollFailures : Nat
deriving DecidableEq

structure Task where
  taskId : String
  quota : Nat
  status : TaskStatus
  failReason : String
  (submitTime startTime finishTime : Int)
  progress : String
  executionMode : TaskExecutionMode
  dispatchStatus : TaskDispatchStatus
  dispatchOwner : String
  dispatchLockUntil : Int
  dispatchAttempts : Nat
  dispatchError : String
  privateData : TaskPrivateData
  data : String
deriving DecidableEq

namespace Task

variable (t : Task)

/-- `IsAppManaged`. -/
def isAppManaged : Bool := decide (t.executionMode = .appManaged)

/-- `GetUpstreamTaskID`. -/
def getUpstreamTaskId : String :=
  if t.privateData.upstreamTaskId ≠ "" then t.privateData.upstreamTaskId else t.taskId

/-- `taskIsSubscription`. -/
def isSubscription : Bool :=
  decide (t.privateData.billingSource = some .subscription ∧ 0 < t.privateData.subscriptionId)

/-! ## Queries -/

/-- What both queries for unfinished tasks ask. -/
def unfinished : Bool := decide (t.progress ≠ "100%") && !t.isAppManaged && !t.status.terminal

/-- `GetTimedOutUnfinishedTasks` selects the row. -/
def timedOut (cutoff : Int) (t : Task) : Bool := t.unfinished && decide (t.submitTime < cutoff)

/-- `GetAllUnFinishSyncTasks` selects the row. -/
def unfinishedSync : Bool :=
  t.unfinished && decide (t.executionMode ≠ .deferred ∨ t.dispatchStatus = .dispatched)

/-! ## Writes -/

/-- `UpdateWithStatus`: the copy replaces the row. -/
def updateWithStatus (fromStatus : TaskStatus) (copy row : Task) : Option Task :=
  if row.status = fromStatus then some copy else none

/-- `TaskBulkUpdateByID` with the values of a failure. The reason is left alone
when none is given. -/
def bulkFail (reason : Option String) (row : Task) : Task :=
  { row with status := .failure, progress := "100%", failReason := reason.getD row.failReason }

/-- `UpdateQuota`. -/
def updateQuota (quota : Nat) (row : Task) : Task := { row with quota := quota }

/-- `deferredTaskDispatchQuery` selects the row. -/
def dispatchable (now : Int) (row : Task) : Bool :=
  decide (row.executionMode = .deferred) && !row.status.terminal &&
    decide (row.dispatchStatus = .pending ∨
      (row.dispatchStatus = .running ∧ row.dispatchLockUntil < now))

variable (owner : String)

/-- `ClaimDeferredTask`, without the read that follows. -/
def claimDeferred (now lockUntil : Int) (row : Task) : Option Task :=
  if owner ≠ "" ∧ now < lockUntil ∧ row.dispatchable now then
    some { row with
      dispatchStatus := .running
      dispatchOwner := owner
      dispatchLockUntil := lockUntil
      dispatchAttempts := row.dispatchAttempts + 1
      dispatchError := "" }
  else none

/-- The lease that the writes of a dispatcher compare. -/
def dispatchedBy (row : Task) : Bool :=
  decide (row.dispatchStatus = .running ∧ row.dispatchOwner = owner)

/-- `RequeueDeferredTask`. -/
def requeueDeferred (owner reason : String) (row : Task) : Option Task :=
  if row.dispatchedBy owner then
    some { row with
      dispatchStatus := .pending
      dispatchOwner := ""
      dispatchLockUntil := 0
      dispatchError := reason }
  else none

/-- `CompleteDeferredTask`. -/
def completeDeferred (copy row : Task) : Option Task :=
  if row.dispatchedBy owner then
    some { row with
      status := copy.status
      progress := copy.progress
      startTime := copy.startTime
      finishTime := copy.finishTime
      failReason := copy.failReason
      privateData := copy.privateData
      data := copy.data
      dispatchStatus := .dispatched
      dispatchOwner := ""
      dispatchLockUntil := 0
      dispatchError := "" }
  else none

/-- What `FailDeferredTask` makes of the copy in memory. -/
def failedDeferred (reason : String) (now : Int) (copy : Task) : Task :=
  { copy with
    status := .failure
    progress := "100%"
    failReason := reason
    finishTime := now
    privateData := { copy.privateData with deferredRequest := none } }

/-- `FailDeferredTask`, its update. -/
def failDeferred (owner reason : String) (copy row : Task) : Option Task :=
  if row.dispatchedBy owner then
    some { row with
      status := copy.status
      progress := copy.progress
      finishTime := copy.finishTime
      failReason := copy.failReason
      privateData := copy.privateData
      dispatchStatus := .failed
      dispatchOwner := ""
      dispatchLockUntil := 0
      dispatchError := reason }
  else none

end Task

end NewApi
