import NewApi.Lib.Text
import NewApi.Task.Row

/-!
# Polling passes

What a polling pass makes of the answer of the upstream, for one task and its
copy in memory. Every function here is pure. It gives back the changed copy,
the status that the full-row write compares, and the billing calls that follow
when the write is won and when it is not (`PollUpdate`).

The prices of a completed task (tiered expressions, adaptors, tokens) are
parameters (`Pricing`).
-/

namespace NewApi

/-! ## Billing calls -/

/-- `relaycommon.TaskInfo`. -/
structure TaskInfo where
  (status reason url progress : String)
  (completionTokens totalTokens : Int)
  pluginState : String
deriving DecidableEq

/-- `FailTaskInfo`. -/
def failTaskInfo (reason : String) : TaskInfo := ⟨"FAILURE", reason, "", "", 0, 0, ""⟩

/-- How the quota of a completed task is found. -/
structure Pricing where
  /-- `EvaluateTaskCompletionUsage`, `none` for an error. -/
  completionUsage : Task → TaskInfo → Option Int
  /-- `AdjustBillingOnComplete`. -/
  adjustBillingOnComplete : Task → TaskInfo → Int
  /-- The quota of `RecalculateTaskQuotaByTokens`, `none` without a ratio. -/
  tokenQuota : Task → Int → Option Int

/-- A call of `RefundTaskQuota` or of `RecalculateTaskQuota`. -/
inductive BillingOp
  | refund
  | recalculate (actualQuota : Int)
deriving DecidableEq

/-- `settleTaskBillingOnComplete`: whether it has taken over, and its call. -/
def settleTaskBillingOnComplete (pricing : Pricing) (t : Task) (info : TaskInfo) :
    Bool × List BillingOp :=
  if t.isAppManaged then (false, [])
  else if t.privateData.tiered then
    if t.status = .failure ∨ t.status = .cancelled then (false, [])
    else
      match pricing.completionUsage t info with
      | none => (true, [])
      | some actual => (true, [.recalculate actual])
  else if t.privateData.perCallBilling then (false, [])
  else if 0 < pricing.adjustBillingOnComplete t info then
    (true, [.recalculate (pricing.adjustBillingOnComplete t info)])
  else
    let tokens :=
      if info.totalTokens = 0 ∧ 0 < info.completionTokens then info.completionTokens
      else info.totalTokens
    if 0 < tokens then
      match pricing.tokenQuota t tokens with
      | none => (false, [])
      | some actual => (true, [.recalculate actual])
    else (false, [])

/-- The settlement, or a refund when nobody has taken over. -/
def settleOrRefund (pricing : Pricing) (refundable : Bool) (t : Task) (info : TaskInfo) :
    List BillingOp :=
  if (settleTaskBillingOnComplete pricing t info).1 then
    (settleTaskBillingOnComplete pricing t info).2
  else if refundable ∧ t.quota ≠ 0 then [.refund]
  else []

/-! ## Failed polls -/

structure PollConfig where
  /-- `TaskPollMaxFailures`. -/
  maxFailures : Int
  /-- `TaskTimeoutMinutes`. -/
  timeoutMinutes : Int
  /-- `BuildProxyURL`. -/
  proxyUrl : String → String
  pricing : Pricing

/-- What a pass does with its copy. -/
structure PollUpdate where
  copy : Task
  fromStatus : Option TaskStatus
  won : List BillingOp
  lost : List BillingOp

def PollUpdate.skip (copy : Task) : PollUpdate := ⟨copy, none, [], []⟩

inductive PollClass
  | ok
  | otherClient
  | notFound
  | auth
  | transient
  | unrecognized
  | hookError
  | transport
deriving DecidableEq

def PollClass.text : PollClass → String
  | .ok => "ok"
  | .otherClient => "other_client"
  | .notFound => "not_found"
  | .auth => "auth"
  | .transient => "transient"
  | .unrecognized => "unrecognized"
  | .hookError => "hook_error"
  | .transport => "transport_error"

def classifyPollHTTP (statusCode : Nat) : PollClass :=
  if 200 ≤ statusCode ∧ statusCode < 300 then .ok
  else if statusCode = 404 ∨ statusCode = 410 then .notFound
  else if statusCode = 401 ∨ statusCode = 403 then .auth
  else if statusCode = 429 ∨ 500 ≤ statusCode then .transient
  else if 400 ≤ statusCode ∧ statusCode < 500 then .otherClient
  else .transient

def isNonTerminalPollStatus : TaskStatus → Bool
  | .notStart | .submitted | .queued | .inProgress => true
  | _ => false

def knownPollStatus (status : TaskStatus) : Bool :=
  isNonTerminalPollStatus status || status.terminal

def pollFailureReason (failure : PollClass) (statusCode : Nat) (detail : String) : String :=
  let text := failure.text
  let reason :=
    if 0 < statusCode then s!"poll failed: {text} (HTTP {statusCode})" else s!"poll failed: {text}"
  if detail ≠ "" then reason ++ ": " ++ detail else reason

/-- `unrecognizedPollDetail`, with the redacted body cut to its limit. -/
def unrecognizedPollDetail (reason body : String) : String :=
  if Text.trimSpace reason.toList = [] then "body=" ++ body else reason ++ "; body=" ++ body

/-- `if task.FinishTime == 0 { task.FinishTime = now }`, and for the start. -/
def orNow (time now : Int) : Int := if time = 0 then now else time

variable (cfg : PollConfig)

/-- `failTaskFromPoll`. -/
def failTaskFromPoll (now : Int) (copy : Task) (fromStatus : TaskStatus) (reason : String) :
    PollUpdate :=
  if copy.isAppManaged then .skip copy
  else
    let t := { copy with
      status := .failure
      progress := "100%"
      finishTime := orNow copy.finishTime now
      failReason := reason }
    ⟨t, some fromStatus, settleOrRefund cfg.pricing true t (failTaskInfo reason), []⟩

variable (now : Int)

/-- `recordPollFailure`. -/
def recordPollFailure (copy : Task) (fromStatus : TaskStatus) (failure : PollClass)
    (statusCode : Nat) (detail : String) : PollUpdate :=
  if copy.isAppManaged then .skip copy
  else
    let t := { copy with
      privateData := { copy.privateData with pollFailures := copy.privateData.pollFailures + 1 } }
    if 0 < cfg.maxFailures ∧ cfg.maxFailures ≤ t.privateData.pollFailures then
      failTaskFromPoll cfg now t fromStatus (pollFailureReason failure statusCode detail)
    else ⟨t, some fromStatus, [], []⟩

/-! ## One task at a time -/

/-- A result in either format. The format of this gateway also brings data. -/
structure ParsedTask where
  info : TaskInfo
  data : Option String

/-- What comes back for one task. -/
inductive SinglePoll
  | transport (statusCode : Nat) (error : String)
  | response (statusCode : Nat) (body : String) (parsed : Except String ParsedTask)

/-- `taskSnapshot`. -/
structure TaskSnapshot where
  status : TaskStatus
  progress : String
  (startTime finishTime : Int)
  (failReason resultUrl data pluginState : String)
  pollFailures : Nat
deriving DecidableEq

/-- `Snapshot`. -/
def Task.snapshot (t : Task) : TaskSnapshot :=
  ⟨t.status, t.progress, t.startTime, t.finishTime, t.failReason, t.privateData.resultUrl, t.data,
    t.privateData.pluginState, t.privateData.pollFailures⟩

def singleResultUrl (t : Task) (url : String) : String :=
  if "data:".toList.isPrefixOf url.toList then cfg.proxyUrl t.taskId
  else if url ≠ "" then url
  else cfg.proxyUrl t.taskId

/-- The status of a result is taken over. There is no case for `NOT_START`. -/
def singleStatus (info : TaskInfo) (t : Task) : Option Task :=
  let progress (fixed : String) := if info.progress ≠ "" then info.progress else fixed
  match t.status with
  | .submitted => some { t with progress := progress "10%" }
  | .queued => some { t with progress := progress "20%" }
  | .inProgress =>
    some { t with progress := progress "30%", startTime := orNow t.startTime now }
  | .success =>
    some { t with
      progress := progress "100%"
      finishTime := orNow t.finishTime now
      privateData := { t.privateData with resultUrl := singleResultUrl cfg t info.url } }
  | .failure =>
    some { t with
      progress := "100%"
      finishTime := orNow t.finishTime now
      failReason := info.reason }
  | .cancelled =>
    some { t with
      progress := progress "100%"
      finishTime := orNow t.finishTime now
      failReason := "cancelled" }
  | _ => none

def singleBilling (t : Task) (info : TaskInfo) : List BillingOp :=
  match t.status with
  | .success => settleOrRefund cfg.pricing false t info
  | .failure => settleOrRefund cfg.pricing true t { info with progress := "100%" }
  | .cancelled => if t.quota ≠ 0 then [.refund] else []
  | _ => []

/-- A result with a known status. `copy` is the task before the pass, and `t`
after the data of the result. -/
def applySingle (copy t : Task) (info : TaskInfo) : PollUpdate :=
  match singleStatus cfg now info t with
  | none => .skip t
  | some t =>
    let billing := singleBilling cfg t info
    if t.status.terminal ∧ copy.status ≠ t.status then ⟨t, some copy.status, billing, []⟩
    else if copy.snapshot ≠ t.snapshot then ⟨t, some copy.status, billing, billing⟩
    else ⟨t, none, billing, billing⟩

variable (copy : Task)

def withResult (body : String) (info : TaskInfo) : Task :=
  let status := TaskStatus.ofText info.status
  { copy with
    status := status
    data := body
    privateData := { copy.privateData with
      pluginState := if info.pluginState ≠ "" then info.pluginState
        else copy.privateData.pluginState
      pollFailures := if isNonTerminalPollStatus status then 0
        else copy.privateData.pollFailures } }

/-- `updateVideoSingleTask`. -/
def updateVideoSingleTask : SinglePoll → PollUpdate
  | .transport statusCode error =>
    if copy.isAppManaged then .skip copy
    else recordPollFailure cfg now copy copy.status .transport statusCode error
  | .response statusCode body parsed =>
    if copy.isAppManaged then .skip copy
    else
      match classifyPollHTTP statusCode with
      | .notFound =>
        failTaskFromPoll cfg now copy copy.status s!"upstream task not found (HTTP {statusCode})"
      | .auth => recordPollFailure cfg now copy copy.status .auth statusCode ""
      | .transient => recordPollFailure cfg now copy copy.status .transient statusCode ""
      | answer =>
        match parsed with
        | .error error => recordPollFailure cfg now copy copy.status .hookError statusCode error
        | .ok p =>
          let t := { copy with data := p.data.getD copy.data }
          let status := TaskStatus.ofText p.info.status
          if knownPollStatus status = false ∨
              (answer = .otherClient ∧ isNonTerminalPollStatus status) then
            recordPollFailure cfg now t copy.status .unrecognized statusCode
              (unrecognizedPollDetail p.info.reason body)
          else applySingle cfg now copy (withResult t body p.info) p.info

/-! ## Many tasks at once -/

/-- `BatchTaskResult`. -/
structure BatchTaskResult where
  info : TaskInfo
  (submitTime startTime finishTime : Int)
  data : Option String

/-- What comes back for one of the tasks. The answer may leave it out. -/
inductive BatchPoll
  | transport (statusCode : Nat) (error : String)
  | response (statusCode : Nat) (parsed : Except String (Option BatchTaskResult))

def withBatchResult (r : BatchTaskResult) : Task :=
  let status := TaskStatus.ofText r.info.status
  let failed := r.info.reason ≠ "" ∨ status = .failure
  { copy with
    status := if failed then .failure else status
    failReason := if r.info.reason ≠ "" then r.info.reason else copy.failReason
    submitTime := if r.submitTime ≠ 0 then r.submitTime else copy.submitTime
    startTime := if r.startTime ≠ 0 then r.startTime else copy.startTime
    finishTime := if r.finishTime ≠ 0 then r.finishTime else copy.finishTime
    progress := if failed ∨ status = .success then "100%"
      else if r.info.progress ≠ "" then r.info.progress
      else copy.progress
    data := r.data.getD copy.data
    privateData := { copy.privateData with
      pluginState := if r.info.pluginState ≠ "" then r.info.pluginState
        else copy.privateData.pluginState
      resultUrl := if r.info.url ≠ "" then r.info.url else copy.privateData.resultUrl
      pollFailures := if isNonTerminalPollStatus status then 0
        else copy.privateData.pollFailures } }

def applyBatch (r : BatchTaskResult) : PollUpdate :=
  let t := withBatchResult copy r
  ⟨t, some copy.status,
    if t.status.terminal ∧ copy.status ≠ t.status then
      settleOrRefund cfg.pricing (t.status = .failure ∨ t.status = .cancelled) t r.info
    else [],
    []⟩

/-- `updateBatchTasks`, for one of the tasks. -/
def updateBatchTask : BatchPoll → PollUpdate
  | .transport statusCode error =>
    recordPollFailure cfg now copy copy.status .transport statusCode error
  | .response statusCode parsed =>
    match classifyPollHTTP statusCode with
    | .notFound =>
      failTaskFromPoll cfg now copy copy.status s!"upstream task not found (HTTP {statusCode})"
    | .auth => recordPollFailure cfg now copy copy.status .auth statusCode ""
    | .transient => recordPollFailure cfg now copy copy.status .transient statusCode ""
    | answer =>
      match parsed with
      | .error error => recordPollFailure cfg now copy copy.status .hookError statusCode error
      | .ok none => .skip copy
      | .ok (some r) =>
        let status := TaskStatus.ofText r.info.status
        if knownPollStatus status = false ∨
            (answer = .otherClient ∧ isNonTerminalPollStatus status) then
          recordPollFailure cfg now copy copy.status .unrecognized statusCode r.info.reason
        else applyBatch cfg copy r

/-! ## A whole pass -/

/-- What happens to one task in a pass. -/
inductive PollOutcome
  /-- `CacheGetChannel` failed. -/
  | channelMissing (batch : Bool) (channelId : Int)
  | single (poll : SinglePoll)
  | batch (poll : BatchPoll)

/-- The reason of an unguarded failure, if the pass ends in one: the task has no
upstream id, or its channel is missing. -/
def PollOutcome.bulkFailure (outcome : PollOutcome) : Option (Option String) :=
  if copy.getUpstreamTaskId = "" then some none
  else if copy.isAppManaged then none
  else
    match outcome with
    | .channelMissing true channelId =>
      some (some s!"获取渠道信息失败，请联系管理员，渠道ID：{channelId}")
    | .channelMissing false channelId =>
      some (some s!"Failed to get channel info, channel ID: {channelId}")
    | _ => none

def PollOutcome.update : PollOutcome → PollUpdate
  | .channelMissing _ _ => .skip copy
  | .single poll => updateVideoSingleTask cfg now copy poll
  | .batch poll => updateBatchTask cfg now copy poll

/-- `TaskRefundLegacyCutoff`. -/
def taskRefundLegacyCutoff : Int := 1771718400

/-- The task is from before timeouts were refunded. -/
def Task.isLegacy (t : Task) : Bool :=
  decide (0 < t.submitTime ∧ t.submitTime < taskRefundLegacyCutoff)

/-- `sweepTimedOutTasks`, for one task. -/
def sweepTimedOutTask : PollUpdate :=
  let minutes := cfg.timeoutMinutes
  let t := { copy with
    status := .failure
    progress := "100%"
    finishTime := now
    failReason := if copy.isLegacy then "任务超时（旧系统遗留任务，不进行退款，请联系管理员）"
      else s!"任务超时（{minutes}分钟）"
    quota := if copy.isLegacy then 0 else copy.quota }
  ⟨t, some copy.status, if copy.isLegacy = false ∧ t.quota ≠ 0 then [.refund] else [], []⟩

end NewApi
