import NewApi.Model.StreamExecution
import NewApi.Billing.Session

/-!
# Sessions of a recoverable stream

A session with a stream id writes every step of the billing to the row of its
stream. The row decides who may go on: a call that does not win its transition
stops there.

Other workers write the same row. Each access to it is preceded by whatever
they did in the meantime, an arbitrary function of the row, and may itself fail
(`RowAccess`).
-/

namespace NewApi

open StreamExecution

/-- One access to the row of the stream, which exists when it is `some`. -/
structure RowAccess where
  others : Option StreamExecution → Option StreamExecution
  fault : Option String

/-- One call of `UpdateStreamBillingState`, with the accesses of its two updates. -/
structure UpdateAccess where
  now : Int
  first : RowAccess
  second : RowAccess

def RowAccess.calm : RowAccess := ⟨id, none⟩

def UpdateAccess.calm : UpdateAccess := ⟨0, .calm, .calm⟩

/-- `GetStreamExecution`. -/
def getStreamExecution (env : RowAccess) (row : Option StreamExecution) :
    Except String StreamExecution × Option StreamExecution :=
  match env.fault, env.others row with
  | some err, row => (.error err, row)
  | none, none => (.error "record not found", none)
  | none, some execution => (.ok execution, some execution)

/-- `UpdateStreamBillingState`. -/
def updateStreamBillingState (env : UpdateAccess) (call : BillingCall)
    (row : Option StreamExecution) : Except String Bool × Option StreamExecution :=
  let row := env.first.others row
  match env.first.fault with
  | some err => (.error err, row)
  | none =>
    match row.bind (StreamExecution.updateBilling env.now call.sources call.updates) with
    | some row => (.ok true, some row)
    | none =>
      if call.updates.billingStatus = .reserved then
        let row := env.second.others row
        match env.second.fault with
        | some err => (.error err, row)
        | none =>
          (.ok false,
            row.map fun r => (r.giveUpReservation env.now call.sources call.updates).getD r)
      else (.ok false, row)

def StreamBillingStatus.text : StreamBillingStatus → String
  | .none => "none"
  | .reserving => "reserving"
  | .reserved => "reserved"
  | .settling => "settling"
  | .settled => "settled"
  | .refunding => "refunding"
  | .refunded => "refunded"
  | .uncertain => "uncertain"

/-- A text in quotes, as `%q` prints it. -/
def quoted (text : String) : String := "\"" ++ text ++ "\""

/-! ## Reserving -/

/-- What the environment decides about a `beginStreamBillingReservation`. -/
structure BeginEnv where
  read : RowAccess
  update : UpdateAccess
  reload : RowAccess

/-- `beginStreamBillingReservation`: the row and whether to reserve. -/
def beginStreamBillingReservation (env : BeginEnv) (row : Option StreamExecution) :
    Except String (StreamExecution × Bool) × Option StreamExecution :=
  match getStreamExecution env.read row with
  | (.error err, row) => (.error err, row)
  | (.ok execution, row) =>
    match execution.billingStatus with
    | .reserved | .settled => (.ok (execution, false), row)
    | .none =>
      match updateStreamBillingState env.update .begin row with
      | (.error err, row) => (.error err, row)
      | (.ok true, row) => (.ok (execution, true), row)
      | (.ok false, row) =>
        match getStreamExecution env.reload row with
        | (.error err, row) => (.error err, row)
        | (.ok current, row) =>
          if current.billingStatus = .reserved ∨ current.billingStatus = .settled then
            (.ok (current, false), row)
          else
            (.error ("stream billing state changed to " ++ quoted current.billingStatus.text), row)
    | .reserving | .settling | .refunding | .uncertain =>
      (.error ("stream billing state " ++ quoted execution.billingStatus.text ++
        " requires operator review"), row)
    | .refunded =>
      (.error ("unsupported stream billing state " ++ quoted execution.billingStatus.text), row)

/-- `restoreStreamBillingSession`. -/
def restoreStreamBillingSession (execution : StreamExecution) (info : RelayInfo) :
    Except String BillingSession :=
  let restored := fun funding =>
    ({ BillingSession.new info funding with
      preConsumedQuota := execution.reservedQuota
      tokenConsumed := execution.tokenConsumed
      extraReserved := execution.extraReserved
      trusted := execution.trusted
      settled := decide (execution.billingStatus = .settled) } : BillingSession).syncRelayInfo
  match execution.billingSource with
  | some .wallet => .ok (restored (.wallet ⟨info.userId, execution.reservedQuota⟩))
  | some .subscription =>
    .ok (restored (.subscription
      { requestId := info.requestId
        userId := info.userId
        amount := execution.subscription.preConsumed
        subscriptionId := execution.subscription.subscriptionId
        preConsumed := execution.subscription.preConsumed
        amountTotal := execution.subscription.amountTotal
        amountUsedAfter := execution.subscription.amountUsedAfter
        planId := execution.subscription.planId
        planTitle := execution.subscription.planTitle }))
  | none => .error ("unsupported persisted billing source " ++ quoted "")

namespace BillingSession

/-- `streamBillingSnapshot`. -/
def streamBillingSnapshot (s : BillingSession) : ReservationSnapshot where
  billingSource := s.funding.source
  reservedQuota := s.preConsumedQuota
  tokenConsumed := s.tokenConsumed
  extraReserved := s.extraReserved
  trusted := s.trusted
  subscription := match s.funding with
    | .wallet _ => none
    | .subscription f =>
      some ⟨f.subscriptionId, f.preConsumed, f.amountTotal, f.amountUsedAfter, f.planId,
        f.planTitle⟩

def changedConcurrently : String := "stream billing reservation state changed concurrently"

/-- `persistStreamBillingReservation`. -/
def persistStreamBillingReservation (env : UpdateAccess) (s : BillingSession)
    (row : Option StreamExecution) : Except String Unit × Option StreamExecution :=
  match updateStreamBillingState env (.persist s.streamBillingSnapshot) row with
  | (.error err, row) => (.error err, row)
  | (.ok false, row) => (.error changedConcurrently, row)
  | (.ok true, row) => (.ok (), row)

/-! ## The calls of a session with a stream id -/

/-- What the environment decides about a `Refund` with a stream id. -/
structure StreamRefundEnv where
  start : UpdateAccess
  job : RefundJobEnv
  finish : UpdateAccess

/-- How a `Refund` ended. -/
inductive RefundOutcome
  | ignored
  | refused
  | ran (failed : Bool)
deriving DecidableEq

/-- `Refund` with a stream id, with its second part run to the end. -/
def refundStream (cfg : BillingConfig) (env : StreamRefundEnv) (s : BillingSession) (a : Account)
    (row : Option StreamExecution) :
    RefundOutcome × BillingSession × Account × Option StreamExecution :=
  if s.settled || s.refunded then (.ignored, s, a, row)
  else
    match updateStreamBillingState env.start .refundStart row with
    | (.error _, row) => (.refused, s, a, row)
    | (.ok false, row) => (.refused, s, a, row)
    | (.ok true, row) =>
      match s.refund cfg env.job a with
      | (failed, s, a) =>
        (.ran failed, s, a, (updateStreamBillingState env.finish
          (if failed then .refundFailed else .refundEnd) row).2)

end BillingSession

end NewApi
