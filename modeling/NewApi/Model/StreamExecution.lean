import NewApi.Model.Quota

/-!
# Stream execution rows

A recoverable stream has one row: the lease of the worker or the reconciler that owns the stream,
the attempt whose frames are public, how many of them are committed, and the state of the billing.

Every write is one conditional update, `none` when the condition does not hold. The clock is an
argument of every call and no call assumes anything about it.
-/

namespace NewApi

inductive StreamExecutionStatus
  | pending
  | running
  | recovering
  | completed
  | failed
  | cancelled
deriving DecidableEq

inductive StreamBillingStatus
  | none
  | reserving
  | reserved
  | settling
  | settled
  | refunding
  | refunded
  | uncertain
deriving DecidableEq

/-- The columns of a subscription reservation. -/
structure SubscriptionReservation where
  (subscriptionId preConsumed amountTotal amountUsedAfter planId : Int)
  planTitle : String
deriving DecidableEq

structure StreamExecution where
  (userId tokenId : Int)
  status : StreamExecutionStatus
  (publicAttempt attemptCount committedSequence terminalSequence : Nat)
  lockedBy : String
  lockedUntil : Int
  billingStatus : StreamBillingStatus
  billingSource : Option BillingSource
  (reservedQuota actualQuota tokenConsumed extraReserved : Int)
  trusted : Bool
  subscription : SubscriptionReservation
  error : String
  expiresAt : Int
deriving DecidableEq

namespace StreamExecution

variable (row : StreamExecution)

/-- `activeStreamExecutionStatuses`. -/
def active : Bool := row.status = .pending || row.status = .running || row.status = .recovering

/-! ## Leases and attempts -/

variable (runner : String)

/-- The runner holds the lease of an active row at `now`. -/
def leased (now : Int) : Bool :=
  row.active && decide (row.lockedBy = runner ∧ now ≤ row.lockedUntil)

def inAttempt (attempt : Nat) : Bool :=
  decide (row.publicAttempt = attempt ∧ row.attemptCount = attempt)

/-- `ClaimStreamExecution`. -/
def claim (now lockUntil : Int) (row : StreamExecution) : Option StreamExecution :=
  if row.active && decide (row.lockedBy = runner ∨ row.lockedBy = "" ∨ row.lockedUntil < now) then
    some { row with status := .running, lockedBy := runner, lockedUntil := lockUntil }
  else none

/-- `RenewStreamExecutionLease`. -/
def renewLease (now lockUntil : Int) (row : StreamExecution) : Option StreamExecution :=
  if row.leased runner now then some { row with lockedUntil := lockUntil } else none

/-- `StartStreamExecutionAttempt`. -/
def startAttempt (attempt : Nat) (now : Int) (row : StreamExecution) : Option StreamExecution :=
  if row.leased runner now &&
      decide (row.attemptCount + 1 = attempt ∨ row.attemptCount = attempt) then
    some { row with
      status := .running
      publicAttempt := attempt
      attemptCount := attempt
      committedSequence := 0
      terminalSequence := 0
      error := "" }
  else none

/-- `UpdateStreamExecutionSequence`. -/
def updateSequence (attempt sequence : Nat) (now : Int) (row : StreamExecution) :
    Option StreamExecution :=
  if row.leased runner now && row.inAttempt attempt &&
      decide (row.committedSequence + 1 = sequence) then
    some { row with committedSequence := sequence }
  else none

/-- `FinishStreamExecution`. -/
def finish (attempt : Nat) (status : StreamExecutionStatus) (terminalSequence : Nat)
    (error : String) (now : Int) (row : StreamExecution) : Option StreamExecution :=
  if (status = .completed ∨ status = .failed ∨ status = .cancelled) ∧
      row.leased runner now ∧ row.inAttempt attempt then
    some { row with
      status := status
      terminalSequence := terminalSequence
      error := error
      lockedBy := ""
      lockedUntil := 0 }
  else none

/-- `CancelOwnedStreamExecution`. -/
def cancelOwned (userId tokenId : Int) (row : StreamExecution) : Option StreamExecution :=
  if row.active && decide (row.userId = userId ∧ row.tokenId = tokenId) then
    some { row with status := .cancelled, lockedBy := "", lockedUntil := 0 }
  else none

/-! ## Expired leases -/

/-- The billing states of a row whose worker has not finished with them. -/
def unresolved (b : StreamBillingStatus) : Bool :=
  b = .reserving || b = .reserved || b = .settling || b = .refunding

/-- `CASE WHEN billing_status IN unresolved THEN uncertain ELSE billing_status END`. -/
def giveUpBilling (b : StreamBillingStatus) : StreamBillingStatus :=
  if unresolved b then .uncertain else b

def leaseExpired (observedAttempt : Nat) (now : Int) : Bool :=
  row.active && decide (row.attemptCount = observedAttempt ∧ row.lockedUntil < now)

/-- `FailExpiredStreamExecution`. -/
def failExpired (observedAttempt : Nat) (now : Int) (error : String) (row : StreamExecution) :
    Option StreamExecution :=
  if row.leaseExpired observedAttempt now then
    some { row with
      status := .failed
      billingStatus := giveUpBilling row.billingStatus
      error := error
      lockedBy := ""
      lockedUntil := 0 }
  else none

/-- `ClaimExpiredStreamExecutionForReconciliation`, without the read that follows. -/
def claimExpired (observedAttempt : Nat) (runner : String) (now lockUntil : Int)
    (row : StreamExecution) : Option StreamExecution :=
  if row.leaseExpired observedAttempt now then
    some { row with
      status := .recovering
      billingStatus := giveUpBilling row.billingStatus
      lockedBy := runner
      lockedUntil := lockUntil }
  else none

/-- `OwnsStreamExecutionReconciliationLease`. -/
def ownsReconciliation (attempt expectedSequence : Nat) (now : Int) (row : StreamExecution) :
    Bool :=
  decide (row.status = .recovering ∧ row.lockedBy = runner ∧ now ≤ row.lockedUntil ∧
    row.committedSequence = expectedSequence) && row.inAttempt attempt

/-- `FinishStreamExecutionReconciliation`. -/
def finishReconciliation (attempt : Nat) (status : StreamExecutionStatus)
    (expectedSequence terminalSequence : Nat) (error : String) (now : Int) (row : StreamExecution) :
    Option StreamExecution :=
  if (status = .completed ∨ status = .failed) ∧ expectedSequence ≤ terminalSequence ∧
      row.ownsReconciliation runner attempt expectedSequence now then
    some { row with
      status := status
      committedSequence := terminalSequence
      terminalSequence := terminalSequence
      billingStatus := giveUpBilling row.billingStatus
      error := error
      lockedBy := ""
      lockedUntil := 0 }
  else none

/-- `CommitFailedStreamExecutionTerminal`. -/
def commitFailedTerminal (attempt expectedSequence terminalSequence : Nat)
    (row : StreamExecution) : Option StreamExecution :=
  if expectedSequence < terminalSequence ∧ row.status = .failed ∧ row.inAttempt attempt ∧
      row.committedSequence = expectedSequence then
    some { row with committedSequence := terminalSequence, terminalSequence := terminalSequence }
  else none

/-- `STATEFUL_REPLAY_UNSAFE:`, the start of the errors that keep a row. -/
def replayUnsafe (error : String) : Bool := "STATEFUL_REPLAY_UNSAFE:".toList.isPrefixOf error.toList

/-- The first two updates of `DeleteExpiredStreamExecutions`. -/
def closeExpired : StreamExecution :=
  let row := { row with billingStatus := giveUpBilling row.billingStatus }
  if row.active then
    { row with
      status := .failed
      error := "STATEFUL_REPLAY_UNSAFE: execution expired before terminal reconciliation"
      lockedBy := ""
      lockedUntil := 0 }
  else row

/-- The delete of `DeleteExpiredStreamExecutions` keeps the row. -/
def keptExpired : Bool :=
  row.active || replayUnsafe row.error ||
    !(row.billingStatus = .none || row.billingStatus = .settled || row.billingStatus = .refunded)

/-- `DeleteExpiredStreamExecutions` on this row, which it may delete. -/
def deleteExpired (now : Int) (row : StreamExecution) : Option StreamExecution :=
  if 0 < row.expiresAt ∧ row.expiresAt < now then
    if row.closeExpired.keptExpired then some row.closeExpired else none
  else some row

/-! ## The billing state -/

/-- What a session writes to the row about its reservation. -/
structure ReservationSnapshot where
  billingSource : BillingSource
  (reservedQuota tokenConsumed extraReserved : Int)
  trusted : Bool
  /-- The subscription columns, which a wallet session does not write. -/
  subscription : Option SubscriptionReservation
deriving DecidableEq

/-- The columns of an `UpdateStreamBillingState`. -/
structure BillingUpdates where
  billingStatus : StreamBillingStatus
  snapshot : Option ReservationSnapshot
  actualQuota : Option Int
deriving DecidableEq

def ReservationSnapshot.write (snap : ReservationSnapshot) (row : StreamExecution) :
    StreamExecution :=
  { row with
    billingSource := some snap.billingSource
    reservedQuota := snap.reservedQuota
    tokenConsumed := snap.tokenConsumed
    extraReserved := snap.extraReserved
    trusted := snap.trusted
    subscription := match snap.subscription with
      | some sub => sub
      | none => { row.subscription with subscriptionId := 0 } }

def BillingUpdates.write (u : BillingUpdates) (row : StreamExecution) : StreamExecution :=
  let row := match u.snapshot with
    | some snap => snap.write row
    | none => row
  { row with
    billingStatus := u.billingStatus
    actualQuota := u.actualQuota.getD row.actualQuota }

/-- A state that only the owner of the lease may enter. -/
def needsLease (b : StreamBillingStatus) : Bool :=
  b = .reserving || b = .reserved || b = .settling || b = .refunding

/-- The first update of `UpdateStreamBillingState`. -/
def updateBilling (now : Int) (sources : List StreamBillingStatus) (u : BillingUpdates)
    (row : StreamExecution) : Option StreamExecution :=
  if row.billingStatus ∈ sources ∧ (u.billingStatus = .uncertain ∨ row.billingStatus ≠ .uncertain) ∧
      (needsLease u.billingStatus = true → row.attemptCount = 0 ∨
        (row.status = .running ∧ now ≤ row.lockedUntil)) then
    some (u.write row)
  else none

/-- Its second update, made when the first one to `reserved` found no row: what
is reserved is kept on the row, but given up. -/
def giveUpReservation (now : Int) (sources : List StreamBillingStatus) (u : BillingUpdates)
    (row : StreamExecution) : Option StreamExecution :=
  if u.billingStatus = .reserved ∧ (row.billingStatus ∈ sources ∨ row.billingStatus = .uncertain) ∧
      0 < row.attemptCount ∧ (row.status ≠ .running ∨ row.lockedUntil < now) then
    some ({ u with billingStatus := .uncertain }.write row)
  else none

/-! ## The callers of `UpdateStreamBillingState` -/

/-- A call of `UpdateStreamBillingState`, by the place it is made at. -/
inductive BillingCall
  /-- `beginStreamBillingReservation`. -/
  | begin
  /-- `PreConsumeBilling` without a session. -/
  | abandon
  /-- `persistStreamBillingReservation`. -/
  | persist (snap : ReservationSnapshot)
  /-- `PreConsumeBilling` with a session it could not persist. -/
  | persistFailed
  /-- `Reserve`. -/
  | reserve (snap : ReservationSnapshot)
  /-- `Settle`: before it, after it failed and after it. -/
  | settleStart
  | settleFailed (actual : Int)
  | settleEnd (actual : Int)
  /-- `Refund`: before it, after it failed and after it. -/
  | refundStart
  | refundFailed
  | refundEnd
  /-- `runStreamRecoveryWorker` at its end. -/
  | workerEnd
deriving DecidableEq

def BillingCall.sources : BillingCall → List StreamBillingStatus
  | .begin => [.none]
  | .abandon => [.reserving]
  | .persist _ => [.reserving, .reserved]
  | .persistFailed => [.reserving]
  | .reserve _ => [.reserved]
  | .settleStart => [.reserved]
  | .settleFailed _ => [.settling]
  | .settleEnd _ => [.settling]
  | .refundStart => [.reserving, .reserved, .uncertain]
  | .refundFailed => [.refunding]
  | .refundEnd => [.refunding]
  | .workerEnd => [.reserving, .reserved, .settling, .refunding]

def BillingCall.updates : BillingCall → BillingUpdates
  | .begin => ⟨.reserving, none, none⟩
  | .abandon => ⟨.none, none, none⟩
  | .persist snap => ⟨.reserved, some snap, none⟩
  | .persistFailed => ⟨.uncertain, none, none⟩
  | .reserve snap => ⟨.reserved, some snap, none⟩
  | .settleStart => ⟨.settling, none, none⟩
  | .settleFailed actual => ⟨.uncertain, none, some actual⟩
  | .settleEnd actual => ⟨.settled, none, some actual⟩
  | .refundStart => ⟨.refunding, none, none⟩
  | .refundFailed => ⟨.uncertain, none, none⟩
  | .refundEnd => ⟨.refunded, none, none⟩
  | .workerEnd => ⟨.uncertain, none, none⟩

end StreamExecution

end NewApi
