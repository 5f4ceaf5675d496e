import NewApi.Billing.StreamSession
import NewApi.Billing.Settlement

/-!
# Taking quota for a request

`PreConsumeBilling` opens the session of a request. The preference of the user decides
which funding sources are tried in which order, and the row of a recoverable stream
whether there is anything to take.

Each failed attempt undoes its token part. A session that is open can still be lost to
the row of the stream. Then `Refund` runs if the row lets it, and otherwise the session
stays charged (`Outcome`).
-/

namespace NewApi

open StreamExecution

/-- `NormalizeBillingPreference`. -/
inductive BillingPreference
  | subscriptionFirst
  | walletFirst
  | subscriptionOnly
  | walletOnly
deriving DecidableEq

def normalizeBillingPreference (pref : String) : BillingPreference :=
  if Text.trimSpace pref.toList = "wallet_first".toList then .walletFirst
  else if Text.trimSpace pref.toList = "subscription_only".toList then .subscriptionOnly
  else if Text.trimSpace pref.toList = "wallet_only".toList then .walletOnly
  else .subscriptionFirst

/-! ## Opening a session -/

/-- What the environment decides about a `NewBillingSession`. -/
structure OpenEnv where
  /-- What `GetUserQuota` answers. -/
  userQuota : Except String Int
  wallet : PreConsumeEnv
  subscription : PreConsumeEnv
  /-- The clock of the subscription checks, and the errors of their queries. -/
  now : Int
  (activeFault overflowFault : Option String)

/-- An attempt to open a session: its result, the account and the request after
it, and the errors of its rollbacks. -/
structure Attempt where
  result : Except NewAPIError BillingSession
  account : Account
  info : RelayInfo
  rollbackErrors : List String

/-- An attempt that ends before it touches anything. -/
def Attempt.reject (err : NewAPIError) (info : RelayInfo) (a : Account) : Attempt :=
  ⟨.error err, a, info, []⟩

/-- The attempt a `preConsume` makes. -/
def Attempt.ofCall (info : RelayInfo) (r : CallResult) : Attempt where
  result := match r.result with
    | .ok () => .ok r.session
    | .error err => .error err
  account := r.account
  info := info
  rollbackErrors := r.rollbackError.toList

variable (cfg : BillingConfig) (env : OpenEnv) (quota : Int) (info : RelayInfo) (a : Account)

/-- `tryWallet`. -/
def tryWallet : Option Attempt :=
  match env.userQuota with
  | .error err => some (.reject (newError err .queryDataError) info a)
  | .ok userQuota =>
    if userQuota ≤ 0 then
      some (.reject (forbidden ("用户额度不足, 剩余额度: " ++ cfg.formatQuota userQuota)
        .insufficientUserQuota) info a)
    else if userQuota - quota < 0 then
      some (.reject (forbidden ("预扣费额度失败, 用户剩余额度: " ++ cfg.formatQuota userQuota ++
        ", 需要预扣费额度: " ++ cfg.formatQuota quota) .insufficientUserQuota) info a)
    else
      let info := { info with userQuota }
      ((walletSession info).preConsume cfg env.wallet quota a).map (.ofCall info)

/-- `trySubscription`. -/
def trySubscription : Option Attempt :=
  ((subscriptionSession info (subConsume quota)).preConsume cfg env.subscription (subConsume quota)
    a).map (.ofCall info)

/-- The attempt after one that failed, with the rollback errors of both. -/
def Attempt.andThen (first : Attempt) (next : RelayInfo → Account → Option Attempt) :
    Option Attempt :=
  (next first.info first.account).map fun second =>
    { second with rollbackErrors := first.rollbackErrors ++ second.rollbackErrors }

/-- The part of `NewBillingSession` for users who pay with subscriptions first. -/
def subscriptionFirst : Option Attempt :=
  match hasActiveUserSubscription env.activeFault env.now info.userId a.subscriptions with
  | .error err => some (.reject (newError err .queryDataError) info a)
  | .ok false => tryWallet cfg env quota info a
  | .ok true =>
    match trySubscription cfg env quota info a with
    | none => none
    | some first =>
      match first.result with
      | .ok _ => some first
      | .error err =>
        if err.errorCode = .insufficientUserQuota then
          match userActiveSubscriptionsAllowWalletOverflow env.overflowFault env.now info.userId
              first.account.subscriptions with
          | .error text => some { first with result := .error (newError text .queryDataError) }
          | .ok true => first.andThen (tryWallet cfg env quota)
          | .ok false => some first
        else some first

/-- The part of `NewBillingSession` for users who pay with the wallet first. -/
def walletFirst : Option Attempt :=
  match tryWallet cfg env quota info a with
  | none => none
  | some first =>
    match first.result with
    | .ok _ => some first
    | .error err =>
      if err.errorCode = .insufficientUserQuota then
        first.andThen (trySubscription cfg env quota)
      else some first

/-- `NewBillingSession`. -/
def newBillingSession : Option Attempt :=
  if info.appSubject then
    some (.reject (newError "App execution requires AppBillingSession" .invalidRequest) info a)
  else
    match normalizeBillingPreference info.billingPreference with
    | .subscriptionOnly => trySubscription cfg env quota info a
    | .walletOnly => tryWallet cfg env quota info a
    | .walletFirst => walletFirst cfg env quota info a
    | .subscriptionFirst => subscriptionFirst cfg env quota info a

/-! ## `PreConsumeBilling` -/

/-- What `relayInfo.Billing` is set to. -/
inductive Billing
  /-- An `AppBillingSession`, which takes nothing yet. -/
  | app
  | restored (session : BillingSession)
  | opened (session : BillingSession)

/-- `GetPreConsumedQuota`. -/
def Billing.getPreConsumedQuota : Billing → Int
  | .app => 0
  | .restored s => s.preConsumedQuota
  | .opened s => s.preConsumedQuota

/-- What the environment decides about a `PreConsumeBilling`. -/
structure PreConsumeBillingEnv where
  start : BeginEnv
  session : OpenEnv
  abandon : UpdateAccess
  persist : UpdateAccess
  persistFailed : UpdateAccess
  refund : BillingSession.StreamRefundEnv

/-- What a `PreConsumeBilling` returns and leaves behind, once the refund it
starts has run. -/
structure Outcome where
  result : Except NewAPIError Billing
  account : Account
  row : Option StreamExecution
  rollbackErrors : List String
  /-- The session it gave up, and what its `Refund` came to. -/
  givenUp : Option (BillingSession × BillingSession.RefundOutcome)

def Outcome.untouched (result : Except NewAPIError Billing) (a : Account)
    (row : Option StreamExecution) : Outcome := ⟨result, a, row, [], none⟩

/-- `streamBillingError`. -/
def streamBillingError (err : String) : NewAPIError :=
  newError ("stream recovery billing: " ++ err) .updateDataError

variable (env : PreConsumeBillingEnv)

/-- The end of `PreConsumeBilling` for a stream: the session is persisted, or
given up. -/
def persistSession (info : RelayInfo) (a : Account) (row : Option StreamExecution) :
    Option Outcome :=
  match newBillingSession cfg env.session quota info a with
  | none => none
  | some att =>
    match att.result with
    | .error err =>
      some ⟨.error err, att.account, (updateStreamBillingState env.abandon .abandon row).2,
        att.rollbackErrors, none⟩
    | .ok s =>
      match s.persistStreamBillingReservation env.persist row with
      | (.ok (), row) => some ⟨.ok (.opened s), att.account, row, att.rollbackErrors, none⟩
      | (.error err, row) =>
        match s.refundStream cfg env.refund att.account
            (updateStreamBillingState env.persistFailed .persistFailed row).2 with
        | (refund, _, a, row) =>
          some ⟨.error (streamBillingError err), a, row, att.rollbackErrors, some (s, refund)⟩

/-- `PreConsumeBilling`. -/
def preConsumeBilling (streamId : String) (info : RelayInfo) (a : Account)
    (row : Option StreamExecution) : Option Outcome :=
  match info.quotaClamp with
  | some text => some (.untouched (.error ⟨text, .modelPriceError, 400⟩) a row)
  | none =>
    if quota < 0 then
      some (.untouched (.error ⟨s!"pre-consume quota cannot be negative: {quota}",
        .modelPriceError, 400⟩) a row)
    else if info.appSubject then some (.untouched (.ok .app) a row)
    else if streamId = "" then
      (newBillingSession cfg env.session quota info a).map fun att =>
        ⟨att.result.map .opened, att.account, row, att.rollbackErrors, none⟩
    else
      match beginStreamBillingReservation env.start row with
      | (.error err, row) => some (.untouched (.error (streamBillingError err)) a row)
      | (.ok (execution, false), row) =>
        match restoreStreamBillingSession execution info with
        | .error err => some (.untouched (.error (streamBillingError err)) a row)
        | .ok s => some (.untouched (.ok (.restored s)) a row)
      | (.ok (_, true), row) => persistSession cfg quota env info a row

end NewApi
