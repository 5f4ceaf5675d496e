import NewApi.Model.Quota
import NewApi.Model.Subscription

/-!
# Billing sessions

A session takes quota for one request in advance, from the token and from one funding
source, adds to it (`Reserve`), and ends with the actual quota (`Settle`) or with
everything given back (`Refund`).

A call is a function of the session and its `Account`, with the choices of the environment
as an argument. The error of a compensation is only logged in the source, so a call
returns it beside its result. `refund` runs the asynchronous part to its end.
-/

namespace NewApi

/-! ## Errors -/

/-- The `types.ErrorCode` values of the billing paths. -/
inductive ErrorCode
  | invalidRequest
  | modelPriceError
  | queryDataError
  | updateDataError
  | insufficientUserQuota
  | preConsumeTokenQuotaFailed
deriving DecidableEq

/-- `types.NewAPIError`, with its HTTP status. -/
structure NewAPIError where
  message : String
  errorCode : ErrorCode
  statusCode : Nat
deriving DecidableEq

/-- `types.NewError`: an internal server error. -/
def newError (message : String) (code : ErrorCode) : NewAPIError := ⟨message, code, 500⟩

/-- `types.NewErrorWithStatusCode` with `http.StatusForbidden`. -/
def forbidden (message : String) (code : ErrorCode) : NewAPIError := ⟨message, code, 403⟩

/-- The errors a funding source returns. -/
inductive FundingError
  /-- `ErrInsufficientWalletQuota`. -/
  | insufficientWalletQuota
  | other (text : String)
deriving DecidableEq

def FundingError.text : FundingError → String
  | .insufficientWalletQuota => "wallet quota insufficient"
  | .other text => text

/-- `strings.Contains`. -/
def containsText (text part : String) : Bool := Text.occursIn part.toList text.toList

/-! ## Configuration, request and account -/

/-- What the process is configured with. -/
structure BillingConfig where
  mode : QuotaMode
  /-- `common.GetTrustQuota()`. -/
  trustQuota : Int
  /-- `logger.FormatQuota`. -/
  formatQuota : Int → String
  nextReset : NextReset

/-- The fields of a `RelayInfo` that billing reads or writes. -/
structure RelayInfo where
  userId : Int
  requestId : String
  (isPlayground tokenUnlimited forcePreConsume strictQuotaReservation : Bool)
  /-- `Request` is a `*dto.ImageRequest`. -/
  imageRequest : Bool
  imageRequestCount : Int
  /-- `AppSubject` is set. -/
  appSubject : Bool
  /-- The text of `QuotaClamp`, when it is set. -/
  quotaClamp : Option String
  billingPreference : String
  (userQuota finalPreConsumedQuota : Int)
  billingSource : Option BillingSource
  (subscriptionId subscriptionPreConsumed subscriptionPostDelta subscriptionAmountTotal : Int)
  (subscriptionAmountUsedAfterPreConsume subscriptionPlanId : Int)
  subscriptionPlanTitle : String
deriving DecidableEq

/-- The rows one request is billed on. -/
structure Account where
  wallet : Wallet
  token : Token
  subscriptions : SubscriptionDb

/-! ## Funding sources -/

structure WalletFunding where
  (userId consumed : Int)
deriving DecidableEq

structure SubscriptionFunding where
  requestId : String
  (userId amount subscriptionId preConsumed amountTotal amountUsedAfter planId : Int)
  planTitle : String
deriving DecidableEq

/-- `FundingSource`. -/
inductive FundingSource
  | wallet (funding : WalletFunding)
  | subscription (funding : SubscriptionFunding)
deriving DecidableEq

def FundingSource.source : FundingSource → BillingSource
  | .wallet _ => .wallet
  | .subscription _ => .subscription

variable (cfg : BillingConfig)

/-- `WalletFunding.PreConsume`: what was consumed before is overwritten. -/
def WalletFunding.preConsume (env : QuotaEnv) (amount : Int) (f : WalletFunding) (w : Wallet) :
    Except FundingError Unit × WalletFunding × Wallet :=
  if amount ≤ 0 then (.ok (), f, w)
  else
    match tryReserveUserQuota cfg.mode env amount w with
    | (.error text, w) => (.error (.other text), f, w)
    | (.ok false, w) => (.error .insufficientWalletQuota, f, w)
    | (.ok true, w) => (.ok (), { f with consumed := amount }, w)

variable (env : QuotaEnv)

/-- `WalletFunding.Settle`. -/
def walletSettle (delta : Int) (w : Wallet) : Except String Unit × Wallet :=
  if delta = 0 then (.ok (), w)
  else if 0 < delta then decreaseUserQuota cfg.mode env delta w
  else increaseUserQuota cfg.mode env (-delta) w

/-- `WalletFunding.Refund`. -/
def WalletFunding.refund (f : WalletFunding) (w : Wallet) : Except String Unit × Wallet :=
  if f.consumed ≤ 0 then (.ok (), w) else increaseUserQuota cfg.mode env f.consumed w

/-- What the environment decides about a pre-consume. -/
structure PreConsumeEnv where
  /-- `token_quota` of the request context. -/
  tokenQuota : Int
  token : QuotaEnv
  wallet : QuotaEnv
  subscription : SubscriptionEnv
  planInfo : Option (Int × String)
  rollback : QuotaEnv

/-- `SubscriptionFunding.PreConsume`: the amount asked for is ignored. -/
def SubscriptionFunding.preConsume (cfg : BillingConfig) (env : PreConsumeEnv)
    (f : SubscriptionFunding) (db : SubscriptionDb) :
    Option (Except FundingError Unit × SubscriptionFunding × SubscriptionDb) :=
  match preConsumeUserSubscription cfg.nextReset env.subscription f.requestId f.userId f.amount db
    with
  | none => none
  | some (.error text, db) => some (.error (.other text), f, db)
  | some (.ok res, db) =>
    let f := { f with
      subscriptionId := res.userSubscriptionId
      preConsumed := res.preConsumed
      amountTotal := res.amountTotal
      amountUsedAfter := res.amountUsedAfter }
    match env.planInfo with
    | some (planId, planTitle) => some (.ok (), { f with planId, planTitle }, db)
    | none => some (.ok (), f, db)

/-- `refundWithRetry`: the first attempt that succeeds ends it. -/
def refundWithRetry (requestId : String) : List RefundEnv → Except String Unit × SubscriptionDb →
    Except String Unit × SubscriptionDb
  | [], last => last
  | env :: rest, (_, db) =>
    match refundSubscriptionPreConsume env requestId db with
    | (.ok (), db) => (.ok (), db)
    | (.error err, db) => refundWithRetry requestId rest (.error err, db)

def FundingSource.preConsume (cfg : BillingConfig) (env : PreConsumeEnv) (amount : Int)
    (f : FundingSource) (a : Account) :
    Option (Except FundingError Unit × FundingSource × Account) :=
  match f with
  | .wallet f =>
    match f.preConsume cfg env.wallet amount a.wallet with
    | (res, f, w) => some (res, .wallet f, { a with wallet := w })
  | .subscription f =>
    match f.preConsume cfg env a.subscriptions with
    | none => none
    | some (res, f, db) => some (res, .subscription f, { a with subscriptions := db })

def FundingSource.settle (delta : Int) (f : FundingSource) (a : Account) :
    Except String Unit × Account :=
  match f with
  | .wallet _ =>
    match walletSettle cfg env delta a.wallet with
    | (res, w) => (res, { a with wallet := w })
  | .subscription f =>
    if delta = 0 then (.ok (), a)
    else match postConsumeUserSubscriptionDelta env.fault f.subscriptionId delta a.subscriptions
      with
      | (res, db) => (res, { a with subscriptions := db })

/-- What the environment decides about a refund that runs. -/
structure RefundJobEnv where
  wallet : QuotaEnv
  first : RefundEnv
  second : RefundEnv
  third : RefundEnv
  extra : Option String
  token : QuotaEnv

def FundingSource.refund (cfg : BillingConfig) (env : RefundJobEnv) (f : FundingSource)
    (a : Account) : Except String Unit × Account :=
  match f with
  | .wallet f =>
    match f.refund cfg env.wallet a.wallet with
    | (res, w) => (res, { a with wallet := w })
  | .subscription f =>
    if f.preConsumed ≤ 0 then (.ok (), a)
    else
      match refundWithRetry f.requestId [env.first, env.second, env.third]
          (.ok (), a.subscriptions) with
      | (res, db) => (res, { a with subscriptions := db })

/-! ## Sessions -/

structure BillingSession where
  relayInfo : RelayInfo
  funding : FundingSource
  (preConsumedQuota tokenConsumed extraReserved : Int)
  (trusted fundingSettled settled refunded : Bool)
deriving DecidableEq

variable (info : RelayInfo)

/-- The session of a request before anything is taken. -/
def BillingSession.new (funding : FundingSource) : BillingSession :=
  ⟨info, funding, 0, 0, 0, false, false, false, false⟩

/-- The session `tryWallet` starts with. -/
def walletSession : BillingSession := .new info (.wallet ⟨info.userId, 0⟩)

/-- The session `trySubscription` starts with. -/
def subscriptionSession (amount : Int) : BillingSession :=
  .new info (.subscription ⟨info.requestId, info.userId, amount, 0, 0, 0, 0, 0, ""⟩)

/-- A subscription pays at least 1 in advance. -/
def subConsume (quota : Int) : Int := if quota ≤ 0 then 1 else quota

/-- What a call returns and leaves behind. -/
structure CallResult where
  result : Except NewAPIError Unit
  session : BillingSession
  account : Account
  rollbackError : Option String

/-- `PreConsumeTokenQuota`. -/
def preConsumeTokenQuota (quota : Int) (t : Token) : Except String Unit × Token :=
  if info.appSubject then (.error "app_execution_has_no_token_account", t)
  else if quota < 0 then (.error negativeQuotaText, t)
  else if info.isPlayground then (.ok (), t)
  else
    match tryReserveTokenQuota cfg.mode env quota info.tokenUnlimited t with
    | (.error text, t) => (.error text, t)
    | (.ok true, t) => (.ok (), t)
    | (.ok false, t) =>
      (.error ("token quota is not enough, token remain quota: " ++ cfg.formatQuota env.seen ++
        ", need quota: " ++ cfg.formatQuota quota), t)

namespace BillingSession

/-- `shouldTrust`. -/
def shouldTrust (tokenQuota : Int) (s : BillingSession) : Bool :=
  if s.relayInfo.forcePreConsume then false
  else if cfg.trustQuota ≤ 0 then false
  else if !(s.relayInfo.tokenUnlimited || decide (cfg.trustQuota < tokenQuota)) then false
  else match s.funding with
    | .wallet _ => decide (cfg.trustQuota < s.relayInfo.userQuota)
    | .subscription _ => false

variable (s : BillingSession)

/-- `syncRelayInfo`. -/
def syncRelayInfo : BillingSession :=
  let info := { s.relayInfo with
    finalPreConsumedQuota := s.preConsumedQuota
    billingSource := some s.funding.source }
  match s.funding with
  | .subscription sub =>
    { s with relayInfo := { info with
        subscriptionId := sub.subscriptionId
        subscriptionPreConsumed := sub.preConsumed + s.extraReserved
        subscriptionPostDelta := 0
        subscriptionAmountTotal := sub.amountTotal
        subscriptionAmountUsedAfterPreConsume := sub.amountUsedAfter + s.extraReserved
        subscriptionPlanId := sub.planId
        subscriptionPlanTitle := sub.planTitle } }
  | .wallet _ =>
    { s with relayInfo := { info with subscriptionId := 0, subscriptionPreConsumed := 0 } }

/-- The error of a pre-consume whose funding source refused. -/
def fundingFailure (env : PreConsumeEnv) (err : FundingError) : NewAPIError :=
  match err with
  | .insufficientWalletQuota =>
    forbidden ("用户额度不足, 剩余额度: " ++ cfg.formatQuota env.wallet.seen) .insufficientUserQuota
  | .other text =>
    if containsText text "no active subscription" ||
        containsText text "subscription quota insufficient" then
      forbidden ("订阅额度不足或未配置订阅: " ++ text) .insufficientUserQuota
    else newError text .updateDataError

def takeToken (env : PreConsumeEnv) (effective : Int) (s : BillingSession) (t : Token) :
    Except String Unit × BillingSession × Token :=
  if 0 < effective then
    match preConsumeTokenQuota cfg env.token s.relayInfo effective t with
    | (.error text, t) => (.error text, s, t)
    | (.ok (), t) => (.ok (), { s with tokenConsumed := effective }, t)
  else (.ok (), s, t)

def rollbackToken (t : Token) : Option String × BillingSession × Token :=
  if 0 < s.tokenConsumed ∧ s.relayInfo.isPlayground = false then
    match increaseTokenQuota cfg.mode env s.tokenConsumed t with
    | (.ok (), t) => (none, { s with tokenConsumed := 0 }, t)
    | (.error text, t) => (some text, { s with tokenConsumed := 0 }, t)
  else (none, s, t)

/-- `preConsume`: the trust check, the token, the funding source. -/
def preConsume (cfg : BillingConfig) (env : PreConsumeEnv) (quota : Int) (s : BillingSession)
    (a : Account) : Option CallResult :=
  let trust := s.shouldTrust cfg env.tokenQuota
  let s := { s with trusted := s.trusted || trust }
  let effective := if trust then 0 else quota
  match s.takeToken cfg env effective a.token with
  | (.error text, s, t) =>
    some ⟨.error (forbidden text .preConsumeTokenQuotaFailed), s, { a with token := t }, none⟩
  | (.ok (), s, t) =>
    match s.funding.preConsume cfg env effective { a with token := t } with
    | none => none
    | some (.ok (), funding, a) =>
      let s := { s with funding, preConsumedQuota := effective }
      some ⟨.ok (), s.syncRelayInfo, a, none⟩
    | some (.error err, funding, a) =>
      match rollbackToken cfg env.rollback { s with funding } a.token with
      | (rollbackError, s, t) =>
        some ⟨.error (fundingFailure cfg env err), s, { a with token := t }, rollbackError⟩

/-- What the environment decides about a `Reserve`. -/
structure ReserveEnv where
  /-- `ImageRequestCount` of the request at the time of the call. -/
  imageRequestCount : Int
  funding : QuotaEnv
  token : QuotaEnv
  rollback : QuotaEnv

/-- `reserveFunding`. An image request goes through `PreConsume`, the other
wallet requests add to what is consumed. -/
def reserveFunding (delta : Int) (requireAvailable : Bool) (s : BillingSession) (a : Account) :
    Except NewAPIError Unit × BillingSession × Account :=
  match s.funding with
  | .wallet f =>
    if requireAvailable then
      match f.preConsume cfg env delta a.wallet with
      | (.ok (), f, w) => (.ok (), { s with funding := .wallet f }, { a with wallet := w })
      | (.error .insufficientWalletQuota, _, w) =>
        (.error (forbidden FundingError.insufficientWalletQuota.text .insufficientUserQuota), s,
          { a with wallet := w })
      | (.error (.other text), _, w) =>
        (.error (newError text .updateDataError), s, { a with wallet := w })
    else if s.relayInfo.strictQuotaReservation then
      match tryReserveUserQuota cfg.mode env delta a.wallet with
      | (.error text, w) => (.error (newError text .updateDataError), s, { a with wallet := w })
      | (.ok false, w) =>
        (.error (forbidden FundingError.insufficientWalletQuota.text .insufficientUserQuota), s,
          { a with wallet := w })
      | (.ok true, w) =>
        (.ok (), { s with funding := .wallet { f with consumed := f.consumed + delta } },
          { a with wallet := w })
    else
      match decreaseUserQuota cfg.mode env delta a.wallet with
      | (.error text, w) => (.error (newError text .updateDataError), s, { a with wallet := w })
      | (.ok (), w) =>
        (.ok (), { s with funding := .wallet { f with consumed := f.consumed + delta } },
          { a with wallet := w })
  | .subscription f =>
    match postConsumeUserSubscriptionDelta env.fault f.subscriptionId delta a.subscriptions with
    | (.ok (), db) => (.ok (), s, { a with subscriptions := db })
    | (.error text, db) =>
      (.error (forbidden ("订阅额度不足或未配置订阅: " ++ text) .insufficientUserQuota), s,
        { a with subscriptions := db })

/-- `rollbackFundingReserve`, with the error it logs. -/
def rollbackFundingReserve (delta : Int) (s : BillingSession) (a : Account) :
    Option String × BillingSession × Account :=
  match s.funding with
  | .wallet f =>
    match increaseUserQuota cfg.mode env delta a.wallet with
    | (.error text, w) => (some text, s, { a with wallet := w })
    | (.ok (), w) =>
      (none, { s with funding := .wallet { f with consumed := f.consumed - delta } },
        { a with wallet := w })
  | .subscription f =>
    match postConsumeUserSubscriptionDelta env.fault f.subscriptionId (-delta) a.subscriptions with
    | (.error text, db) => (some text, s, { a with subscriptions := db })
    | (.ok (), db) => (none, s, { a with subscriptions := db })

/-- `reserveToken`. -/
def reserveToken (delta : Int) (s : BillingSession) (t : Token) : Except NewAPIError Unit × Token :=
  if delta ≤ 0 ∨ s.relayInfo.isPlayground = true then (.ok (), t)
  else
    match preConsumeTokenQuota cfg env s.relayInfo delta t with
    | (.error text, t) => (.error (forbidden text .preConsumeTokenQuotaFailed), t)
    | (.ok (), t) => (.ok (), t)

/-- Whether a `Reserve` treats the request as an image request. -/
def isImageRequest (env : ReserveEnv) : Bool :=
  s.relayInfo.imageRequest || decide (0 < env.imageRequestCount)

/-- Whether a `Reserve` goes on to take the difference to its target. -/
def reserves (env : ReserveEnv) (target : Int) : Bool :=
  !(s.settled || s.refunded || (s.trusted && !s.isImageRequest env) ||
    decide (target ≤ s.preConsumedQuota))

/-- `Reserve`. -/
def reserve (cfg : BillingConfig) (env : ReserveEnv) (target : Int) (s : BillingSession)
    (a : Account) : CallResult :=
  if s.reserves env target then
    let image := s.isImageRequest env
    let delta := target - s.preConsumedQuota
    match s.reserveFunding cfg env.funding delta image a with
    | (.error err, s, a) => ⟨.error err, s, a, none⟩
    | (.ok (), s, a) =>
      match s.reserveToken cfg env.token delta a.token with
      | (.error err, t) =>
        match s.rollbackFundingReserve cfg env.rollback delta { a with token := t } with
        | (rollbackError, s, a) => ⟨.error err, s, a, rollbackError⟩
      | (.ok (), t) =>
        let s := { s with
          preConsumedQuota := s.preConsumedQuota + delta
          tokenConsumed := s.tokenConsumed + delta
          extraReserved := s.extraReserved + delta
          trusted := s.trusted && !image }
        ⟨.ok (), s.syncRelayInfo, { a with token := t }, none⟩
  else ⟨.ok (), s, a, none⟩

/-- What the environment decides about a `Settle`. -/
structure SettleEnv where
  funding : QuotaEnv
  token : QuotaEnv

def settleToken (delta : Int) (t : Token) : Except String Unit × Token :=
  if 0 < delta then decreaseTokenQuota cfg.mode env delta t
  else increaseTokenQuota cfg.mode env (-delta) t

/-- `settle`, with the error it returns. -/
def settle (cfg : BillingConfig) (env : SettleEnv) (actual : Int) (s : BillingSession)
    (a : Account) : Except String Unit × BillingSession × Account :=
  if s.settled then (.ok (), s, a)
  else
    let delta := actual - s.preConsumedQuota
    if delta = 0 then (.ok (), { s with settled := true }, a)
    else
      match if s.fundingSettled then (.ok (), a) else s.funding.settle cfg env.funding delta a with
      | (.error text, a) => (.error text, s, a)
      | (.ok (), a) =>
        let postDelta := match s.funding with
          | .wallet _ => s.relayInfo.subscriptionPostDelta
          | .subscription _ => s.relayInfo.subscriptionPostDelta + delta
        let s := { s with
          fundingSettled := true
          settled := true
          relayInfo := { s.relayInfo with subscriptionPostDelta := postDelta } }
        if s.relayInfo.isPlayground then (.ok (), s, a)
        else
          match settleToken cfg env.token delta a.token with
          | (res, t) => (res, s, { a with token := t })

/-- `needsRefundLocked`. -/
def needsRefund : Bool :=
  if s.settled || s.refunded || s.fundingSettled then false
  else if 0 < s.tokenConsumed then true
  else match s.funding with
    | .wallet _ => false
    | .subscription f => decide (0 < f.preConsumed)

/-- What a subscription gave later is given back apart from the first amount. -/
def refundExtra (env : RefundJobEnv) (failed : Bool) (s : BillingSession) (a : Account) :
    Bool × Account :=
  match s.funding with
  | .wallet _ => (failed, a)
  | .subscription _ =>
    if 0 < s.extraReserved ∧ 0 < s.relayInfo.subscriptionId then
      match postConsumeUserSubscriptionDelta env.extra s.relayInfo.subscriptionId
          (-s.extraReserved) a.subscriptions with
      | (.ok (), db) => (failed, { a with subscriptions := db })
      | (.error _, db) => (true, { a with subscriptions := db })
    else (failed, a)

/-- The part of a refund that runs later, and whether one of its updates failed. -/
def refundJob (env : RefundJobEnv) (s : BillingSession) (a : Account) : Bool × Account :=
  match s.funding.refund cfg env a with
  | (res, a) =>
    let failed := match res with
      | .ok () => false
      | .error _ => true
    match s.refundExtra env failed a with
    | (failed, a) =>
      if 0 < s.tokenConsumed ∧ s.relayInfo.isPlayground = false then
        match increaseTokenQuota cfg.mode env.token s.tokenConsumed a.token with
        | (.ok (), t) => (failed, { a with token := t })
        | (.error _, t) => (true, { a with token := t })
      else (failed, a)

/-- `Refund` without a stream id, with its second part run to the end. -/
def refund (cfg : BillingConfig) (env : RefundJobEnv) (s : BillingSession) (a : Account) :
    Bool × BillingSession × Account :=
  if s.settled || s.refunded then (false, s, a)
  else if s.needsRefund then
    match s.refundJob cfg env a with
    | (failed, a) => (failed, { s with refunded := true }, a)
  else (false, { s with refunded := true }, a)

end BillingSession

end NewApi
