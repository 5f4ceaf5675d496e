import Mathlib.Data.Rat.Floor
import NewApi.Lib.Double
import NewApi.Model.Quota
import NewApi.Subscription.Admin

/-!
# Top-up orders

An order is created pending and completed by the callback of its provider or by an administrator.
Each of the six completions locks the row of the order, checks provider and status, computes the
quota, marks the order and credits the wallet in one transaction.

`Amount` counts units of `QuotaPerUnit` quota, except for Creem, where it is the quota itself.
For Stripe `Money` is what counts. `credits` is a record of the committed credits that no
function reads.
-/

namespace NewApi

/-- The `payment_provider` of an order. -/
inductive PaymentProvider
  | epay
  | stripe
  | creem
  | waffo
  | waffoPancake
  | balance
  | unset
deriving DecidableEq

/-- The `status` of an order. -/
inductive TopUpStatus
  | pending
  | success
  | failed
  | expired
deriving DecidableEq

/-- `TopUp`. -/
structure TopUp where
  tradeNo : String
  (userId amount : Int)
  /-- What `decimal.NewFromFloat` reads from the column. -/
  money : ℚ
  paymentMethod : String
  paymentProvider : PaymentProvider
  completeTime : Int
  status : TopUpStatus
deriving DecidableEq

/-- The columns of `User` that a completion reads or writes. -/
structure TopUpUser where
  (id role quota : Int)
  (email stripeCustomer : String)
deriving DecidableEq

/-- A credit and the quota it left. -/
structure TopUpCredit where
  tradeNo : String
  (userId quota : Int)
  /-- The `quota` column after the update. -/
  after : Int
deriving DecidableEq

/-- The tables. -/
structure TopUpDb where
  orders : Table TopUp.tradeNo
  users : Table TopUpUser.id
  credits : List TopUpCredit

/-- The statements of a completion. -/
inductive TopUpStatement
  | lockOrder
  | lockUser
  | readUser
  | save
  | credit
deriving DecidableEq

/-- What the environment decides about a transaction. -/
structure TopUpEnv where
  /-- `common.GetTimestamp()`. -/
  now : Int
  fault : Option (TopUpStatement × String)
deriving DecidableEq

variable (env : TopUpEnv)

def TopUpEnv.fails (statement : TopUpStatement) : Option String :=
  match env.fault with
  | some (failing, err) => if failing = statement then some err else none
  | none => none

/-! ## Errors -/

/-- `ErrPaymentMethodMismatch`. -/
def paymentMethodMismatch : String := "payment method mismatch"

/-- `ErrTopUpNotFound`. -/
def topUpNotFound : String := "topup not found"

/-- `ErrTopUpStatusInvalid`. -/
def topUpStatusInvalid : String := "topup status invalid"

/-- `ErrInvalidTopUpQuota`. -/
def invalidTopUpQuota : String := "invalid top-up quota"

/-- `ErrTopUpQuotaLimitExceeded`. -/
def topUpQuotaLimitExceeded : String := "top-up quota limit exceeded"

/-- `ErrTopUpTargetNotManageable`. -/
def topUpTargetNotManageable : String := "topup target not manageable"

/-- `gorm.ErrRecordNotFound`. -/
def recordNotFound : String := "record not found"

def check (condition : Bool) (err : String) : Except String Unit :=
  if condition then .ok () else .error err

/-! ## Quota -/

/-- `decimal.Round(0)`: half away from zero. -/
def roundHalfAway (d : ℚ) : Int := if d < 0 then -⌊-d + 1 / 2⌋ else ⌊d + 1 / 2⌋

/-- `WalletQuotaFromDecimalStrict`, `none` where it saturates. -/
def walletQuotaFromDecimalStrict (d : ℚ) : Option Int :=
  let value := Double.ofInt (roundHalfAway d)
  if maxWalletQuota < value ∨ value < -maxWalletQuota then none else some value

/-- The quota of an order, which must be positive. -/
def topUpQuota (d : ℚ) : Except String Int :=
  match walletQuotaFromDecimalStrict d with
  | some quota => if quota ≤ 0 then .error invalidTopUpQuota else .ok quota
  | none => .error invalidTopUpQuota

/-! ## Statements -/

/-- `lockForUpdate(tx).First(topUp)` where every error is answered the same. -/
def TopUpDb.lockTopUp (tradeNo missing : String) (db : TopUpDb) : Except String TopUp :=
  match env.fails .lockOrder, db.orders.find tradeNo with
  | none, some order => .ok order
  | _, _ => .error missing

def TopUp.complete (now : Int) (order : TopUp) : TopUp :=
  { order with completeTime := now, status := .success }

/-- `tx.Save(topUp)`. -/
def TopUpDb.saveTopUp (order : TopUp) (db : TopUpDb) : Except String TopUpDb :=
  match env.fails .save with
  | some err => .error err
  | none => .ok { db with orders := db.orders.save order }

/-- The columns a completion writes next to the quota. -/
structure UserUpdates where
  (email stripeCustomer : Option String)
deriving DecidableEq

def TopUpUser.credit (quota : Int) (updates : UserUpdates) (user : TopUpUser) : TopUpUser :=
  { user with
    quota := user.quota + quota
    email := updates.email.getD user.email
    stripeCustomer := updates.stripeCustomer.getD user.stripeCustomer }

/-- `creditTopUpQuota`, for the order that is completed. -/
def TopUpDb.creditTopUpQuota (order : TopUp) (quota : Int) (updates : UserUpdates) (db : TopUpDb) :
    Except String TopUpDb :=
  if quota ≤ 0 ∨ maxWalletQuota < quota then .error invalidTopUpQuota
  else match env.fails .credit, db.users.find order.userId with
    | some err, _ => .error err
    | none, none => .error recordNotFound
    | none, some user =>
      if user.quota ≤ maxWalletQuota - quota then
        .ok { db with
          users := db.users.save (user.credit quota updates)
          credits := ⟨order.tradeNo, order.userId, quota, user.quota + quota⟩ :: db.credits }
      else .error topUpQuotaLimitExceeded

/-! ## Completions

Each returns whether it completed the order, with the tables. -/

variable (quotaPerUnit : ℚ)

/-- The callbacks that compute the quota before they save the order, and that answer
a completed order with success. -/
def rechargeUnits (env : TopUpEnv) (provider : PaymentProvider) (missing badStatus : String)
    (method : TopUp → TopUp) (tradeNo : String) (db : TopUpDb) :
    Except String (Bool × TopUpDb) := do
  let order ← db.lockTopUp env tradeNo missing
  check (order.paymentProvider = provider) paymentMethodMismatch
  if order.status = .success then .ok (false, db)
  else do
    check (order.status = .pending) badStatus
    let quota ← topUpQuota (order.amount * quotaPerUnit)
    let db ← db.saveTopUp env ((method order).complete env.now)
    let db ← db.creditTopUpQuota env order quota ⟨none, none⟩
    .ok (true, db)

/-- The callbacks that save the order before they compute the quota. -/
def rechargeSaved (provider : PaymentProvider) (quotaOf : TopUp → ℚ)
    (updates : TopUp → Except String UserUpdates) (tradeNo : String) (db : TopUpDb) :
    Except String (Bool × TopUpDb) := do
  let order ← db.lockTopUp env tradeNo "充值订单不存在"
  check (order.paymentProvider = provider) paymentMethodMismatch
  check (order.status = .pending) "充值订单状态错误"
  let db ← db.saveTopUp env (order.complete env.now)
  let quota ← topUpQuota (quotaOf order)
  let columns ← updates order
  let db ← db.creditTopUpQuota env order quota columns
  .ok (true, db)

/-- The check of the reference, and the one answer for every error after it. -/
def callback (tradeNo : String) (result : Except String (Bool × TopUpDb)) :
    Except String (Bool × TopUpDb) :=
  if tradeNo = "" then .error "未提供支付单号"
  else result.mapError fun _ => "充值失败，请稍后重试"

/-- `RechargeEpay`. -/
def rechargeEpay (env : TopUpEnv) (tradeNo actualPaymentMethod : String) (db : TopUpDb) :
    Except String (Bool × TopUpDb) :=
  if tradeNo = "" then .error "未提供支付单号"
  else rechargeUnits quotaPerUnit env .epay topUpNotFound topUpStatusInvalid
    (fun order => if actualPaymentMethod ≠ "" ∧ order.paymentMethod ≠ actualPaymentMethod then
      { order with paymentMethod := actualPaymentMethod } else order) tradeNo db

/-- `Recharge`, for Stripe. -/
def recharge (env : TopUpEnv) (referenceId customerId : String) (db : TopUpDb) :
    Except String (Bool × TopUpDb) :=
  callback referenceId (rechargeSaved env .stripe (fun order => order.money * quotaPerUnit)
    (fun _ => .ok ⟨none, some customerId⟩) referenceId db)

/-- The email a Creem callback stores: the customer's, when the user has none. -/
def creemUpdates (customerEmail : String) (users : Table TopUpUser.id) (order : TopUp) :
    Except String UserUpdates :=
  if customerEmail = "" then .ok ⟨none, none⟩
  else match env.fails .readUser, users.find order.userId with
    | some err, _ => .error err
    | none, none => .error recordNotFound
    | none, some user =>
      if user.email = "" then .ok ⟨some customerEmail, none⟩ else .ok ⟨none, none⟩

/-- `RechargeCreem`: the amount of the order is the quota. -/
def rechargeCreem (referenceId customerEmail : String) (db : TopUpDb) :
    Except String (Bool × TopUpDb) :=
  callback referenceId (rechargeSaved env .creem (fun order => order.amount)
    (creemUpdates env customerEmail db.users) referenceId db)

/-- `RechargeWaffo`. -/
def rechargeWaffo (env : TopUpEnv) (tradeNo : String) (db : TopUpDb) :
    Except String (Bool × TopUpDb) :=
  callback tradeNo
    (rechargeUnits quotaPerUnit env .waffo "充值订单不存在" "充值订单状态错误" id tradeNo db)

/-- `RechargeWaffoPancake`. -/
def rechargeWaffoPancake (env : TopUpEnv) (tradeNo : String) (db : TopUpDb) :
    Except String (Bool × TopUpDb) :=
  callback tradeNo
    (rechargeUnits quotaPerUnit env .waffoPancake "充值订单不存在" "充值订单状态错误" id tradeNo db)

/-- `UpdatePendingTopUpStatus`. -/
def updatePendingTopUpStatus (tradeNo : String) (expected : Option PaymentProvider)
    (target : TopUpStatus) (db : TopUpDb) : Except String TopUpDb :=
  if tradeNo = "" then .error "未提供支付单号"
  else do
    let order ← db.lockTopUp env tradeNo topUpNotFound
    check (expected.all (· = order.paymentProvider)) paymentMethodMismatch
    check (order.status = .pending) topUpStatusInvalid
    db.saveTopUp env { order with status := target }

def TopUpDb.lockManualTopUp (tradeNo : String) (operatorRole : Int) (db : TopUpDb) :
    Except String TopUp :=
  match env.fails .lockOrder, db.orders.find tradeNo with
  | some err, _ => .error err
  | none, some order => .ok order
  | none, none =>
    if operatorRole = roleAdminUser then .error topUpTargetNotManageable
    else .error "充值订单不存在"

/-- The owner of the order, who must be below the operator. -/
def TopUpDb.lockOwner (operatorRole : Int) (order : TopUp) (db : TopUpDb) : Except String Unit :=
  match env.fails .lockUser, db.users.find order.userId with
  | some err, _ => .error err
  | none, none => .error topUpTargetNotManageable
  | none, some user => check (canManageUserRole operatorRole user.role) topUpTargetNotManageable

/-- What a manual completion multiplies out: `Money` for Stripe, else `Amount`. -/
def manualUnits (order : TopUp) : ℚ :=
  if order.paymentProvider = .stripe then order.money * quotaPerUnit
  else order.amount * quotaPerUnit

/-- `ManualCompleteTopUpForRole`. -/
def manualCompleteTopUpForRole (env : TopUpEnv) (tradeNo : String) (operatorRole : Int)
    (db : TopUpDb) : Except String (Bool × TopUpDb) :=
  if tradeNo = "" then .error "未提供订单号"
  else do
    let order ← db.lockManualTopUp env tradeNo operatorRole
    db.lockOwner env operatorRole order
    if order.status = .success then .ok (false, db)
    else do
      check (order.status = .pending) "订单状态不是待支付，无法补单"
      let quota ← topUpQuota (manualUnits quotaPerUnit order)
      let db ← db.saveTopUp env (order.complete env.now)
      let db ← db.creditTopUpQuota env order quota ⟨none, none⟩
      .ok (true, db)

/-! ## The system -/

/-- A transaction on the orders, or any other change of a wallet. -/
inductive TopUpAction
  | rechargeEpay (env : TopUpEnv) (tradeNo actualPaymentMethod : String)
  | recharge (env : TopUpEnv) (referenceId customerId : String)
  | rechargeCreem (env : TopUpEnv) (referenceId customerEmail : String)
  | rechargeWaffo (env : TopUpEnv) (tradeNo : String)
  | rechargeWaffoPancake (env : TopUpEnv) (tradeNo : String)
  | updatePending (env : TopUpEnv) (tradeNo : String) (expected : Option PaymentProvider)
      (target : TopUpStatus)
  | manualComplete (env : TopUpEnv) (tradeNo : String) (operatorRole : Int)
  | wallet (userId quota : Int)
deriving DecidableEq

/-- The tables after a transaction, which an error rolls back. -/
def TopUpDb.commit (db : TopUpDb) (result : Except String (Bool × TopUpDb)) : TopUpDb :=
  match result with
  | .ok (_, db') => db'
  | .error _ => db

def TopUpDb.step (db : TopUpDb) : TopUpAction → TopUpDb
  | .rechargeEpay env tradeNo method =>
    db.commit (NewApi.rechargeEpay quotaPerUnit env tradeNo method db)
  | .recharge env referenceId customerId =>
    db.commit (NewApi.recharge quotaPerUnit env referenceId customerId db)
  | .rechargeCreem env referenceId email =>
    db.commit (NewApi.rechargeCreem env referenceId email db)
  | .rechargeWaffo env tradeNo => db.commit (NewApi.rechargeWaffo quotaPerUnit env tradeNo db)
  | .rechargeWaffoPancake env tradeNo =>
    db.commit (NewApi.rechargeWaffoPancake quotaPerUnit env tradeNo db)
  | .updatePending env tradeNo expected target =>
    db.commit ((updatePendingTopUpStatus env tradeNo expected target db).map (true, ·))
  | .manualComplete env tradeNo operatorRole =>
    db.commit (manualCompleteTopUpForRole quotaPerUnit env tradeNo operatorRole db)
  | .wallet userId quota =>
    match db.users.find userId with
    | some user => { db with users := db.users.save { user with quota := quota } }
    | none => db

end NewApi
