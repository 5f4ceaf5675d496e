import Mathlib.Data.Rat.Defs
import NewApi.Lib.Double
import NewApi.Lib.Runs
import NewApi.Lib.Table
import NewApi.Model.Quota

/-!
# The wallet of a user and its cached copy

The quota of a user is kept in three places: the `quota` column, the record of the user in the
batch map, and the `Quota` field of the user hash in Redis. A call on the wallet touches them one
at a time, a script, an SQL statement or a locked section at each step, and other calls run in
between. The background step of `IncreaseUserQuota` and `DecreaseUserQuota` belongs to the call:
`sync` is a call that has still to change the hash.

The user exists, every Redis and SQL call succeeds, and a hash is complete.
-/

namespace NewApi

/-- The settings the wallet functions read. -/
structure WalletConfig where
  /-- `common.BatchUpdateEnabled`. -/
  batchUpdateEnabled : Bool
  /-- `common.QuotaPerUnit`. -/
  quotaPerUnit : ℚ
  /-- `logger.LogQuota` of the smallest transfer. -/
  minTransfer : String

/-- The places the quota of a user is kept in. -/
structure UserWallet where
  /-- `Quota` of the user hash, when there is a hash. -/
  hash : Option Int
  /-- The `quota` column. -/
  quota : Int
  /-- The `aff_quota` column. -/
  affQuota : Int
  pending : Option Int
deriving DecidableEq

/-! ## Redis scripts, SQL statements and the batch map -/

/-- `math.MaxInt`. -/
def maxInt : Int := 9223372036854775807

/-- `math.MinInt`. -/
def minInt : Int := -9223372036854775808

/-- `addNewRecord`: the sum of two machine integers, saturated where it wraps. -/
def addNewRecord (old : Option Int) (value : Int) : Int :=
  match old with
  | none => value
  | some old =>
    let sum := Int.bmod (old + value) 18446744073709551616
    if (0 < value ∧ sum < old) ∨ (value < 0 ∧ old < sum) then
      if 0 < value then maxInt else minInt
    else sum

namespace UserWallet

/-- `userQuotaReserveScript`. Numbers of the script language are doubles. -/
def tryReserve (amount : Int) (w : UserWallet) : CacheQuotaResult × UserWallet :=
  match w.hash with
  | none => (.miss, w)
  | some quota =>
    if Double.ofInt quota < Double.ofInt amount then (.insufficient, w)
    else (.ok, { w with hash := some (quota - Double.ofInt amount) })

variable (delta : Int) (w : UserWallet)

/-- `userQuotaDeltaScript`, which leaves a missing hash alone. -/
def applyDelta : UserWallet := { w with hash := w.hash.map (· + delta) }

/-- The script of `writeUserCache` with the quota, which an existing hash keeps. -/
def populate (quota : Int) (w : UserWallet) : UserWallet :=
  { w with hash := some (w.hash.getD quota) }

def post : UserWallet := { w with quota := w.quota + delta }

def record : UserWallet := { w with pending := some (NewApi.addNewRecord w.pending delta) }

/-- `persistUserQuotaDelta`, and the choice every other change makes. -/
def persist (batch : Bool) (delta : Int) (w : UserWallet) : UserWallet :=
  if batch then w.record delta else w.post delta

end UserWallet

/-! ## Calls -/

/-- A call on the wallet. -/
inductive WalletJob
  /-- `TryReserveUserQuota`. -/
  | tryReserve (amount : Int)
  /-- `GetUserCache`. -/
  | getUserCache
  /-- `batchUpdate`. -/
  | batchUpdate
  /-- `IncreaseUserQuota`. -/
  | increase (quota : Int) (db : Bool)
  /-- `DecreaseUserQuota`. -/
  | decrease (quota : Int) (db : Bool)
  /-- `creditTopUpQuota` and, once it is committed, `syncCreditUserQuotaCache`. -/
  | credit (quota : Int)
  /-- `TransferAffQuotaToQuota`. -/
  | transfer (quota : Int)
deriving DecidableEq

/-- An amount a reservation asks the cache or the database for. -/
structure ReserveAmount where
  value : Int
  /-- It passed the checks of `TryReserveUserQuota`. -/
  pos : 0 < value
deriving DecidableEq

theorem pos_of_checked {amount : Int} (hneg : ¬amount < 0) (hzero : ¬amount = 0) : 0 < amount := by
  omega

/-- What a call does next. -/
inductive WalletStage
  | start (job : WalletJob)
  /-- `cacheGetUserBase`, for a reservation or for `GetUserCache` alone. -/
  | look (amount : Option ReserveAmount)
  /-- `GetUserById`. -/
  | load (amount : Option ReserveAmount)
  /-- `populateUserCache` with the quota that was read. -/
  | store (amount : Option ReserveAmount) (quota : Int)
  | retry (amount : ReserveAmount)
  /-- `reserveUserQuotaDB`. -/
  | reserveDB (amount : ReserveAmount)
  /-- `persistUserQuotaDelta`, after the cache gave the amount. -/
  | persist (amount : ReserveAmount)
  /-- The update of the row with the value taken from the batch map. -/
  | flush (value : Int)
  /-- The change of `DecreaseUserQuota`, after its background step. -/
  | debit (quota : Int) (db : Bool)
  | sync (delta : Int)
  | granted (amount : Int)
  | refused
  | done (answer : Except String Unit)

/-- What the environment decides about one step. -/
structure WalletEnv where
  /-- The hash, or the row that was read, is older than the fence of the user. -/
  fenced : Bool
  /-- The background step of `DecreaseUserQuota` runs before its statement. -/
  cacheFirst : Bool
deriving DecidableEq

/-- `ErrUserAuthCachePending`. -/
def userAuthCachePendingText : String := "user authentication state update is pending"

/-- Where `GetUserCache` returns to. -/
def hydrated (amount : Option ReserveAmount) (answer : Except String Unit) : WalletStage :=
  match amount, answer with
  | some amount, .ok () => .retry amount
  | some amount, .error _ => .reserveDB amount
  | none, answer => .done answer

/-- `cacheTryReserveUserQuota`, with what follows each answer. -/
def reserveInCache (amount : ReserveAmount) (missed : WalletStage) (w : UserWallet) :
    UserWallet × WalletStage :=
  match w.tryReserve amount.value with
  | (.ok, w') => (w', .persist amount)
  | (.insufficient, w') => (w', .refused)
  | (.miss, w') => (w', missed)

variable (cfg : WalletConfig)

/-- Whether `TransferAffQuotaToQuota` moves the amount, or why not. -/
def transferError (quota : Int) (w : UserWallet) : Option String :=
  if (Double.ofInt quota : ℚ) < cfg.quotaPerUnit then some s!"转移额度最小为{cfg.minTransfer}！"
  else if w.affQuota < quota then some "邀请额度不足！"
  else none

def WalletJob.begin (env : WalletEnv) (w : UserWallet) : WalletJob → UserWallet × WalletStage
  | .tryReserve amount =>
    if hneg : amount < 0 then (w, .done (.error negativeQuotaText))
    else if hzero : amount = 0 then (w, .granted 0)
    else
      let amount := ⟨amount, pos_of_checked hneg hzero⟩
      reserveInCache amount (.look (some amount)) w
  | .getUserCache => (w, .look none)
  | .batchUpdate =>
    match w.pending with
    | none => (w, .done (.ok ()))
    | some value => ({ w with pending := none }, .flush value)
  | .increase quota db =>
    if quota < 0 then (w, .done (.error negativeQuotaText))
    else if maxWalletQuota < quota then
      (w, .done (.error s!"wallet quota exceeds {maxWalletQuota}"))
    else if !db && cfg.batchUpdateEnabled then (w.record quota, .sync quota)
    else if w.quota ≤ maxWalletQuota - quota then (w.post quota, .sync quota)
    else (w, .done (.error "wallet quota limit exceeded"))
  | .decrease quota db =>
    if quota < 0 then (w, .done (.error negativeQuotaText))
    else if env.cacheFirst then (w.applyDelta (-quota), .debit quota db)
    else (w.persist (!db && cfg.batchUpdateEnabled) (-quota), .sync (-quota))
  | .credit quota =>
    if quota ≤ 0 ∨ maxWalletQuota < quota then (w, .done (.error "invalid top-up quota"))
    else if w.quota ≤ maxWalletQuota - quota then (w.post quota, .sync quota)
    else (w, .done (.error "top-up quota limit exceeded"))
  | .transfer quota =>
    match transferError cfg quota w with
    | some err => (w, .done (.error err))
    | none =>
      ({ w with affQuota := w.affQuota - quota, quota := w.quota + quota }, .done (.ok ()))

def WalletStage.advance (env : WalletEnv) (w : UserWallet) : WalletStage → UserWallet × WalletStage
  | .start job => job.begin cfg env w
  | .look amount =>
    if w.hash.isSome && !env.fenced then (w, hydrated amount (.ok ())) else (w, .load amount)
  | .load amount => (w, .store amount w.quota)
  | .store amount quota =>
    if env.fenced then (w, hydrated amount (.error userAuthCachePendingText))
    else (w.populate quota, hydrated amount (.ok ()))
  | .retry amount => reserveInCache amount (.reserveDB amount) w
  | .reserveDB amount =>
    if amount.value ≤ w.quota then (w.post (-amount.value), .granted amount.value)
    else (w, .refused)
  | .persist amount =>
    (w.persist cfg.batchUpdateEnabled (-amount.value), .granted amount.value)
  | .flush value => (w.post value, .done (.ok ()))
  | .debit quota db =>
    (w.persist (!db && cfg.batchUpdateEnabled) (-quota), .done (.ok ()))
  | .sync delta => (w.applyDelta delta, .done (.ok ()))
  | .granted amount => (w, .granted amount)
  | .refused => (w, .refused)
  | .done answer => (w, .done answer)

/-- The call has returned and its background step is over. -/
def WalletStage.finished : WalletStage → Bool
  | .granted _ | .refused | .done _ => true
  | _ => false

/-- A call on the wallet of the user. -/
structure WalletCall where
  id : Nat
  stage : WalletStage

/-- The wallet and the calls on it. -/
structure WalletState where
  wallet : UserWallet
  calls : Table WalletCall.id

/-- What happens next. -/
inductive WalletAction
  | call (id : Nat) (job : WalletJob)
  | step (id : Nat) (env : WalletEnv)
  | expire
deriving DecidableEq

def WalletState.step (cfg : WalletConfig) (s : WalletState) : WalletAction → WalletState
  | .call id job =>
    match s.calls.insert ⟨id, .start job⟩ with
    | some calls => { s with calls := calls }
    | none => s
  | .step id env =>
    match s.calls.find id with
    | some call =>
      let next := call.stage.advance cfg env s.wallet
      ⟨next.1, s.calls.save ⟨id, next.2⟩⟩
    | none => s
  | .expire => { s with wallet := { s.wallet with hash := none } }

end NewApi
