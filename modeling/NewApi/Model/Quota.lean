import Mathlib.Tactic.Common

/-!
# Wallet and token quotas

The wallet of a user and the quota of a token are columns. A change is written to the row at
once or, when batch updates are on, queued and written later. The *balance* is the stored value
with what is queued for it.

A reservation first asks the script on the cached hash. Its answers come from the environment
(`QuotaEnv`), and so does the error of the one SQL statement of a call, which then changes nothing.
The functions are written once over `QuotaRow` and then at the two rows.
-/

namespace NewApi

/-- `BillingSourceWallet` and `BillingSourceSubscription`. -/
inductive BillingSource
  | wallet
  | subscription
deriving DecidableEq

/-- `common.MaxWalletQuota`, which is `1<<53 - 1`. -/
def maxWalletQuota : Int := 9007199254740991

/-- The switches of the process that decide where a quota change goes. -/
structure QuotaMode where
  /-- `common.RedisEnabled`. -/
  redisEnabled : Bool
  /-- `common.BatchUpdateEnabled`. -/
  batchUpdateEnabled : Bool
deriving DecidableEq

/-- `cacheQuotaResult`, the answer of a quota script. -/
inductive CacheQuotaResult
  | insufficient
  | ok
  | miss
deriving DecidableEq

/-- What the environment decides about one quota call. -/
structure QuotaEnv where
  fault : Option String
  /-- The first answer of the reservation script, or the Redis error. -/
  cache : Except String CacheQuotaResult
  hydrated : Bool
  retry : Except String CacheQuotaResult
  seen : Int

/-- A statement that succeeds, with a cache that does not answer. -/
def QuotaEnv.calm : QuotaEnv := ⟨none, .ok .miss, false, .ok .miss, 0⟩

def QuotaEnv.answer (env : QuotaEnv) : Except String CacheQuotaResult :=
  match env.cache with
  | .ok .miss => if env.hydrated then env.retry else .ok .miss
  | answer => answer

/-- A row with a quota column. -/
structure QuotaRow (ρ : Type) where
  stored : ρ → Int
  /-- `quota + delta` on the stored row. -/
  post : Int → ρ → ρ
  /-- `addNewRecord`, the same change queued for the next batch. -/
  addNewRecord : Int → ρ → ρ
  balance : ρ → Int
  balance_post : ∀ d r, balance (post d r) = balance r + d
  balance_addNewRecord : ∀ d r, balance (addNewRecord d r) = balance r + d

/-- A call fails and leaves the row, or it adds `d` to the balance. -/
def Adds {ε ρ : Type} (balance : ρ → Int) (d : Int) (r : ρ) (out : Except ε Unit × ρ) : Prop :=
  (∃ err, out = (.error err, r)) ∨ ∃ r', out = (.ok (), r') ∧ balance r' = balance r + d

/-- A reservation fails or is refused and leaves the row, or it takes the quota. -/
def Takes {ρ : Type} (balance : ρ → Int) (quota : Int) (r : ρ) (out : Except String Bool × ρ) :
    Prop :=
  (∃ err, out = (.error err, r)) ∨ out = (.ok false, r) ∨
    ∃ r', out = (.ok true, r') ∧ balance r' = balance r - quota

/-- The text of the error every function gives for a negative amount. -/
def negativeQuotaText : String := "quota 不能为负数！"

section Generic

variable {ρ : Type} (row : QuotaRow ρ) (mode : QuotaMode) (env : QuotaEnv)

/-- `persistUserQuotaDelta`, `persistTokenQuotaDelta`. -/
def persistQuotaDelta (delta : Int) (r : ρ) : Except String Unit × ρ :=
  if mode.batchUpdateEnabled then (.ok (), row.addNewRecord delta r)
  else match env.fault with
    | some err => (.error err, r)
    | none => (.ok (), row.post delta r)

variable (quota : Int)

/-- `reserveUserQuotaDB`, `reserveTokenQuotaDB`. -/
def reserveQuotaDB (r : ρ) : Except String Bool × ρ :=
  match env.fault with
  | some err => (.error err, r)
  | none => if quota ≤ row.stored r then (.ok true, row.post (-quota) r) else (.ok false, r)

/-- The reservation after the checks on the amount. -/
def reserveQuota (r : ρ) : Except String Bool × ρ :=
  if mode.redisEnabled then
    match env.answer with
    | .error _ | .ok .miss => reserveQuotaDB row env quota r
    | .ok .insufficient => (.ok false, r)
    | .ok .ok =>
      -- a failed write puts the reservation back into the cache, which is not modelled
      match persistQuotaDelta row mode env (-quota) r with
      | (.ok (), r') => (.ok true, r')
      | (.error err, r') => (.error err, r')
  else reserveQuotaDB row env quota r

def changeQuota (quota delta : Int) (r : ρ) : Except String Unit × ρ :=
  if quota < 0 then (.error negativeQuotaText, r) else persistQuotaDelta row mode env delta r

theorem persistQuotaDelta_spec (delta : Int) (r : ρ) :
    Adds row.balance delta r (persistQuotaDelta row mode env delta r) := by
  unfold persistQuotaDelta
  split
  · exact .inr ⟨_, rfl, row.balance_addNewRecord ..⟩
  · split
    · exact .inl ⟨_, rfl⟩
    · exact .inr ⟨_, rfl, row.balance_post ..⟩

theorem changeQuota_spec (quota delta : Int) (r : ρ) :
    Adds row.balance delta r (changeQuota row mode env quota delta r) := by
  unfold changeQuota
  split
  · exact .inl ⟨_, rfl⟩
  · exact persistQuotaDelta_spec row mode env delta r

theorem reserveQuotaDB_spec (r : ρ) :
    Takes row.balance quota r (reserveQuotaDB row env quota r) := by
  unfold reserveQuotaDB
  split
  · exact .inl ⟨_, rfl⟩
  · split
    · exact .inr (.inr ⟨_, rfl, row.balance_post ..⟩)
    · exact .inr (.inl rfl)

theorem reserveQuota_spec (r : ρ) :
    Takes row.balance quota r (reserveQuota row mode env quota r) := by
  unfold reserveQuota
  split
  · split
    · exact reserveQuotaDB_spec row env quota r
    · exact reserveQuotaDB_spec row env quota r
    · exact .inr (.inl rfl)
    · rcases persistQuotaDelta_spec row mode env (-quota) r with ⟨err, h⟩ | ⟨r', h, hb⟩ <;> rw [h]
      · exact .inl ⟨err, rfl⟩
      · exact .inr (.inr ⟨r', rfl, hb⟩)
  · exact reserveQuotaDB_spec row env quota r

end Generic

/-! ## The wallet -/

/-- The quota of a user. -/
structure Wallet where
  /-- The `quota` column. -/
  quota : Int
  queued : Int
deriving DecidableEq

/-- What the wallet is worth once the queue is written. -/
def Wallet.balance (w : Wallet) : Int := w.quota + w.queued

def walletRow : QuotaRow Wallet where
  stored := Wallet.quota
  post d w := { w with quota := w.quota + d }
  addNewRecord d w := { w with queued := w.queued + d }
  balance := Wallet.balance
  balance_post _ _ := by simp only [Wallet.balance]; omega
  balance_addNewRecord _ _ := by simp only [Wallet.balance]; omega

variable (mode : QuotaMode) (env : QuotaEnv) (quota : Int)

/-- `TryReserveUserQuota`. -/
def tryReserveUserQuota (w : Wallet) : Except String Bool × Wallet :=
  if quota < 0 then (.error negativeQuotaText, w)
  else if quota = 0 then (.ok true, w)
  else reserveQuota walletRow mode env quota w

/-- `DecreaseUserQuota`: the wallet may become negative. -/
def decreaseUserQuota (w : Wallet) : Except String Unit × Wallet :=
  changeQuota walletRow mode env quota (-quota) w

/-- `IncreaseUserQuota`: the direct write keeps the stored quota at most
`maxWalletQuota`, the queued one does not look at it. -/
def increaseUserQuota (w : Wallet) : Except String Unit × Wallet :=
  if quota < 0 then (.error negativeQuotaText, w)
  else if maxWalletQuota < quota then (.error s!"wallet quota exceeds {maxWalletQuota}", w)
  else if mode.batchUpdateEnabled then (.ok (), walletRow.addNewRecord quota w)
  else match env.fault with
    | some err => (.error err, w)
    | none =>
      if w.quota ≤ maxWalletQuota - quota then (.ok (), walletRow.post quota w)
      else (.error "wallet quota limit exceeded", w)

section

variable (mode : QuotaMode) (env : QuotaEnv)

theorem tryReserveUserQuota_spec (quota : Int) (w : Wallet) :
    Takes Wallet.balance quota w (tryReserveUserQuota mode env quota w) := by
  unfold tryReserveUserQuota
  split
  · exact .inl ⟨_, rfl⟩
  · split
    next h => exact .inr (.inr ⟨w, rfl, by omega⟩)
    · exact reserveQuota_spec walletRow mode env quota w

theorem decreaseUserQuota_spec (quota : Int) (w : Wallet) :
    Adds Wallet.balance (-quota) w (decreaseUserQuota mode env quota w) :=
  changeQuota_spec walletRow mode env quota (-quota) w

theorem increaseUserQuota_spec (quota : Int) (w : Wallet) :
    Adds Wallet.balance quota w (increaseUserQuota mode env quota w) := by
  unfold increaseUserQuota
  split
  · exact .inl ⟨_, rfl⟩
  split
  · exact .inl ⟨_, rfl⟩
  split
  · exact .inr ⟨_, rfl, walletRow.balance_addNewRecord ..⟩
  split
  · exact .inl ⟨_, rfl⟩
  · split
    · exact .inr ⟨_, rfl, walletRow.balance_post ..⟩
    · exact .inl ⟨_, rfl⟩

end

/-! ## The token -/

/-- The quota of an access token. -/
structure Token where
  /-- The `remain_quota` column. -/
  remainQuota : Int
  /-- The `used_quota` column. -/
  usedQuota : Int
  /-- What the batch updater has still to add to the former and take off the latter. -/
  queued : Int
deriving DecidableEq

/-- What the token has left once the queue is written. -/
def Token.balance (t : Token) : Int := t.remainQuota + t.queued

def tokenRow : QuotaRow Token where
  stored := Token.remainQuota
  post d t := { t with remainQuota := t.remainQuota + d, usedQuota := t.usedQuota - d }
  addNewRecord d t := { t with queued := t.queued + d }
  balance := Token.balance
  balance_post _ _ := by simp only [Token.balance]; omega
  balance_addNewRecord _ _ := by simp only [Token.balance]; omega

/-- `DecreaseTokenQuota`. -/
def decreaseTokenQuota (t : Token) : Except String Unit × Token :=
  changeQuota tokenRow mode env quota (-quota) t

/-- `IncreaseTokenQuota`. -/
def increaseTokenQuota (t : Token) : Except String Unit × Token :=
  changeQuota tokenRow mode env quota quota t

/-- `TryReserveTokenQuota`: an unlimited token skips the check of the balance. -/
def tryReserveTokenQuota (unlimited : Bool) (t : Token) : Except String Bool × Token :=
  if quota < 0 then (.error negativeQuotaText, t)
  else if quota = 0 then (.ok true, t)
  else if unlimited then
    match decreaseTokenQuota mode env quota t with
    | (.ok (), t') => (.ok true, t')
    | (.error err, t') => (.error err, t')
  else reserveQuota tokenRow mode env quota t

section

variable (mode : QuotaMode) (env : QuotaEnv)

theorem decreaseTokenQuota_spec (quota : Int) (t : Token) :
    Adds Token.balance (-quota) t (decreaseTokenQuota mode env quota t) :=
  changeQuota_spec tokenRow mode env quota (-quota) t

theorem increaseTokenQuota_spec (quota : Int) (t : Token) :
    Adds Token.balance quota t (increaseTokenQuota mode env quota t) :=
  changeQuota_spec tokenRow mode env quota quota t

theorem tryReserveTokenQuota_spec (quota : Int) (unlimited : Bool) (t : Token) :
    Takes Token.balance quota t (tryReserveTokenQuota mode env quota unlimited t) := by
  unfold tryReserveTokenQuota
  split
  · exact .inl ⟨_, rfl⟩
  split
  next h => exact .inr (.inr ⟨t, rfl, by omega⟩)
  split
  · rcases decreaseTokenQuota_spec mode env quota t with ⟨err, h⟩ | ⟨t', h, hb⟩ <;> rw [h]
    · exact .inl ⟨err, rfl⟩
    · exact .inr (.inr ⟨t', rfl, hb⟩)
  · exact reserveQuota_spec tokenRow mode env quota t

end

end NewApi
