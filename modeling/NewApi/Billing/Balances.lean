import NewApi.Billing.Session

/-!
# What the calls do to the balances

How each call moves the balance of the token, that of the funding source and what the
session has on record, whatever the environment decides.

A call that takes quota takes the same amount `d` from the funding source and, unless
the request is a playground one, from the token, and adds `d` to its records (`Moved`).
A `Reserve` of an image request first clears the wallet's record, the `reset` of `Moved`.
-/

namespace NewApi

variable (a : Account)

/-- What the funding source has left. A subscription counts its used amount. -/
def Account.fundingBalance : FundingSource → Int
  | .wallet _ => a.wallet.balance
  | .subscription f => -a.subscriptions.used f.subscriptionId

variable (reset : Bool)

/-- The funding source with `d` more on record. -/
def FundingSource.moved (d : Int) : FundingSource → FundingSource
  | .wallet f => .wallet { f with consumed := (if reset then 0 else f.consumed) + d }
  | .subscription f => .subscription f

variable (f : FundingSource)

@[simp] theorem fundingBalance_moved (d : Int) :
    a.fundingBalance (f.moved reset d) = a.fundingBalance f := by cases f <;> rfl

@[simp] theorem fundingBalance_token (t : Token) (f : FundingSource) :
    ({ a with token := t } : Account).fundingBalance f = a.fundingBalance f := by cases f <;> rfl

@[simp] theorem FundingSource.moved_zero : f.moved false 0 = f := by
  cases f <;> simp [FundingSource.moved]

theorem FundingSource.moved_moved (d e : Int) :
    (f.moved reset d).moved false e = f.moved reset (d + e) := by
  cases f <;> simp [FundingSource.moved, Int.add_assoc]

theorem le_used_of_reserved {f : FundingSource} {a a₁ : Account} {delta : Int} {reset : Bool}
    {sub : SubscriptionFunding} (hb : a₁.fundingBalance f = a.fundingBalance f - delta)
    (hf : f.moved reset delta = .subscription sub) :
    delta ≤ a₁.subscriptions.used sub.subscriptionId := by
  cases f with
  | wallet g => cases hf
  | subscription g =>
    cases hf
    have := a.subscriptions.used_nonneg sub.subscriptionId
    simp only [Account.fundingBalance] at hb
    omega

namespace BillingSession

variable {cfg : BillingConfig}

/-- The part of an amount that the token pays. -/
def tokenShare (s : BillingSession) (d : Int) : Int := if s.relayInfo.isPlayground then 0 else d

@[simp] theorem tokenShare_zero (s : BillingSession) : s.tokenShare 0 = 0 := by simp [tokenShare]

theorem tokenShare_add (s : BillingSession) (d e : Int) :
    s.tokenShare (d + e) = s.tokenShare d + s.tokenShare e := by
  cases h : s.relayInfo.isPlayground <;> simp [tokenShare, h]

theorem tokenShare_unpaid {s : BillingSession}
    (h : ¬(0 < s.tokenConsumed ∧ s.relayInfo.isPlayground = false)) :
    s.tokenShare (max s.tokenConsumed 0) = 0 := by
  by_cases hplay : s.relayInfo.isPlayground = true
  · rw [tokenShare, if_pos hplay]
  · have : ¬ 0 < s.tokenConsumed := fun hpos => h ⟨hpos, by simpa using hplay⟩
    rw [Int.max_eq_right (by omega), tokenShare_zero]

/-- The session and the account after `d` was taken. -/
structure Moved (s s' : BillingSession) (a a' : Account) (reset : Bool) (d : Int) : Prop where
  nonneg : 0 ≤ d
  funding : s'.funding = s.funding.moved reset d
  preConsumedQuota : s'.preConsumedQuota = s.preConsumedQuota + d
  tokenConsumed : s'.tokenConsumed = s.tokenConsumed + d
  settled : s'.settled = s.settled
  refunded : s'.refunded = s.refunded
  fundingSettled : s'.fundingSettled = s.fundingSettled
  isPlayground : s'.relayInfo.isPlayground = s.relayInfo.isPlayground
  fundingBalance : a'.fundingBalance s.funding = a.fundingBalance s.funding - d
  token : a'.token.balance = a.token.balance - s.tokenShare d

theorem Moved.refl (s : BillingSession) (a : Account) : Moved s s a a false 0 where
  nonneg := Int.le_refl 0
  funding := s.funding.moved_zero.symm
  preConsumedQuota := by omega
  tokenConsumed := by omega
  settled := rfl
  refunded := rfl
  fundingSettled := rfl
  isPlayground := rfl
  fundingBalance := by omega
  token := by rw [tokenShare_zero]; omega

theorem syncRelayInfo_fields (s : BillingSession) :
    s.syncRelayInfo.funding = s.funding ∧ s.syncRelayInfo.preConsumedQuota = s.preConsumedQuota ∧
      s.syncRelayInfo.tokenConsumed = s.tokenConsumed ∧
      s.syncRelayInfo.extraReserved = s.extraReserved ∧
      s.syncRelayInfo.settled = s.settled ∧ s.syncRelayInfo.refunded = s.refunded ∧
      s.syncRelayInfo.fundingSettled = s.fundingSettled ∧
      s.syncRelayInfo.relayInfo.isPlayground = s.relayInfo.isPlayground := by
  simp only [syncRelayInfo]
  split <;> simp [*]

/-! ## The token -/

variable (cfg)

theorem preConsumeTokenQuota_spec (env : QuotaEnv) (s : BillingSession) (quota : Int) (t : Token) :
    Adds Token.balance (-s.tokenShare quota) t
      (preConsumeTokenQuota cfg env s.relayInfo quota t) := by
  simp only [preConsumeTokenQuota]
  split
  · exact .inl ⟨_, rfl⟩
  split
  · exact .inl ⟨_, rfl⟩
  split
  next h => exact .inr ⟨t, rfl, by simp [tokenShare, h]⟩
  next h =>
  rcases tryReserveTokenQuota_spec cfg.mode env quota s.relayInfo.tokenUnlimited t with
    ⟨text, he⟩ | he | ⟨t', he, hb⟩ <;> rw [he]
  · exact .inl ⟨_, rfl⟩
  · exact .inl ⟨_, rfl⟩
  · exact .inr ⟨t', rfl, by rw [tokenShare, if_neg h]; exact hb⟩

variable {delta target : Int} {env : ReserveEnv} {a : Account}

theorem reserveToken_spec (env : QuotaEnv) (hdelta : 0 < delta) (s : BillingSession) (t : Token) :
    Adds Token.balance (-s.tokenShare delta) t (s.reserveToken cfg env delta t) := by
  rw [reserveToken]
  split
  next h =>
    have hp : s.relayInfo.isPlayground = true := h.resolve_left (by omega)
    exact .inr ⟨t, rfl, by simp [tokenShare, hp]⟩
  · rcases preConsumeTokenQuota_spec cfg env s delta t with ⟨err, he⟩ | ⟨t', he, hb⟩ <;> rw [he]
    · exact .inl ⟨_, rfl⟩
    · exact .inr ⟨t', rfl, hb⟩

/-! ## The funding source -/

theorem walletPreConsume_spec (env : QuotaEnv) {amount : Int} (hamount : 0 < amount)
    (f : WalletFunding) (w : Wallet) :
    (∃ err, f.preConsume cfg env amount w = (.error err, f, w)) ∨
      ∃ w', f.preConsume cfg env amount w = (.ok (), { f with consumed := amount }, w') ∧
        w'.balance = w.balance - amount := by
  rw [WalletFunding.preConsume, if_neg (by omega)]
  rcases tryReserveUserQuota_spec cfg.mode env amount w with ⟨text, he⟩ | he | ⟨w', he, hb⟩ <;>
    rw [he]
  · exact .inl ⟨_, rfl⟩
  · exact .inl ⟨_, rfl⟩
  · exact .inr ⟨w', rfl, hb⟩

theorem reserveFunding_spec (env : QuotaEnv) (hdelta : 0 < delta) (image : Bool)
    (s : BillingSession) (a : Account) :
    (∃ err, s.reserveFunding cfg env delta image a = (.error err, s, a)) ∨
      ∃ a', s.reserveFunding cfg env delta image a =
          (.ok (), { s with funding := s.funding.moved image delta }, a') ∧
        a'.token = a.token ∧ a'.fundingBalance s.funding = a.fundingBalance s.funding - delta := by
  rw [reserveFunding]
  split
  next f hf =>
    simp only [hf, FundingSource.moved, Account.fundingBalance]
    cases image with
    | true =>
      rcases walletPreConsume_spec cfg env hdelta f a.wallet with ⟨err, he⟩ | ⟨w', he, hb⟩ <;>
        rw [if_pos rfl, he]
      · cases err <;> exact .inl ⟨_, rfl⟩
      · exact .inr ⟨{ a with wallet := w' }, by simp, rfl, hb⟩
    | false =>
      rw [if_neg (by simp)]
      split
      · rcases tryReserveUserQuota_spec cfg.mode env delta a.wallet with
          ⟨text, he⟩ | he | ⟨w', he, hb⟩ <;> rw [he]
        · exact .inl ⟨_, rfl⟩
        · exact .inl ⟨_, rfl⟩
        · exact .inr ⟨_, rfl, rfl, hb⟩
      · rcases decreaseUserQuota_spec cfg.mode env delta a.wallet with
          ⟨err, he⟩ | ⟨w', he, hb⟩ <;> rw [he]
        · exact .inl ⟨_, rfl⟩
        · exact .inr ⟨_, rfl, rfl, hb⟩
  next f hf =>
    simp only [hf, FundingSource.moved, Account.fundingBalance]
    have hpos := a.subscriptions.used_nonneg f.subscriptionId
    rcases postConsumeUserSubscriptionDelta_spec env.fault f.subscriptionId delta
      a.subscriptions with ⟨err, he⟩ | ⟨db', he, -, -, hused⟩ <;> rw [he]
    · exact .inl ⟨_, rfl⟩
    refine .inr ⟨{ a with subscriptions := db' }, by dsimp only; rw [← hf], rfl, ?_⟩
    rw [hused, if_pos rfl]
    omega

theorem rollbackFundingReserve_spec (env : QuotaEnv) (delta : Int) (s : BillingSession)
    (a : Account)
    (hused : ∀ f, s.funding = .subscription f → delta ≤ a.subscriptions.used f.subscriptionId) :
    (∃ err, s.rollbackFundingReserve cfg env delta a = (some err, s, a)) ∨
      ∃ a', s.rollbackFundingReserve cfg env delta a =
          (none, { s with funding := s.funding.moved false (-delta) }, a') ∧
        a'.token = a.token ∧ a'.fundingBalance s.funding = a.fundingBalance s.funding + delta := by
  rw [rollbackFundingReserve]
  split
  next f hf =>
    simp only [hf, FundingSource.moved, Account.fundingBalance]
    rcases increaseUserQuota_spec cfg.mode env delta a.wallet with ⟨err, he⟩ | ⟨w', he, hb⟩ <;>
      rw [he]
    · exact .inl ⟨_, rfl⟩
    · exact .inr ⟨_, rfl, rfl, hb⟩
  next f hf =>
    simp only [hf, FundingSource.moved, Account.fundingBalance]
    have hle := hused f hf
    rcases postConsumeUserSubscriptionDelta_spec env.fault f.subscriptionId (-delta)
      a.subscriptions with ⟨err, he⟩ | ⟨db', he, -, -, hmoved⟩ <;> rw [he]
    · exact .inl ⟨_, rfl⟩
    refine .inr ⟨{ a with subscriptions := db' }, by dsimp only; rw [← hf], rfl, ?_⟩
    rw [hmoved, if_pos rfl]
    omega

/-! ## Reserve -/

/-- Whether a `Reserve` gets its difference from the funding source. -/
def takesFunding (env : ReserveEnv) (target : Int) (s : BillingSession) (a : Account) : Bool :=
  s.reserves env target &&
    match s.reserveFunding cfg env.funding (target - s.preConsumedQuota)
      (s.isImageRequest env) a with
    | (.ok (), _) => true
    | (.error _, _) => false

variable {s : BillingSession}

theorem reserves_pos (h : s.reserves env target = true) : 0 < target - s.preConsumedQuota := by
  simp only [reserves, Bool.not_eq_true', Bool.or_eq_false_iff, decide_eq_false_iff_not] at h
  omega

variable {cfg}

/-- A `Reserve` whose rollback is not logged takes some amount, which is 0
when it fails. -/
theorem reserve_moved (h : (s.reserve cfg env target a).rollbackError = none) :
    ∃ d, Moved s (s.reserve cfg env target a).session a (s.reserve cfg env target a).account
      (s.isImageRequest env && s.takesFunding cfg env target a) d := by
  revert h
  rw [reserve, takesFunding]
  by_cases hres : s.reserves env target = true
  · have hdelta := reserves_pos hres
    generalize hdel : target - s.preConsumedQuota = delta at hdelta
    generalize himg : s.isImageRequest env = image
    rw [if_pos hres]
    dsimp only
    rcases reserveFunding_spec cfg env.funding hdelta image s a with
      ⟨err, he⟩ | ⟨a₁, he, ht₁, hb₁⟩ <;> rw [he]
    · intro _
      exact ⟨0, by simpa using Moved.refl s a⟩
    rw [hres]
    simp only [Bool.and_true]
    generalize hs₁ : ({ s with funding := s.funding.moved image delta } : BillingSession) = s₁
    have hplay : s₁.relayInfo.isPlayground = s.relayInfo.isPlayground := by rw [← hs₁]
    have hshare : ∀ d, s₁.tokenShare d = s.tokenShare d := fun d => by simp [tokenShare, hplay]
    rcases reserveToken_spec cfg env.token hdelta s₁ a₁.token with ⟨err, hte⟩ | ⟨t', hte, htb⟩
    · -- the token refuses, and the funding source gets the difference back
      rw [hte]
      dsimp only
      have hused : ∀ f, s₁.funding = .subscription f →
          delta ≤ a₁.subscriptions.used f.subscriptionId := fun f hf =>
        le_used_of_reserved hb₁ (by rw [← hs₁] at hf; exact hf)
      rcases rollbackFundingReserve_spec cfg env.rollback delta s₁ a₁ hused with
        ⟨err, hre⟩ | ⟨a₂, hre, ht₂, hb₂⟩ <;> rw [hre]
      · intro hcon
        cases hcon
      dsimp only
      intro _
      refine ⟨0, ?_⟩
      subst hs₁
      refine ⟨Int.le_refl 0, ?_, by dsimp only; omega, by dsimp only; omega, rfl, rfl, rfl, rfl,
        ?_, ?_⟩
      · rw [FundingSource.moved_moved, Int.add_right_neg]
      · simp only [fundingBalance_moved] at hb₂
        omega
      · rw [tokenShare_zero, ht₂, ht₁]
        omega
    · rw [hte]
      intro _
      refine ⟨delta, ?_⟩
      obtain ⟨h1, h2, h3, -, h5, h6, h7, h8⟩ := syncRelayInfo_fields
        { s with
          funding := s.funding.moved image delta
          preConsumedQuota := s.preConsumedQuota + delta
          tokenConsumed := s.tokenConsumed + delta
          extraReserved := s.extraReserved + delta
          trusted := s.trusted && !image }
      refine ⟨by omega, h1, h2, h3, h5, h6, h7, h8, ?_, ?_⟩
      · rw [fundingBalance_token]
        exact hb₁
      · rw [← hshare delta, ← ht₁]
        exact htb
  · rw [if_neg hres]
    intro _
    exact ⟨0, by simpa [hres] using Moved.refl s a⟩

/-! ## The first reservation -/

theorem takeToken_spec (cfg : BillingConfig) (env : PreConsumeEnv) (effective : Int)
    (s : BillingSession) (t : Token) :
    (∃ err, s.takeToken cfg env effective t = (.error err, s, t)) ∨
      ∃ t', s.takeToken cfg env effective t =
          (.ok (), { s with tokenConsumed := if 0 < effective then effective else s.tokenConsumed },
            t') ∧
        t'.balance = t.balance - s.tokenShare (max effective 0) := by
  rw [takeToken]
  split
  next hpos =>
    rcases preConsumeTokenQuota_spec cfg env.token s effective t with ⟨err, he⟩ | ⟨t', he, hb⟩
    · exact .inl ⟨err, by rw [he]⟩
    · refine .inr ⟨t', by rw [he], ?_⟩
      rw [Int.max_eq_left (by omega)]
      exact hb
  next hneg =>
    refine .inr ⟨t, rfl, ?_⟩
    rw [Int.max_eq_right (by omega), tokenShare_zero]
    omega

theorem shouldTrust_subscription {f : SubscriptionFunding} {tokenQuota : Int}
    (hf : s.funding = .subscription f) : s.shouldTrust cfg tokenQuota = false := by
  simp only [shouldTrust, hf]
  repeat' split
  all_goals rfl

/-- What a pre-consume that succeeds has done. -/
structure Opened (cfg : BillingConfig) (env : PreConsumeEnv) (quota : Int) (s : BillingSession)
    (a : Account) (r : CallResult) (effective : Int) (t : Token) : Prop where
  amount : effective = quota ∨ (effective = 0 ∧ ∃ f, s.funding = .wallet f)
  token : t.balance = a.token.balance - s.tokenShare (max effective 0)
  funding : s.funding.preConsume cfg env effective { a with token := t } =
    some (.ok (), r.session.funding, r.account)
  preConsumedQuota : r.session.preConsumedQuota = effective
  tokenConsumed : r.session.tokenConsumed = if 0 < effective then effective else s.tokenConsumed
  extraReserved : r.session.extraReserved = s.extraReserved
  settled : r.session.settled = s.settled
  refunded : r.session.refunded = s.refunded
  fundingSettled : r.session.fundingSettled = s.fundingSettled
  isPlayground : r.session.relayInfo.isPlayground = s.relayInfo.isPlayground

theorem preConsume_opened {env : PreConsumeEnv} {quota : Int} {r : CallResult}
    (h : s.preConsume cfg env quota a = some r) (hok : r.result = .ok ()) :
    ∃ effective t, Opened cfg env quota s a r effective t := by
  simp only [preConsume] at h
  generalize htrust : s.shouldTrust cfg env.tokenQuota = trust at h
  generalize heff : (if trust = true then 0 else quota) = effective at h
  generalize hs₁ : ({ s with trusted := s.trusted || trust } : BillingSession) = s₁ at h
  have heffective : effective = quota ∨ (effective = 0 ∧ ∃ f, s.funding = .wallet f) := by
    cases trust with
    | false => exact .inl heff.symm
    | true =>
      refine .inr ⟨heff.symm, ?_⟩
      cases hf : s.funding with
      | wallet f => exact ⟨f, rfl⟩
      | subscription f => rw [shouldTrust_subscription hf] at htrust; cases htrust
  rcases takeToken_spec cfg env effective s₁ a.token with ⟨err, he⟩ | ⟨t, he, ht⟩ <;> rw [he] at h
  · cases h
    cases hok
  dsimp only at h
  split at h
  · cases h
  next f a' hfund =>
    cases h
    subst hs₁
    obtain ⟨h1, h2, h3, h4, h5, h6, h7, h8⟩ := syncRelayInfo_fields
      { s with
        trusted := s.trusted || trust
        tokenConsumed := if 0 < effective then effective else s.tokenConsumed
        funding := f
        preConsumedQuota := effective }
    exact ⟨effective, t, heffective, ht, by rw [h1]; exact hfund, h2, h3, h4, h5, h6, h7, h8⟩
  · cases h
    cases hok

end BillingSession

end NewApi
