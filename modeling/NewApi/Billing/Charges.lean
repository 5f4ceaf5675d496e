import NewApi.Billing.PreConsume

/-!
# Who is charged by a pre-consume

Either a session is open and one funding source paid `preConsumedQuota`, the token with
it (`ChargedOnce`), or nothing was taken. An attempt that ends so is *sound*, and
soundness composes.

A session that the row of its stream does not keep is refunded, up to the resets that its
subscription transaction made (`Restored`), unless the row does not let the refund start.
-/

namespace NewApi

open StreamExecution

/-- The balances are where they were. -/
structure SameBalances (a a' : Account) : Prop where
  wallet : a'.wallet.balance = a.wallet.balance
  token : a'.token.balance = a.token.balance
  subscriptions : a'.subscriptions = a.subscriptions

/-- The balances are where they were, up to resets of subscriptions. -/
structure Restored (cfg : BillingConfig) (now : Int) (a a' : Account) : Prop where
  wallet : a'.wallet.balance = a.wallet.balance
  token : a'.token.balance = a.token.balance
  used : ∃ db, ResetOnly cfg.nextReset now a.subscriptions db ∧
    ∀ id, a'.subscriptions.used id = db.used id

theorem SameBalances.refl (a : Account) : SameBalances a a := ⟨rfl, rfl, rfl⟩

variable {a : Account} {info : RelayInfo}

theorem SameBalances.restored {cfg : BillingConfig} {now : Int} {a' : Account}
    (h : SameBalances a a') : Restored cfg now a a' :=
  ⟨h.wallet, h.token, a.subscriptions, .refl _, fun id => by rw [h.subscriptions]⟩

namespace BillingSession

variable {cfg : BillingConfig}

def walletShare (s : BillingSession) : Int :=
  match s.funding with
  | .wallet _ => s.preConsumedQuota
  | .subscription _ => 0

def subscriptionShare (s : BillingSession) (id : Int) : Int :=
  match s.funding with
  | .wallet _ => 0
  | .subscription f => if id = f.subscriptionId then s.preConsumedQuota else 0

/-- The funding source of the session, and no other, has paid
`preConsumedQuota`, and the token as well. A subscription pays after its reset. -/
structure ChargedOnce (cfg : BillingConfig) (now : Int) (a : Account) (s : BillingSession)
    (a' : Account) : Prop where
  wallet : a'.wallet.balance = a.wallet.balance - s.walletShare
  token : a'.token.balance = a.token.balance - s.tokenShare s.preConsumedQuota
  used : ∃ db, ResetOnly cfg.nextReset now a.subscriptions db ∧
    ∀ id, a'.subscriptions.used id = db.used id + s.subscriptionShare id
  afterReset : ∀ f, s.funding = .subscription f →
    ∃ sub, ResetRow cfg.nextReset now a.subscriptions f.subscriptionId sub ∧
      a'.subscriptions.used f.subscriptionId = sub.amountUsed + s.preConsumedQuota
  untouched : s.funding.source = .wallet → a'.subscriptions = a.subscriptions

/-- A subscription session took its quota and can give it back. -/
structure SubscriptionHeld (cfg : BillingConfig) (now : Int) (a : Account) (s : BillingSession)
    (a' : Account) (f : SubscriptionFunding) (userId : Int)
    (result : SubscriptionPreConsumeResult) : Prop where
  funding : s.funding = .subscription f
  subscriptionId : f.subscriptionId = result.userSubscriptionId
  preConsumed : f.preConsumed = s.preConsumedQuota
  positive : 0 < s.preConsumedQuota
  charged : Charged cfg.nextReset now f.requestId userId s.preConsumedQuota result a.subscriptions
    a'.subscriptions
  wallet : a'.wallet.balance = a.wallet.balance
  token : a'.token.balance = a.token.balance - s.tokenShare s.preConsumedQuota
  tokenConsumed : s.tokenConsumed = s.preConsumedQuota
  extraReserved : s.extraReserved = 0
  settled : s.settled = false
  refunded : s.refunded = false
  fundingSettled : s.fundingSettled = false

/-- An open session that took its quota since `a`. -/
inductive Holds (cfg : BillingConfig) (now : Int) (a : Account) (s : BillingSession)
    (a' : Account) : Prop
  | wallet (held : WalletHeld a (s, a')) (exact : gap a (s, a') = 0)
      (amount : s.preConsumedQuota = s.tokenConsumed)
      (subscriptions : a'.subscriptions = a.subscriptions)
  | subscription (f : SubscriptionFunding) (userId : Int) (result : SubscriptionPreConsumeResult)
      (held : SubscriptionHeld cfg now a s a' f userId result)

variable {a a' : Account} {s : BillingSession} {r : CallResult} {now : Int}

theorem Holds.of_same {a₁ : Account} (hsame : SameBalances a a₁) (h : Holds cfg now a₁ s a') :
    Holds cfg now a s a' := by
  cases h with
  | wallet held exact amount subs =>
    refine .wallet { held with taken := ?_, token := ?_ } ?_ amount
      (subs.trans hsame.subscriptions)
    · rw [← hsame.wallet]; exact held.taken
    · rw [← hsame.token]; exact held.token
    · rw [← exact, gap, gap, hsame.wallet]
  | subscription f userId result held =>
    refine .subscription f userId result { held with charged := ?_, wallet := ?_, token := ?_ }
    · rw [← hsame.subscriptions]; exact held.charged
    · rw [← hsame.wallet]; exact held.wallet
    · rw [← hsame.token]; exact held.token

theorem Holds.chargedOnce (h : Holds cfg now a s a') : ChargedOnce cfg now a s a' := by
  cases h with
  | wallet held exact amount subs =>
    obtain ⟨f, hf⟩ := held.wallet
    have htaken := held.taken
    have htoken := held.token
    refine ⟨?_, by rw [amount]; exact htoken, ⟨a.subscriptions, .refl _, ?_⟩, ?_, fun _ => subs⟩
    · rw [walletShare, hf, amount]; exact htaken
    · intro id
      rw [subs, subscriptionShare, hf]; simp
    · intro g hg
      rw [hf] at hg
      cases hg
  | subscription f userId result held =>
    obtain ⟨db, sub, hreset, hrow, hsub, hused⟩ := held.charged.used held.positive
    refine ⟨?_, held.token, ⟨db, hreset, ?_⟩, ?_, ?_⟩
    · rw [held.wallet, walletShare, held.funding]; simp
    · intro id
      rw [hused, subscriptionShare, held.funding, ← held.subscriptionId]
      split <;> simp [*]
    · intro g hg
      obtain rfl : f = g := FundingSource.subscription.inj (held.funding.symm.trans hg)
      rw [held.subscriptionId]
      exact ⟨sub, hrow, by rw [hused, if_pos rfl, hsub]⟩
    · intro h
      rw [held.funding] at h
      cases h

/-! ## Attempts that fail -/

variable {env : PreConsumeEnv}

theorem fundingPreConsume_failed {amount : Int} {f f' : FundingSource} {err : FundingError}
    (h : f.preConsume cfg env amount a = some (.error err, f', a')) : a' = a := by
  cases f with
  | wallet f =>
    simp only [FundingSource.preConsume] at h
    by_cases hpos : 0 < amount
    · rcases walletPreConsume_spec cfg env.wallet hpos f a.wallet with ⟨err', he⟩ | ⟨w, he, -⟩ <;>
        rw [he] at h
      · simp only [Option.some.injEq, Prod.mk.injEq] at h
        exact h.2.2.symm
      · simp at h
    · rw [WalletFunding.preConsume, if_pos (by omega)] at h
      simp at h
  | subscription f =>
    simp only [FundingSource.preConsume, SubscriptionFunding.preConsume] at h
    split at h
    · cases h
    next res f₁ db hpre =>
    obtain ⟨rfl, -, rfl⟩ := h
    split at hpre
    · cases hpre
    next hdb =>
      cases hpre
      rw [preConsumeUserSubscription_error hdb]
    · split at hpre <;> simp at hpre

theorem rollbackToken_spec {env : QuotaEnv} {t : Token} (h : (rollbackToken cfg env s t).1 = none) :
    (rollbackToken cfg env s t).2.2.balance = t.balance + s.tokenShare (max s.tokenConsumed 0) := by
  rw [rollbackToken] at h ⊢
  split at h
  next hyes =>
    rw [if_pos hyes]
    rcases increaseTokenQuota_spec cfg.mode env s.tokenConsumed t with ⟨err, he⟩ | ⟨t₁, he, hb⟩
    · rw [he] at h
      cases h
    · rw [he]
      rw [hb, Int.max_eq_left (by omega), tokenShare, hyes.2]
      simp
  next hno =>
    rw [if_neg hno]
    rw [tokenShare_unpaid hno, Int.add_zero]

theorem preConsume_failed {quota : Int} {err : NewAPIError} (hs : s.tokenConsumed = 0)
    (h : s.preConsume cfg env quota a = some r) (herr : r.result = .error err)
    (hroll : r.rollbackError = none) : SameBalances a r.account := by
  simp only [preConsume] at h
  generalize (if s.shouldTrust cfg env.tokenQuota = true then 0 else quota) = effective at h
  generalize hs₁ : ({ s with trusted := s.trusted || s.shouldTrust cfg env.tokenQuota } :
    BillingSession) = s₁ at h
  have hconsumed : s₁.tokenConsumed = 0 := by rw [← hs₁]; exact hs
  rcases takeToken_spec cfg env effective s₁ a.token with ⟨text, he⟩ | ⟨t, he, ht⟩ <;> rw [he] at h
  · cases h
    exact .refl a
  dsimp only at h
  split at h
  · cases h
  · cases h
    cases herr
  next text f a' hfund =>
  obtain rfl := fundingPreConsume_failed hfund
  cases h
  have hb := rollbackToken_spec hroll
  refine ⟨rfl, ?_, rfl⟩
  have hmax : max (if 0 < effective then effective else s₁.tokenConsumed) 0 = max effective 0 := by
    split <;> omega
  rw [hmax] at hb
  rw [hb, ht]
  exact Int.sub_add_cancel _ _

/-! ## Attempts that succeed -/

theorem wallet_holds {quota : Int} (hquota : 0 ≤ quota)
    (h : (walletSession info).preConsume cfg env quota a = some r) (hok : r.result = .ok ()) :
    Holds cfg now a r.session r.account ∧ r.session.relayInfo.isPlayground = info.isPlayground := by
  obtain ⟨hheld, hgap⟩ := walletHeld_preConsume h hok
  obtain ⟨effective, t, hopen⟩ := preConsume_opened h hok
  have hamount : r.session.preConsumedQuota = r.session.tokenConsumed := by
    have h0 : (walletSession info).tokenConsumed = 0 := rfl
    rw [hopen.preConsumedQuota, hopen.tokenConsumed, h0]
    rcases hopen.amount with he | ⟨he, -⟩ <;> split <;> omega
  have hsubs : r.account.subscriptions = a.subscriptions := by
    have hfund := hopen.funding
    simp only [walletSession, new, FundingSource.preConsume, Option.some.injEq, Prod.mk.injEq]
      at hfund
    rw [← hfund.2.2]
  exact ⟨.wallet hheld hgap hamount hsubs, hopen.isPlayground⟩

theorem subscription_holds {amount : Int}
    (hfresh : a.subscriptions.records.find info.requestId = none)
    (h : (subscriptionSession info amount).preConsume cfg env amount a = some r)
    (hok : r.result = .ok ()) :
    Holds cfg env.subscription.now a r.session r.account ∧
      r.session.relayInfo.isPlayground = info.isPlayground := by
  obtain ⟨t, f, result, hopen, hf, hreq, hid, hpre, hwallet, ht, hamount, hcharged⟩ :=
    subscription_charged hfresh h hok
  have hquota := hopen.preConsumedQuota
  refine ⟨.subscription f info.userId result ⟨hf, hid, by rw [hpre, hquota], by omega, ?_,
    by rw [hwallet], ?_, ?_, hopen.extraReserved, hopen.settled, hopen.refunded,
    hopen.fundingSettled⟩, hopen.isPlayground⟩
  · rw [hreq, hquota]
    exact hcharged
  · have hshare : ∀ d, r.session.tokenShare d = (subscriptionSession info amount).tokenShare d := by
      intro d
      rw [tokenShare, tokenShare, hopen.isPlayground]
    rw [ht, hopen.token, hshare, hquota, Int.max_eq_left (by omega)]
  · rw [hopen.tokenConsumed, hquota, if_pos hamount]

/-! ## Refunding an open session -/

theorem refundSubscriptionPreConsume_failed {requestId : String} {db db' : SubscriptionDb}
    {err : String} (h : refundSubscriptionPreConsume .calm requestId db = (.error err, db')) :
    db' = db := by
  rw [refundSubscriptionPreConsume] at h
  simp only [RefundEnv.calm, markRefunded] at h
  split at h
  · cases h; rfl
  split at h
  · cases h; rfl
  · cases h; rfl
  next record _ hfind =>
  split at h
  · cases h
  split at h
  · cases h
  rcases postConsumeUserSubscriptionDelta_spec none record.userSubscriptionId
    (-record.preConsumed) db with ⟨err', he⟩ | ⟨db₁, he, -⟩ <;> rw [he] at h
  · cases h
    rfl
  · cases h

theorem refundWithRetry_calm {requestId : String} {db db' : SubscriptionDb} {n : Nat}
    {res : Except String Unit} (hn : 0 < n)
    (h : refundWithRetry requestId (List.replicate n .calm) (res, db) = (.ok (), db')) :
    refundSubscriptionPreConsume .calm requestId db = (.ok (), db') := by
  induction n generalizing res with
  | zero => cases hn
  | succ n ih =>
    rw [List.replicate_succ, refundWithRetry] at h
    split at h
    next he => rw [he, ← h]
    next err db₁ he =>
    obtain rfl := refundSubscriptionPreConsume_failed he
    cases n with
    | zero => cases h
    | succ n => exact ih (Nat.succ_pos n) h

/-- The three attempts of a subscription refund meet no fault. -/
def CalmJob (env : RefundJobEnv) : Prop :=
  env.first = .calm ∧ env.second = .calm ∧ env.third = .calm

theorem SubscriptionHeld.fundingRefund {userId : Int} {a₁ : Account} {f : SubscriptionFunding}
    {result : SubscriptionPreConsumeResult} {env : RefundJobEnv}
    (h : SubscriptionHeld cfg now a s a' f userId result) (hcalm : CalmJob env)
    (he : s.funding.refund cfg env a' = (.ok (), a₁)) :
    a₁.wallet = a'.wallet ∧ a₁.token = a'.token ∧
      ∃ db, ResetOnly cfg.nextReset now a.subscriptions db ∧
        ∀ id, a₁.subscriptions.used id = db.used id := by
  have hpos := h.positive
  obtain ⟨hfirst, hsecond, hthird⟩ := hcalm
  rw [h.funding, FundingSource.refund, if_neg (by rw [h.preConsumed]; omega), hfirst, hsecond,
    hthird] at he
  generalize hretry : refundWithRetry f.requestId [.calm, .calm, .calm] (.ok (), a'.subscriptions) =
    out at he
  obtain ⟨res, db'⟩ := out
  cases he
  refine ⟨rfl, rfl, ?_⟩
  have hrefund := refundWithRetry_calm (n := 3) (by omega) hretry
  obtain ⟨db, -, hreset, -, -, hused⟩ := h.charged.used h.positive
  refine ⟨db, hreset, ?_⟩
  intro id
  rw [refundSubscriptionPreConsume_used h.charged.record rfl h.positive hrefund, hused, hused]
  dsimp only
  split
  next hid =>
    subst hid
    have := db.used_nonneg result.userSubscriptionId
    omega
  · rfl

/-- A refund of an open session without a failed update takes the balances back. -/
theorem Holds.refund {env : RefundJobEnv} (h : Holds cfg now a s a') (hcalm : CalmJob env)
    (hok : (s.refund cfg env a').1 = false) : Restored cfg now a (s.refund cfg env a').2.2 := by
  cases h with
  | wallet held exact amount subs =>
    obtain ⟨hw, ht, hs⟩ := refund_wallet held hok
    rw [exact, Int.sub_zero] at hw
    exact ⟨hw, ht, a.subscriptions, .refl _, fun id => by rw [hs, subs]⟩
  | subscription f userId result held =>
    have hpos := held.positive
    have hneeds : s.needsRefund = true := by
      simp [needsRefund, held.settled, held.refunded, held.fundingSettled, held.tokenConsumed, hpos]
    have hopen : (s.settled || s.refunded) = false := by rw [held.settled, held.refunded]; rfl
    rw [BillingSession.refund, hopen, if_neg (by simp), if_pos hneeds] at hok ⊢
    obtain ⟨a₁, hrefund, hw, hs, ht⟩ := refundJob_spec (.inl held.extraReserved) hok
    obtain ⟨hw₁, ht₁, db, hreset, hused⟩ := held.fundingRefund hcalm hrefund
    refine ⟨?_, ?_, db, hreset, ?_⟩
    · rw [hw, hw₁, held.wallet]
    · rw [ht, ht₁, held.token, held.tokenConsumed, Int.max_eq_left (by omega)]
      exact Int.sub_add_cancel _ _
    · intro id
      rw [hs, hused]

end BillingSession

/-! ## Opening a session -/

open BillingSession

variable {cfg : BillingConfig}

/-- The attempt ends with an open session that holds its quota, or with nothing
taken. -/
structure Attempt.Sound (cfg : BillingConfig) (now : Int) (info : RelayInfo) (a : Account)
    (att : Attempt) : Prop where
  requestId : att.info.requestId = info.requestId
  isPlayground : att.info.isPlayground = info.isPlayground
  failed : ∀ err, att.result = .error err → SameBalances a att.account
  opened : ∀ s, att.result = .ok s →
    Holds cfg now a s att.account ∧ s.relayInfo.isPlayground = info.isPlayground

theorem Attempt.sound_reject (now : Int) (err : NewAPIError) (info : RelayInfo) (a : Account) :
    (Attempt.reject err info a).Sound cfg now info a where
  requestId := rfl
  isPlayground := rfl
  failed _ _ := .refl a
  opened _ h := by cases h

theorem Attempt.sound_ofCall {now : Int} {info' : RelayInfo} {r : CallResult}
    (hreq : info'.requestId = info.requestId) (hplay : info'.isPlayground = info.isPlayground)
    (hroll : (Attempt.ofCall info' r).rollbackErrors = [])
    (hfail : ∀ err, r.result = .error err → r.rollbackError = none → SameBalances a r.account)
    (hopen : r.result = .ok () →
      Holds cfg now a r.session r.account ∧ r.session.relayInfo.isPlayground = info'.isPlayground) :
    (Attempt.ofCall info' r).Sound cfg now info a := by
  have hnone : r.rollbackError = none := by
    cases hb : r.rollbackError with
    | none => rfl
    | some text => simp [ofCall, hb] at hroll
  refine ⟨hreq, hplay, ?_, ?_⟩
  · intro err herr
    cases hres : r.result with
    | ok u => simp [ofCall, hres] at herr
    | error err' => exact hfail err' hres hnone
  · intro s hs
    cases hres : r.result with
    | ok u =>
      obtain rfl : r.session = s := by simpa [ofCall, hres] using hs
      rw [← hplay]
      exact hopen hres
    | error err' => simp [ofCall, hres] at hs

theorem tryWallet_sound {env : OpenEnv} {quota : Int} (now : Int) {att : Attempt}
    (hquota : 0 ≤ quota) (h : tryWallet cfg env quota info a = some att)
    (hroll : att.rollbackErrors = []) : att.Sound cfg now info a := by
  rw [tryWallet] at h
  split at h
  · cases h; exact Attempt.sound_reject now _ info a
  split at h
  · cases h; exact Attempt.sound_reject now _ info a
  split at h
  · cases h; exact Attempt.sound_reject now _ info a
  obtain ⟨r, hr, rfl⟩ := Option.map_eq_some_iff.mp h
  exact Attempt.sound_ofCall rfl rfl hroll (fun err herr => preConsume_failed rfl hr herr)
    (fun hok => wallet_holds hquota hr hok)

theorem trySubscription_sound {env : OpenEnv} {quota : Int} {att : Attempt}
    (hfresh : a.subscriptions.records.find info.requestId = none)
    (h : trySubscription cfg env quota info a = some att) (hroll : att.rollbackErrors = []) :
    att.Sound cfg env.subscription.subscription.now info a := by
  obtain ⟨r, hr, rfl⟩ := Option.map_eq_some_iff.mp h
  exact Attempt.sound_ofCall rfl rfl hroll (fun err herr => preConsume_failed rfl hr herr)
    (fun hok => subscription_holds hfresh hr hok)

/-- The next attempt starts from the balances that the failed one left alone. -/
theorem Attempt.Sound.andThen {now : Int} {first second : Attempt} {err : NewAPIError}
    (hfirst : first.Sound cfg now info a) (herr : first.result = .error err)
    (hsecond : second.Sound cfg now first.info first.account) (rollbackErrors : List String) :
    { second with rollbackErrors }.Sound cfg now info a := by
  have hsame := hfirst.failed err herr
  refine ⟨hsecond.requestId.trans hfirst.requestId, hsecond.isPlayground.trans hfirst.isPlayground,
    ?_, ?_⟩
  · intro err₂ herr₂
    have hb := hsecond.failed err₂ herr₂
    exact ⟨hb.wallet.trans hsame.wallet, hb.token.trans hsame.token,
      hb.subscriptions.trans hsame.subscriptions⟩
  · intro s hs
    obtain ⟨hholds, hplay⟩ := hsecond.opened s hs
    exact ⟨hholds.of_same hsame, hplay.trans hfirst.isPlayground⟩

section

variable {env : OpenEnv} {quota : Int} {info : RelayInfo} {a : Account} {att : Attempt}

/-- What `NewBillingSession` is made of: a rejection, an attempt on one source, a
failed attempt whose error is replaced, or one that another attempt follows. -/
inductive Tries (cfg : BillingConfig) (env : OpenEnv) (quota : Int) :
    RelayInfo → Account → Attempt → Prop
  | reject (err : NewAPIError) (info : RelayInfo) (a : Account) :
      Tries cfg env quota info a (.reject err info a)
  | wallet {info : RelayInfo} {a : Account} {att : Attempt}
      (h : tryWallet cfg env quota info a = some att) : Tries cfg env quota info a att
  | subscription {info : RelayInfo} {a : Account} {att : Attempt}
      (h : trySubscription cfg env quota info a = some att) : Tries cfg env quota info a att
  | replaced {info : RelayInfo} {a : Account} {first : Attempt} {err : NewAPIError}
      (h : Tries cfg env quota info a first) (herr : first.result = .error err)
      (err' : NewAPIError) : Tries cfg env quota info a { first with result := .error err' }
  | next {info : RelayInfo} {a : Account} {first second : Attempt} {err : NewAPIError}
      (h : Tries cfg env quota info a first) (herr : first.result = .error err)
      (h' : Tries cfg env quota first.info first.account second) :
      Tries cfg env quota info a
        { second with rollbackErrors := first.rollbackErrors ++ second.rollbackErrors }

theorem subscriptionFirst_tries (h : subscriptionFirst cfg env quota info a = some att) :
    Tries cfg env quota info a att := by
  rw [subscriptionFirst] at h
  generalize hasActiveUserSubscription env.activeFault env.now info.userId a.subscriptions = active
    at h
  rcases active with text | _ | _
  · cases h; exact .reject _ info a
  · exact .wallet h
  cases hfirst : trySubscription cfg env quota info a with
  | none => rw [hfirst] at h; cases h
  | some first =>
    rw [hfirst] at h
    dsimp only at h
    cases hres : first.result with rw [hres] at h
    | ok s =>
      cases h
      exact .subscription hfirst
    | error err =>
      dsimp only at h
      split at h
      swap
      · cases h; exact .subscription hfirst
      generalize userActiveSubscriptionsAllowWalletOverflow env.overflowFault env.now info.userId
        first.account.subscriptions = overflow at h
      rcases overflow with text | _ | _
      · cases h
        exact .replaced (.subscription hfirst) hres _
      · cases h; exact .subscription hfirst
      · obtain ⟨second, hsecond, rfl⟩ := Option.map_eq_some_iff.mp h
        exact .next (.subscription hfirst) hres (.wallet hsecond)

theorem walletFirst_tries (h : walletFirst cfg env quota info a = some att) :
    Tries cfg env quota info a att := by
  rw [walletFirst] at h
  cases hfirst : tryWallet cfg env quota info a with
  | none => rw [hfirst] at h; cases h
  | some first =>
    rw [hfirst] at h
    dsimp only at h
    cases hres : first.result with rw [hres] at h
    | ok s =>
      cases h
      exact .wallet hfirst
    | error err =>
      dsimp only at h
      split at h
      swap
      · cases h; exact .wallet hfirst
      obtain ⟨second, hsecond, rfl⟩ := Option.map_eq_some_iff.mp h
      exact .next (.wallet hfirst) hres (.subscription hsecond)

theorem newBillingSession_tries (h : newBillingSession cfg env quota info a = some att) :
    Tries cfg env quota info a att := by
  rw [newBillingSession] at h
  split at h
  · cases h; exact .reject _ info a
  split at h
  · exact .subscription h
  · exact .wallet h
  · exact walletFirst_tries h
  · exact subscriptionFirst_tries h

theorem Tries.sound (hquota : 0 ≤ quota) (h : Tries cfg env quota info a att)
    (hfresh : a.subscriptions.records.find info.requestId = none)
    (hroll : att.rollbackErrors = []) : att.Sound cfg env.subscription.subscription.now info a := by
  induction h with
  | reject err info a => exact Attempt.sound_reject _ err info a
  | wallet h => exact tryWallet_sound _ hquota h hroll
  | subscription h => exact trySubscription_sound hfresh h hroll
  | replaced _ herr err' ih =>
    have hs := ih hfresh hroll
    exact ⟨hs.requestId, hs.isPlayground, fun _ _ => hs.failed _ herr, fun _ hok => by cases hok⟩
  | next _ herr _ ih ih' =>
    obtain ⟨hroll₁, hroll₂⟩ := List.append_eq_nil_iff.mp hroll
    have hs := ih hfresh hroll₁
    refine hs.andThen herr (ih' ?_ hroll₂) _
    rw [hs.requestId, (hs.failed _ herr).subscriptions]
    exact hfresh

end

/-! ## `PreConsumeBilling` -/

section

variable {env : PreConsumeBillingEnv} {quota : Int} {info : RelayInfo} {a : Account}
  {row : Option StreamExecution} {o : Outcome}

variable {a' : Account} {s : BillingSession}

theorem refundStream_refused {env : StreamRefundEnv}
    (h : (s.refundStream cfg env a' row).1 = .refused) :
    (s.refundStream cfg env a' row).2.2.1 = a' := by
  rw [refundStream] at h ⊢
  split
  · rfl
  next hopen =>
    split <;> simp_all

theorem refundStream_ran {env : StreamRefundEnv}
    (h : (s.refundStream cfg env a' row).1 = .ran false) :
    (s.refund cfg env.job a').1 = false ∧
      (s.refundStream cfg env a' row).2.2.1 = (s.refund cfg env.job a').2.2 := by
  rw [refundStream] at h ⊢
  split at h
  · cases h
  next hopen =>
  rw [if_neg hopen]
  split at h
  · cases h
  · cases h
  · exact ⟨by simpa using h, rfl⟩

theorem refundStream_not_ignored {env : StreamRefundEnv} (hs : (s.settled || s.refunded) = false) :
    (s.refundStream cfg env a' row).1 ≠ .ignored := by
  rw [refundStream, hs, if_neg (by simp)]
  split <;> simp

variable {now : Int}

theorem BillingSession.Holds.open (h : Holds cfg now a s a') :
    (s.settled || s.refunded) = false := by
  cases h with
  | wallet held | subscription f userId result held => rw [held.settled, held.refunded]; rfl

/-- What is left of a call that fails: the balances are restored, or a session
whose refund the row of the stream refused stays charged. -/
inductive Failure (cfg : BillingConfig) (now : Int) (a : Account) (o : Outcome) : Prop
  | restored (h : Restored cfg now a o.account)
  | kept (s : BillingSession) (hrefused : o.givenUp = some (s, .refused))
      (h : ChargedOnce cfg now a s o.account)

/-- What a call may come to. -/
structure Outcome.Sound (cfg : BillingConfig) (now : Int) (info : RelayInfo) (a : Account)
    (o : Outcome) : Prop where
  failed : ∀ err, o.result = .error err → Failure cfg now a o
  opened : ∀ s, o.result = .ok (.opened s) →
    ChargedOnce cfg now a s o.account ∧ s.relayInfo.isPlayground = info.isPlayground
  other : ∀ b, o.result = .ok b → (∀ s, b ≠ .opened s) → o.account = a

theorem Failure.sound {err : NewAPIError} (herr : o.result = .error err) (h : Failure cfg now a o) :
    o.Sound cfg now info a where
  failed _ _ := h
  opened s hs := by rw [herr] at hs; cases hs
  other b hb := by rw [herr] at hb; cases hb

theorem Outcome.sound_opened (hok : o.result = .ok (.opened s)) (h : Holds cfg now a s o.account)
    (hplay : s.relayInfo.isPlayground = info.isPlayground) :
    o.Sound cfg now info a where
  failed err herr := by rw [hok] at herr; cases herr
  opened s' hs' := by
    rw [hok] at hs'
    cases hs'
    exact ⟨h.chargedOnce, hplay⟩
  other b hb hne := by
    cases hok.symm.trans hb
    exact absurd rfl (hne s)

theorem Outcome.sound_rejected (err : NewAPIError) :
    (Outcome.untouched (.error err) a row).Sound cfg now info a :=
  Failure.sound rfl (.restored (SameBalances.refl a).restored)

theorem Outcome.sound_found {b : Billing} (hb : ∀ s, b ≠ .opened s) :
    (Outcome.untouched (.ok b) a row).Sound cfg now info a where
  failed err herr := by cases herr
  opened s hs := by
    cases hs
    exact absurd rfl (hb s)
  other _ _ _ := rfl

theorem persistSession_sound (hquota : 0 ≤ quota)
    (hfresh : a.subscriptions.records.find info.requestId = none)
    (h : persistSession cfg quota env info a row = some o) (hroll : o.rollbackErrors = [])
    (hcalm : CalmJob env.refund.job) (hjob : ∀ s, o.givenUp ≠ some (s, .ran true)) :
    o.Sound cfg env.session.subscription.subscription.now info a := by
  rw [persistSession] at h
  cases hatt : newBillingSession cfg env.session quota info a with
  | none => rw [hatt] at h; cases h
  | some att =>
    rw [hatt] at h
    dsimp only at h
    cases hres : att.result with rw [hres] at h
    | error err =>
      cases h
      have hs := (newBillingSession_tries hatt).sound hquota hfresh hroll
      exact Failure.sound rfl (.restored (hs.failed err hres).restored)
    | ok s =>
      dsimp only at h
      generalize s.persistStreamBillingReservation env.persist row = persisted at h
      rcases persisted with ⟨text | u, row₁⟩ <;> cases h
      · have hsound := (newBillingSession_tries hatt).sound hquota hfresh hroll
        obtain ⟨hholds, -⟩ := hsound.opened s hres
        refine Failure.sound rfl ?_
        generalize (updateStreamBillingState env.persistFailed .persistFailed row₁).2 = row₂
          at hjob ⊢
        cases hout : (s.refundStream cfg env.refund att.account row₂).1 with
        | ignored => exact absurd hout (refundStream_not_ignored hholds.open)
        | refused =>
          refine .kept s rfl ?_
          rw [refundStream_refused hout]
          exact hholds.chargedOnce
        | ran failed =>
          cases failed with
          | true => exact absurd (by rw [hout]) (hjob s)
          | false =>
            obtain ⟨hok, he⟩ := refundStream_ran hout
            refine .restored ?_
            rw [he]
            exact hholds.refund hcalm hok
      · have hsound := (newBillingSession_tries hatt).sound hquota hfresh hroll
        obtain ⟨hholds, hplay⟩ := hsound.opened s hres
        exact Outcome.sound_opened rfl hholds hplay

/-- Whatever the preference of the user, the state of the account and the row of
the stream: a call that fails restores the balances, unless the row refuses the
refund and the session stays charged, and a call that opens a session charges
one funding source by `preConsumedQuota`. -/
theorem preConsumeBilling_charges {streamId : String}
    (hfresh : a.subscriptions.records.find info.requestId = none)
    (h : preConsumeBilling cfg quota env streamId info a row = some o)
    (hroll : o.rollbackErrors = []) (hcalm : CalmJob env.refund.job)
    (hjob : ∀ s, o.givenUp ≠ some (s, .ran true)) :
    o.Sound cfg env.session.subscription.subscription.now info a := by
  rw [preConsumeBilling] at h
  split at h
  · cases h; exact Outcome.sound_rejected _
  split at h
  · cases h; exact Outcome.sound_rejected _
  next hquota =>
  split at h
  · cases h; exact Outcome.sound_found (by intro s hs; cases hs)
  split at h
  · obtain ⟨att, hatt, rfl⟩ := Option.map_eq_some_iff.mp h
    have hs := (newBillingSession_tries hatt).sound (by omega) hfresh hroll
    cases hres : att.result with
    | error err =>
      exact Failure.sound (show _ = Except.error err from rfl)
        (.restored (hs.failed err hres).restored)
    | ok s =>
      obtain ⟨hholds, hplay⟩ := hs.opened s hres
      exact Outcome.sound_opened rfl hholds hplay
  · generalize beginStreamBillingReservation env.start row = begun at h
    rcases begun with ⟨text | ⟨execution, _ | _⟩, row₁⟩
    · cases h; exact Outcome.sound_rejected _
    · dsimp only at h
      generalize restoreStreamBillingSession execution info = restored at h
      cases restored with
      | error text => cases h; exact Outcome.sound_rejected _
      | ok s => cases h; exact Outcome.sound_found (by intro s hs; cases hs)
    · exact persistSession_sound (by omega) hfresh h hroll hcalm hjob

end

def calmOpen : OpenEnv := ⟨.ok 1000, calmPreConsume, calmPreConsume, 0, none, none⟩

def calmBilling : PreConsumeBillingEnv :=
  ⟨⟨.calm, .calm, .calm⟩, calmOpen, .calm, .calm, .calm, ⟨.calm, calmRefund, .calm⟩⟩

/-- The row of a stream in its first attempt, with a lease that ends at 5. -/
def plainRow : StreamExecution where
  userId := 1
  tokenId := 1
  status := .running
  publicAttempt := 1
  attemptCount := 1
  committedSequence := 0
  terminalSequence := 0
  lockedBy := "worker"
  lockedUntil := 5
  billingStatus := .none
  billingSource := none
  reservedQuota := 0
  actualQuota := 0
  tokenConsumed := 0
  extraReserved := 0
  trusted := false
  subscription := ⟨0, 0, 0, 0, 0, ""⟩
  error := ""
  expiresAt := 0

/-- The outcome of taking 100 for a stream, with its session persisted. -/
def plainOutcome : Outcome where
  result := .ok (.opened { plainOpened.session with
    relayInfo := { plainOpened.session.relayInfo with userQuota := 1000 } })
  account := plainOpened.account
  row := some { plainRow with
    billingStatus := .reserved, billingSource := some .wallet, reservedQuota := 100,
    tokenConsumed := 100 }
  rollbackErrors := []
  givenUp := none

theorem preConsumeBilling_charges_wallet :
    preConsumeBilling plainConfig 100 calmBilling "stream" plainRequest plainAccount
        (some plainRow) = some plainOutcome ∧
      plainOutcome.Sound plainConfig 0 plainRequest plainAccount :=
  ⟨rfl, @preConsumeBilling_charges plainConfig calmBilling 100 plainRequest plainAccount
    (some plainRow) plainOutcome "stream" rfl rfl rfl ⟨rfl, rfl, rfl⟩ (by intro s hs; cases hs)⟩

/-! ## Calls that charge something else -/

/-- `calmBilling` with a row that is written at 10, after its lease. -/
def lateBilling : PreConsumeBillingEnv := { calmBilling with persist := ⟨10, .calm, .calm⟩ }

/-- A wallet that cannot be written, after a token that cannot be written back. -/
def brokenBilling : PreConsumeBillingEnv :=
  let lost : QuotaEnv := { QuotaEnv.calm with fault := some "connection lost" }
  { calmBilling with
    session := { calmOpen with
      wallet := { calmPreConsume with wallet := lost, rollback := lost } } }

def laterBilling : PreConsumeBillingEnv :=
  { calmBilling with session := { calmOpen with
      subscription := { calmPreConsume with subscription := ⟨150, 10, none⟩ } } }

/-- What a call returned, and the balances after it. -/
def Outcome.summary (o : Outcome) : Option Int × Int × Int × Int :=
  (o.result.toOption.map Billing.getPreConsumedQuota, o.account.wallet.balance,
    o.account.token.balance, o.account.subscriptions.used 1)

/-- Five calls that do not end as a failed or a successful call should: a lease
that was over when the session was persisted, a token that could not be written
back, a stream that was reserved before, a request id that was charged before,
and a subscription whose period was over. -/
theorem preConsumeBilling_charges_other :
    (preConsumeBilling plainConfig 100 lateBilling "stream" plainRequest plainAccount
      (some plainRow)).map Outcome.summary = some (none, 900, 900, 0) ∧
    (preConsumeBilling plainConfig 100 brokenBilling "" plainRequest plainAccount none).map
      Outcome.summary = some (none, 1000, 900, 0) ∧
    (preConsumeBilling plainConfig 100 calmBilling "stream" plainRequest plainAccount
      plainOutcome.row).map Outcome.summary = some (some 100, 1000, 1000, 0) ∧
    (preConsumeBilling plainConfig 10 calmBilling "" plainRequest
      (subscribed .never 50 [⟨"req", 1, 1, 10, .consumed⟩] (by simp)) none).map
        Outcome.summary = some (some 10, 1000, 990, 50) ∧
    (preConsumeBilling resetConfig 10 laterBilling "" plainRequest
      (subscribed .daily 50 [] (by simp)) none).map
        Outcome.summary = some (some 10, 1000, 990, 10) := by
  refine ⟨rfl, rfl, rfl, rfl, rfl⟩

end NewApi
