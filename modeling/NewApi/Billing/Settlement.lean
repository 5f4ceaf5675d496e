import NewApi.Billing.Refund

/-!
# Settlement

The `Settle` that ends a session moves the difference to the actual quota, so over the
whole run the funding source and the token have paid the actual quota, once.

The invariant is `Balanced`: what the funding source lacks, and what the token lacks, is
`preConsumedQuota`. A settled session ignores every later call. A subscription starts
from its used amount after the reset that the pre-consume makes (`StartBalance`).
-/

namespace NewApi

open Runs

/-- A call at the end of a session. -/
inductive EndCall
  | settle (env : BillingSession.SettleEnv) (actual : Int)
  | refund (env : RefundJobEnv)

namespace BillingSession

/-- The session and the account after a call at the end. -/
def endStep (cfg : BillingConfig) (p : BillingSession × Account) :
    EndCall → BillingSession × Account
  | .settle env actual => (p.1.settle cfg env actual p.2).2
  | .refund env => (p.1.refund cfg env p.2).2

variable {cfg : BillingConfig}

/-! ## Opening a session -/

/-- A session that `NewBillingSession` opens on either funding source, with its
quota taken in advance. A subscription has not been asked under this request
id before. -/
inductive Opening (cfg : BillingConfig) (env : PreConsumeEnv) (info : RelayInfo) (quota : Int)
    (a : Account) (r : CallResult) : Prop
  | wallet (hquota : 0 ≤ quota) (h : (walletSession info).preConsume cfg env quota a = some r)
  | subscription (hfresh : a.subscriptions.records.find info.requestId = none)
      (h : (subscriptionSession info (subConsume quota)).preConsume cfg env (subConsume quota) a =
        some r)

/-- What the funding source had before the session, a subscription after its reset. -/
def StartBalance (cfg : BillingConfig) (now : Int) (a : Account) (funding : FundingSource)
    (start : Int) : Prop :=
  match funding with
  | .wallet _ => start = a.wallet.balance
  | .subscription f => ∃ sub, ResetRow cfg.nextReset now a.subscriptions f.subscriptionId sub ∧
      start = -sub.amountUsed

/-- An open session of a request on the source of `f`, whose funding source and
token lack what it took. -/
structure Balanced (start token : Int) (f : FundingSource) (playground : Bool)
    (p : BillingSession × Account) : Prop where
  source : ∀ b : Account, b.fundingBalance p.1.funding = b.fundingBalance f
  isPlayground : p.1.relayInfo.isPlayground = playground
  funding : p.2.fundingBalance f = start - p.1.preConsumedQuota
  token : p.2.token.balance = token - (if playground then 0 else p.1.preConsumedQuota)
  settled : p.1.settled = false
  fundingSettled : p.1.fundingSettled = false

variable {a : Account} {info : RelayInfo} {r : CallResult} {f : FundingSource} {playground : Bool}
  {token : Int} {p : BillingSession × Account}

variable {env : PreConsumeEnv} {start actual : Int}

theorem subscription_charged {amount : Int}
    (hfresh : a.subscriptions.records.find info.requestId = none)
    (h : (subscriptionSession info amount).preConsume cfg env amount a = some r)
    (hok : r.result = .ok ()) :
    ∃ t f result, Opened cfg env amount (subscriptionSession info amount) a r amount t ∧
      r.session.funding = .subscription f ∧ f.requestId = info.requestId ∧
      f.subscriptionId = result.userSubscriptionId ∧ f.preConsumed = amount ∧
      r.account.wallet = a.wallet ∧ r.account.token = t ∧ 0 < amount ∧
      Charged cfg.nextReset env.subscription.now info.requestId info.userId amount result
        a.subscriptions r.account.subscriptions := by
  obtain ⟨effective, t, hopen⟩ := preConsume_opened h hok
  have heff : effective = amount := by
    rcases hopen.amount with he | ⟨_, f, hf⟩
    · exact he
    · cases hf
  subst heff
  have hfund := hopen.funding
  simp only [subscriptionSession, new, FundingSource.preConsume, SubscriptionFunding.preConsume]
    at hfund
  split at hfund
  · cases hfund
  next res f db hpre =>
  split at hpre
  · cases hpre
  · cases hpre
    simp at hfund
  next result db' hdb =>
  obtain ⟨hamount, -, hcharged⟩ := preConsumeUserSubscription_charged hdb hfresh
  have hf : f.requestId = info.requestId ∧ f.subscriptionId = result.userSubscriptionId ∧
      f.preConsumed = result.preConsumed ∧ db = db' := by
    split at hpre <;> (cases hpre; exact ⟨rfl, rfl, rfl, rfl⟩)
  obtain ⟨hreq, hid, hpc, rfl⟩ := hf
  simp only [Option.some.injEq, Prod.mk.injEq] at hfund
  obtain ⟨-, hsf, hacc⟩ := hfund
  refine ⟨t, f, result, hopen, hsf.symm, hreq, hid, hpc.trans hcharged.preConsumed, ?_⟩
  rw [← hacc]
  exact ⟨rfl, rfl, hamount, hcharged⟩

theorem opening_balanced {quota : Int} (h : Opening cfg env info quota a r)
    (hok : r.result = .ok ()) :
    ∃ start, StartBalance cfg env.subscription.now a r.session.funding start ∧
      Balanced start a.token.balance r.session.funding info.isPlayground
        (r.session, r.account) := by
  cases h with
  | wallet hquota h =>
    obtain ⟨hheld, hgap⟩ := walletHeld_preConsume h hok
    obtain ⟨effective, t, hopen⟩ := preConsume_opened h hok
    obtain ⟨f, hf⟩ := hheld.wallet
    have hpre : r.session.preConsumedQuota = r.session.tokenConsumed := by
      have h0 : (walletSession info).tokenConsumed = 0 := rfl
      rw [hopen.preConsumedQuota, hopen.tokenConsumed, h0]
      rcases hopen.amount with he | ⟨he, -⟩ <;> split <;> omega
    have hplay : r.session.relayInfo.isPlayground = info.isPlayground := hopen.isPlayground
    have htoken := hheld.token
    rw [tokenShare] at htoken
    rw [hplay, ← hpre] at htoken
    refine ⟨a.wallet.balance, by rw [hf]; rfl, fun _ => rfl, hplay, ?_, htoken, hheld.settled,
      hheld.fundingSettled⟩
    rw [hf, hpre]
    exact hheld.taken
  | subscription hfresh h =>
    obtain ⟨t, f, result, hopen, hf, -, hid, -, -, ht, hamount, hcharged⟩ :=
      subscription_charged hfresh h hok
    obtain ⟨db, sub, -, hrow, hsub, hused⟩ := hcharged.used hamount
    rw [← hid] at hrow
    refine ⟨-sub.amountUsed, by rw [hf]; exact ⟨sub, hrow, rfl⟩, fun _ => rfl, hopen.isPlayground,
      ?_, ?_, hopen.settled, hopen.fundingSettled⟩
    · rw [hf, hopen.preConsumedQuota]
      show -r.account.subscriptions.used f.subscriptionId = _
      rw [hid, hused, if_pos rfl, hsub]
      omega
    · rw [ht, hopen.token, hopen.preConsumedQuota, Int.max_eq_left (by omega)]
      rfl

/-! ## Reserving and refunding -/

theorem reserve_balanced (p : BillingSession × Account) (c : ReserveCall)
    (hp : Balanced start token f playground p) (hroll : RollbackSucceeds cfg p c) :
    Balanced start token f playground (reserveStep cfg p c) := by
  obtain ⟨d, hmoved⟩ := reserve_moved hroll
  have hfund : (reserveStep cfg p c).1.funding = _ := hmoved.funding
  have hpre : (reserveStep cfg p c).1.preConsumedQuota = _ := hmoved.preConsumedQuota
  have hb : (reserveStep cfg p c).2.fundingBalance p.1.funding = _ := hmoved.fundingBalance
  have ht : (reserveStep cfg p c).2.token.balance = _ := hmoved.token
  rw [hp.source, hp.source] at hb
  rw [tokenShare, hp.isPlayground] at ht
  refine ⟨?_, hmoved.isPlayground.trans hp.isPlayground, ?_, ?_,
    hmoved.settled.trans hp.settled, hmoved.fundingSettled.trans hp.fundingSettled⟩
  · intro b
    rw [hfund, fundingBalance_moved, hp.source]
  · rw [hb, hpre, hp.funding]
    omega
  · rw [ht, hpre, hp.token]
    split <;> omega

variable (cfg)

theorem refund_idle (env : RefundJobEnv) (h : p.1.needsRefund = false) :
    (p.1.refund cfg env p.2).2.2 = p.2 ∧
      ∃ b, (p.1.refund cfg env p.2).2.1 = { p.1 with refunded := b } := by
  rw [refund, h]
  split
  · exact ⟨rfl, p.1.refunded, rfl⟩
  · exact ⟨rfl, true, rfl⟩

/-! ## Settling -/

/-- The amount the funding source of a `Settle` is moved to is not below 0. -/
def NoClamp (p : BillingSession × Account) (actual : Int) : Prop :=
  ∀ f, p.1.funding = .subscription f →
    0 ≤ p.2.subscriptions.used f.subscriptionId + (actual - p.1.preConsumedQuota)

theorem fundingSettle_spec (env : QuotaEnv) (delta : Int) (f : FundingSource) (a : Account) :
    (∃ err, f.settle cfg env delta a = (.error err, a)) ∨
      ∃ a', f.settle cfg env delta a = (.ok (), a') ∧ a'.token = a.token ∧
        ((∀ sub, f = .subscription sub → 0 ≤ a.subscriptions.used sub.subscriptionId + delta) →
          a'.fundingBalance f = a.fundingBalance f - delta) := by
  cases f with
  | wallet f =>
    simp only [FundingSource.settle, walletSettle, Account.fundingBalance]
    split
    next hzero => exact .inr ⟨a, rfl, rfl, fun _ => by omega⟩
    split
    · rcases decreaseUserQuota_spec cfg.mode env delta a.wallet with ⟨err, he⟩ | ⟨w, he, hb⟩
      · exact .inl ⟨err, by rw [he]⟩
      · exact .inr ⟨{ a with wallet := w }, by rw [he], rfl, fun _ => hb⟩
    · rcases increaseUserQuota_spec cfg.mode env (-delta) a.wallet with ⟨err, he⟩ | ⟨w, he, hb⟩
      · exact .inl ⟨err, by rw [he]⟩
      · exact .inr ⟨{ a with wallet := w }, by rw [he], rfl, fun _ => by dsimp only; omega⟩
  | subscription f =>
    simp only [FundingSource.settle, Account.fundingBalance]
    split
    next hzero => exact .inr ⟨a, rfl, rfl, fun _ => by omega⟩
    rcases postConsumeUserSubscriptionDelta_spec env.fault f.subscriptionId delta
      a.subscriptions with ⟨err, he⟩ | ⟨db, he, -, -, hused⟩
    · exact .inl ⟨err, by rw [he]⟩
    refine .inr ⟨{ a with subscriptions := db }, by rw [he], rfl, ?_⟩
    intro hclamp
    have := hclamp f rfl
    rw [hused, if_pos rfl]
    omega

theorem settleToken_spec (env : QuotaEnv) (delta : Int) (t : Token) :
    Adds Token.balance (-delta) t (settleToken cfg env delta t) := by
  rw [settleToken]
  split
  · exact decreaseTokenQuota_spec cfg.mode env delta t
  · exact increaseTokenQuota_spec cfg.mode env (-delta) t

variable {cfg}

/-- The first `Settle` that succeeds makes the run cost the actual quota. -/
theorem settle_balanced {env : SettleEnv} (hp : Balanced start token f playground p)
    (hclamp : NoClamp p actual) (hok : (p.1.settle cfg env actual p.2).1 = .ok ()) :
    (p.1.settle cfg env actual p.2).2.2.fundingBalance f = start - actual ∧
      (p.1.settle cfg env actual p.2).2.2.token.balance =
        token - (if playground then 0 else actual) ∧
      (p.1.settle cfg env actual p.2).2.1.settled = true := by
  have hf := hp.funding
  have ht := hp.token
  rw [settle, hp.settled, if_neg (by simp)] at hok ⊢
  dsimp only at hok ⊢
  split at hok
  next hzero =>
    rw [if_pos hzero]
    have he : p.1.preConsumedQuota = actual := by omega
    rw [he] at hf ht
    exact ⟨hf, ht, rfl⟩
  next hdelta =>
  rw [if_neg hdelta]
  rw [hp.fundingSettled] at hok ⊢
  simp only [Bool.false_eq_true, if_false] at hok ⊢
  rcases fundingSettle_spec cfg env.funding (actual - p.1.preConsumedQuota) p.1.funding p.2 with
    ⟨err, he⟩ | ⟨a₁, he, ht₁, hb₁⟩
  · rw [he] at hok
    cases hok
  have hb := hb₁ hclamp
  rw [hp.source, hp.source] at hb
  rw [he] at hok ⊢
  dsimp only at hok ⊢
  rw [hp.isPlayground] at hok ⊢
  cases playground with
  | true => exact ⟨by rw [if_pos rfl]; dsimp only; omega, by simpa [ht₁] using ht, rfl⟩
  | false =>
    rw [if_neg (by simp)] at hok ⊢
    rcases settleToken_spec cfg env.token (actual - p.1.preConsumedQuota) a₁.token with
      ⟨err, hte⟩ | ⟨t, hte, hbal⟩
    · rw [hte] at hok
      cases hok
    rw [hte]
    refine ⟨?_, ?_, rfl⟩ <;> dsimp only
    · rw [fundingBalance_token]
      omega
    · rw [hbal, ht₁, ht]
      simp only [Bool.false_eq_true, if_false]
      omega

theorem run_settled (h : p.1.settled = true) (calls : List EndCall) :
    run (endStep cfg) p calls = p := by
  induction calls with
  | nil => rfl
  | cons call calls ih =>
    have hstep : endStep cfg p call = p := by
      cases call with
      | settle env actual => rw [endStep, settle, if_pos h]
      | refund env => rw [endStep, refund, h]; rfl
    rw [run_cons, hstep]
    exact ih

theorem settle_failed {env : SettleEnv} {err : String} (hsettled : p.1.settled = false)
    (hfs : p.1.fundingSettled = false) (hdelta : actual ≠ p.1.preConsumedQuota)
    (h : (p.1.funding.settle cfg env.funding (actual - p.1.preConsumedQuota) p.2).1 = .error err) :
    p.1.settle cfg env actual p.2 = (.error err, p) := by
  rcases fundingSettle_spec cfg env.funding (actual - p.1.preConsumedQuota) p.1.funding p.2 with
    ⟨err', he⟩ | ⟨a₁, he, -⟩ <;> rw [he] at h
  · cases h
    rw [settle, hsettled, if_neg (by simp)]
    rw [if_neg (by omega), hfs]
    simp only [Bool.false_eq_true, if_false]
    rw [he]
  · cases h

/-! ## Every run -/

/-- A call before the first `Settle` that succeeds: a refund with nothing to give
back, or a `Settle` whose funding update fails. -/
def Harmless (cfg : BillingConfig) (p : BillingSession × Account) : EndCall → Prop
  | .refund _ => p.1.needsRefund = false
  | .settle env actual => actual ≠ p.1.preConsumedQuota ∧
      ∃ err, (p.1.funding.settle cfg env.funding (actual - p.1.preConsumedQuota) p.2).1 = .error err

variable (p)

theorem harmless_balanced (call : EndCall) (hp : Balanced start token f playground p)
    (h : Harmless cfg p call) : Balanced start token f playground (endStep cfg p call) := by
  cases call with
  | settle env actual =>
    obtain ⟨hdelta, err, he⟩ := h
    rw [endStep, settle_failed hp.settled hp.fundingSettled hdelta he]
    exact hp
  | refund env =>
    obtain ⟨hacc, b, hsess⟩ := refund_idle cfg env h
    have hstep : endStep cfg p (.refund env) = ({ p.1 with refunded := b }, p.2) :=
      Prod.ext hsess hacc
    rw [hstep]
    exact ⟨hp.source, hp.isPlayground, hp.funding, hp.token, hp.settled, hp.fundingSettled⟩

/-- A session that is opened, reserves more and is then settled has cost the
actual quota, and nothing that follows changes that. A `Settle` whose funding
update fails leaves session and account as they were. -/
theorem settle_charges_actual {env : PreConsumeEnv} {info : RelayInfo} {quota : Int} {a : Account}
    {r : CallResult} (hopen : Opening cfg env info quota a r) (hok : r.result = .ok ())
    (reserves : List ReserveCall)
    (hroll : Along (reserveStep cfg) (RollbackSucceeds cfg) (r.session, r.account) reserves)
    (before : List EndCall)
    (hbefore : Along (endStep cfg) (Harmless cfg)
      (run (reserveStep cfg) (r.session, r.account) reserves) before)
    (p : BillingSession × Account)
    (hp : p = run (endStep cfg) (run (reserveStep cfg) (r.session, r.account) reserves) before)
    (senv : SettleEnv) (actual : Int) :
    ∃ start, StartBalance cfg env.subscription.now a r.session.funding start ∧
      ((p.1.settle cfg senv actual p.2).1 = .ok () → NoClamp p actual → ∀ later : List EndCall,
        run (endStep cfg) p (.settle senv actual :: later) = endStep cfg p (.settle senv actual) ∧
        (endStep cfg p (.settle senv actual)).2.fundingBalance r.session.funding =
          start - actual ∧
        (endStep cfg p (.settle senv actual)).2.token.balance =
          a.token.balance - (if info.isPlayground then 0 else actual)) ∧
      (∀ err, actual ≠ p.1.preConsumedQuota →
        (p.1.funding.settle cfg senv.funding (actual - p.1.preConsumedQuota) p.2).1 = .error err →
        p.1.settle cfg senv actual p.2 = (.error err, p)) := by
  obtain ⟨start, hstart, hbal⟩ := opening_balanced hopen hok
  have hreserved := run_invariant (fun q c => reserve_balanced q c) hbal hroll
  have hend := run_invariant (fun q c => harmless_balanced q c) hreserved hbefore
  rw [← hp] at hend
  refine ⟨start, hstart, ?_, ?_⟩
  · intro hset hclamp later
    obtain ⟨hf, ht, hs⟩ := settle_balanced hend hclamp hset
    exact ⟨run_settled hs later, hf, ht⟩
  · intro err hdelta he
    exact settle_failed hend.settled hend.fundingSettled hdelta he

def calmSettle : SettleEnv := ⟨.calm, .calm⟩

/-- The session of `plainOpened` after a `Reserve` to 150. -/
def plainReserved : BillingSession × Account :=
  reserveStep plainConfig (plainOpened.session, plainOpened.account) (textReserve 150)

theorem settle_charges_actual_text :
    ∃ start, StartBalance plainConfig 0 plainAccount plainOpened.session.funding start ∧
      (endStep plainConfig plainReserved (.settle calmSettle 30)).2.fundingBalance
        plainOpened.session.funding = start - 30 := by
  obtain ⟨start, hstart, hsettle, -⟩ := settle_charges_actual
    (.wallet (by decide) preConsume_plain) rfl [textReserve 150] ⟨rfl, trivial⟩ [] trivial
    plainReserved rfl calmSettle 30
  exact ⟨start, hstart, (hsettle rfl (by rintro f ⟨⟩) []).2.1⟩

/-! ## Runs that cost something else -/

/-- A `Reserve` whose token part is refused and whose rollback fails. -/
def brokenReserve (target : Int) : ReserveCall :=
  ⟨⟨0, .calm, .calm, { QuotaEnv.calm with fault := some "connection lost" }⟩, target⟩

/-- `plainAccount` with a token of 120. -/
def smallToken : Account := { plainAccount with token := ⟨120, 0, 0⟩ }

/-- One subscription of user 1 with the given used amount and records. -/
def subscribed (period : ResetPeriod) (used : Nat) (records : List SubscriptionPreConsumeRecord)
    (h : (records.map SubscriptionPreConsumeRecord.requestId).Nodup) : Account :=
  { plainAccount with subscriptions :=
    { subs := ⟨[⟨1, 1, 1, 1000, used, 0, 1000, .active, 0, 0, true, "", "", ""⟩], by simp⟩
      plans := ⟨[{
        id := 1, title := "", quotaResetPeriod := period, quotaResetCustomSeconds := 0 }], by simp⟩
      records := ⟨records, h⟩ } }

/-- `plainConfig` with a reset every 100 seconds. -/
def resetConfig : BillingConfig := { plainConfig with nextReset := fun base _ _ => base + 100 }

/-- Four runs that do not cost the 30 or 10 that their `Settle` is for: a refund
before it, a `Reserve` that could not undo its wallet part, a request id whose
amount was taken before, and a subscription whose period was over. -/
theorem settle_charges_other :
    (run (endStep plainConfig) (plainOpened.session, plainOpened.account)
        [.refund calmRefund, .settle calmSettle 30]).2.wallet.balance =
      plainAccount.wallet.balance + 70 ∧
    ((walletSession plainRequest).preConsume plainConfig calmPreConsume 100 smallToken).map
        (fun r => (endStep plainConfig
          (reserveStep plainConfig (r.session, r.account) (brokenReserve 150))
          (.settle calmSettle 30)).2.wallet.balance) = some (smallToken.wallet.balance - 80) ∧
    ((subscriptionSession plainRequest 10).preConsume plainConfig calmPreConsume 10
        (subscribed .never 50 [⟨"req", 1, 1, 10, .consumed⟩] (by simp))).map
        (fun r => (endStep plainConfig (r.session, r.account)
          (.settle calmSettle 10)).2.subscriptions.used 1) = some 50 ∧
    ((subscriptionSession plainRequest 10).preConsume resetConfig
        { calmPreConsume with subscription := ⟨150, 10, none⟩ } 10
        (subscribed .daily 50 [] (by simp))).map
        (fun r => (endStep resetConfig (r.session, r.account)
          (.settle calmSettle 10)).2.subscriptions.used 1) = some 10 := by
  refine ⟨rfl, rfl, rfl, rfl⟩

end BillingSession

end NewApi
