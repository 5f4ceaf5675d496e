import NewApi.Lib.Runs
import NewApi.Billing.Balances

/-!
# Refunds of a wallet session

`Refund` gives back what the session recorded for the token and, in `consumed`, for the
wallet. The token's record is always right. One of the four paths that write the
wallet's assigns where the others add: `PreConsume`, which a `Reserve` of an image request
uses. Such a call *overwrites* when it finds something on record. `gap` is what the
wallet lacks and the record does not know: overwriting calls widen it, and nothing
narrows it.
-/

namespace NewApi

open Runs

/-- One `Reserve`, with the choices of the environment. -/
structure ReserveCall where
  env : BillingSession.ReserveEnv
  target : Int

namespace BillingSession

variable (cfg : BillingConfig)

/-- The session and the account after a `Reserve`. -/
def reserveStep (p : BillingSession × Account) (c : ReserveCall) : BillingSession × Account :=
  ((p.1.reserve cfg c.env c.target p.2).session, (p.1.reserve cfg c.env c.target p.2).account)

/-- The rollback of the call succeeds if it comes to one. -/
def RollbackSucceeds (p : BillingSession × Account) (c : ReserveCall) : Prop :=
  (p.1.reserve cfg c.env c.target p.2).rollbackError = none

/-- `WalletFunding.consumed`, 0 for a subscription. -/
def walletConsumed (s : BillingSession) : Int :=
  match s.funding with
  | .wallet f => f.consumed
  | .subscription _ => 0

/-- The call takes wallet quota for an image request while some is on record. -/
def overwrites (p : BillingSession × Account) (c : ReserveCall) : Bool :=
  p.1.isImageRequest c.env && p.1.takesFunding cfg c.env c.target p.2 &&
    decide (p.1.walletConsumed ≠ 0)

/-! ## What an open wallet session holds -/

/-- The wallet session took its record of the token from both rows. -/
structure WalletHeld (a₀ : Account) (p : BillingSession × Account) : Prop where
  wallet : ∃ f, p.1.funding = .wallet f
  taken : p.2.wallet.balance = a₀.wallet.balance - p.1.tokenConsumed
  token : p.2.token.balance = a₀.token.balance - p.1.tokenShare p.1.tokenConsumed
  consumed_nonneg : 0 ≤ p.1.walletConsumed
  consumed_le : p.1.walletConsumed ≤ p.1.tokenConsumed
  settled : p.1.settled = false
  refunded : p.1.refunded = false
  fundingSettled : p.1.fundingSettled = false

/-- What the wallet lacks beyond `consumed`. -/
def gap (a₀ : Account) (p : BillingSession × Account) : Int :=
  a₀.wallet.balance - p.2.wallet.balance - p.1.walletConsumed

variable {cfg}

variable {a : Account} {info : RelayInfo} {quota : Int} {r : CallResult}

theorem wallet_opened {env : PreConsumeEnv}
    (h : (walletSession info).preConsume cfg env quota a = some r) (hok : r.result = .ok ()) :
    ∃ effective t w, Opened cfg env quota (walletSession info) a r effective t ∧
      r.session.funding = .wallet ⟨info.userId, max effective 0⟩ ∧
      r.account = { a with token := t, wallet := w } ∧
      w.balance = a.wallet.balance - max effective 0 := by
  obtain ⟨effective, t, hopen⟩ := preConsume_opened h hok
  have hfund := hopen.funding
  simp only [walletSession, new, FundingSource.preConsume] at hfund
  by_cases hpos : 0 < effective
  · rcases walletPreConsume_spec cfg env.wallet hpos ⟨info.userId, 0⟩ a.wallet with
      ⟨err, he⟩ | ⟨w, he, hb⟩ <;> rw [he] at hfund
    · cases hfund
    simp only [Option.some.injEq, Prod.mk.injEq, true_and] at hfund
    refine ⟨effective, t, w, hopen, ?_⟩
    rw [Int.max_eq_left (by omega)]
    exact ⟨hfund.1.symm, hfund.2.symm, hb⟩
  · rw [WalletFunding.preConsume, if_pos (by omega)] at hfund
    simp only [Option.some.injEq, Prod.mk.injEq, true_and] at hfund
    refine ⟨effective, t, a.wallet, hopen, ?_⟩
    rw [Int.max_eq_right (by omega)]
    exact ⟨hfund.1.symm, hfund.2.symm, by omega⟩

theorem walletHeld_preConsume {env : PreConsumeEnv}
    (h : (walletSession info).preConsume cfg env quota a = some r) (hok : r.result = .ok ()) :
    WalletHeld a (r.session, r.account) ∧ gap a (r.session, r.account) = 0 := by
  obtain ⟨effective, t, w, hopen, hf, ha, hb⟩ := wallet_opened h hok
  have htc : r.session.tokenConsumed = max effective 0 := by
    rw [hopen.tokenConsumed]
    split
    · omega
    · show (0 : Int) = _; omega
  have hplay : r.session.relayInfo.isPlayground = info.isPlayground := hopen.isPlayground
  have hconsumed : r.session.walletConsumed = max effective 0 := by rw [walletConsumed, hf]
  have htoken : t.balance = a.token.balance - r.session.tokenShare (max effective 0) := by
    rw [hopen.token, tokenShare, tokenShare, hplay]
    rfl
  refine ⟨⟨⟨_, hf⟩, ?_, ?_, ?_, ?_, hopen.settled, hopen.refunded, hopen.fundingSettled⟩, ?_⟩
  · show r.account.wallet.balance = _ - r.session.tokenConsumed
    rw [ha, htc]; exact hb
  · show r.account.token.balance = _ - r.session.tokenShare r.session.tokenConsumed
    rw [ha, htc]; exact htoken
  · show 0 ≤ r.session.walletConsumed
    rw [hconsumed]; omega
  · show r.session.walletConsumed ≤ r.session.tokenConsumed
    rw [hconsumed, htc]
  · show a.wallet.balance - r.account.wallet.balance - r.session.walletConsumed = 0
    rw [ha, hconsumed]
    show a.wallet.balance - w.balance - _ = 0
    omega

/-- One `Reserve` keeps the invariant, and widens the gap exactly when it
overwrites. -/
theorem walletHeld_reserve (cfg : BillingConfig) (a₀ : Account) (p : BillingSession × Account)
    (c : ReserveCall) (hp : WalletHeld a₀ p) (hroll : RollbackSucceeds cfg p c) :
    WalletHeld a₀ (reserveStep cfg p c) ∧
      (¬ overwrites cfg p c = true → gap a₀ (reserveStep cfg p c) = gap a₀ p) ∧
      (¬ ¬ overwrites cfg p c = true → gap a₀ p < gap a₀ (reserveStep cfg p c)) := by
  obtain ⟨f, hf⟩ := hp.wallet
  obtain ⟨d, hmoved⟩ := reserve_moved hroll
  generalize hreset : (p.1.isImageRequest c.env && p.1.takesFunding cfg c.env c.target p.2) = reset
    at hmoved
  have hover : overwrites cfg p c = (reset && decide (p.1.walletConsumed ≠ 0)) := by
    rw [overwrites, hreset]
  have hold : p.1.walletConsumed = f.consumed := by rw [walletConsumed, hf]
  have hfunding : (reserveStep cfg p c).1.funding =
      .wallet { f with consumed := (if reset then 0 else f.consumed) + d } := by
    have := hmoved.funding
    rw [hf] at this
    exact this
  have hnew : (reserveStep cfg p c).1.walletConsumed =
      (if reset then 0 else p.1.walletConsumed) + d := by
    rw [walletConsumed, hfunding, hold]
  have hbalance : (reserveStep cfg p c).2.wallet.balance = p.2.wallet.balance - d := by
    have := hmoved.fundingBalance
    rw [hf] at this
    exact this
  have htc : (reserveStep cfg p c).1.tokenConsumed = p.1.tokenConsumed + d := hmoved.tokenConsumed
  have hshare : ∀ e, (reserveStep cfg p c).1.tokenShare e = p.1.tokenShare e := fun e => by
    rw [tokenShare, tokenShare]
    exact congrArg (fun b => if b = true then (0 : Int) else e) hmoved.isPlayground
  have htoken : (reserveStep cfg p c).2.token.balance = p.2.token.balance - p.1.tokenShare d :=
    hmoved.token
  have hd := hmoved.nonneg
  have h0 := hp.consumed_nonneg
  have h1 := hp.consumed_le
  have h2 := hp.taken
  refine ⟨⟨⟨_, hfunding⟩, by omega, ?_, ?_, ?_, ?_, ?_, ?_⟩, ?_, ?_⟩
  · rw [htoken, htc, hshare, tokenShare_add, hp.token]
    omega
  · rw [hnew]; split <;> omega
  · rw [hnew, htc]; split <;> omega
  · exact hmoved.settled.trans hp.settled
  · exact hmoved.refunded.trans hp.refunded
  · exact hmoved.fundingSettled.trans hp.fundingSettled
  · intro hno
    rw [hover] at hno
    rw [gap, gap, hnew, hbalance]
    cases reset with
    | false => simp only [Bool.false_eq_true, if_false]; omega
    | true => simp at hno; simp only [if_true]; omega
  · intro hyes
    rw [hover] at hyes
    cases reset with
    | false => simp at hyes
    | true =>
      have hne : p.1.walletConsumed ≠ 0 := by simpa using hyes
      rw [gap, gap, hnew, hbalance, if_pos rfl]
      omega

/-! ## The refund -/

variable {env : RefundJobEnv}

/-- A refund without a failed update, of a session that has nothing more to give
back to a subscription, gives back the record of the funding source and of the
token. -/
theorem refundJob_spec {s : BillingSession}
    (hextra : s.extraReserved = 0 ∨ ∃ f, s.funding = .wallet f)
    (hok : (s.refundJob cfg env a).1 = false) :
    ∃ a₁, s.funding.refund cfg env a = (.ok (), a₁) ∧ (s.refundJob cfg env a).2.wallet = a₁.wallet ∧
      (s.refundJob cfg env a).2.subscriptions = a₁.subscriptions ∧
      (s.refundJob cfg env a).2.token.balance =
        a₁.token.balance + s.tokenShare (max s.tokenConsumed 0) := by
  have hskip : ∀ (failed : Bool) (a₁ : Account), s.refundExtra env failed a₁ = (failed, a₁) := by
    intro failed a₁
    rw [refundExtra]
    rcases hextra with h0 | ⟨f, hf⟩
    · rw [h0]
      cases s.funding <;> rfl
    · rw [hf]
  generalize hrefund : s.funding.refund cfg env a = out at hok ⊢
  obtain ⟨res, a₁⟩ := out
  rw [refundJob, hrefund] at hok ⊢
  dsimp only at hok ⊢
  rw [hskip] at hok ⊢
  split at hok
  next hyes =>
    rw [if_pos hyes]
    rcases increaseTokenQuota_spec cfg.mode env.token s.tokenConsumed a₁.token with
      ⟨err, he⟩ | ⟨t, he, hb⟩
    · rw [he] at hok
      cases hok
    rw [he] at hok ⊢
    have hres : res = .ok () := by cases res <;> first | rfl | cases hok
    refine ⟨a₁, by rw [hres], rfl, rfl, ?_⟩
    rw [hb, Int.max_eq_left (by omega), tokenShare, hyes.2]
    simp
  next hno =>
    rw [if_neg hno]
    have hres : res = .ok () := by cases res <;> first | rfl | cases hok
    refine ⟨a₁, by rw [hres], rfl, rfl, ?_⟩
    rw [tokenShare_unpaid hno, Int.add_zero]

theorem walletRefund_ok {f : WalletFunding} {a₁ : Account} (hf : 0 ≤ f.consumed)
    (h : FundingSource.refund cfg env (.wallet f) a = (.ok (), a₁)) :
    a₁.wallet.balance = a.wallet.balance + f.consumed ∧ a₁.token = a.token ∧
      a₁.subscriptions = a.subscriptions := by
  rw [FundingSource.refund, WalletFunding.refund] at h
  by_cases hle : f.consumed ≤ 0
  · rw [if_pos hle] at h
    cases h
    exact ⟨by dsimp only; omega, rfl, rfl⟩
  rw [if_neg hle] at h
  rcases increaseUserQuota_spec cfg.mode env.wallet f.consumed a.wallet with
    ⟨err, he⟩ | ⟨w, he, hb⟩ <;> rw [he] at h
  · cases h
  · cases h
    exact ⟨hb, rfl, rfl⟩

theorem refund_wallet {a₀ : Account} {p : BillingSession × Account} (hp : WalletHeld a₀ p)
    (hok : (p.1.refund cfg env p.2).1 = false) :
    (p.1.refund cfg env p.2).2.2.wallet.balance = a₀.wallet.balance - gap a₀ p ∧
      (p.1.refund cfg env p.2).2.2.token.balance = a₀.token.balance ∧
      (p.1.refund cfg env p.2).2.2.subscriptions = p.2.subscriptions := by
  obtain ⟨s, a⟩ := p
  obtain ⟨f, hf⟩ := hp.wallet
  have hc : s.walletConsumed = f.consumed := by rw [walletConsumed, hf]
  have h0 := hp.consumed_nonneg
  have h1 := hp.consumed_le
  have h2 := hp.taken
  have h3 := hp.token
  dsimp only at hf h0 h1 h2 h3 hok ⊢
  rw [gap]
  rw [hc] at h0 h1 ⊢
  have hopen : (s.settled || s.refunded) = false := by rw [hp.settled, hp.refunded]; rfl
  have hneeds : s.needsRefund = decide (0 < s.tokenConsumed) := by
    rw [needsRefund, hp.settled, hp.refunded, hp.fundingSettled, hf]
    by_cases hpos : 0 < s.tokenConsumed <;> simp [hpos]
  rw [refund, hopen, if_neg (by simp), hneeds] at hok ⊢
  by_cases hpos : 0 < s.tokenConsumed
  · rw [if_pos (by simpa using hpos)] at hok ⊢
    obtain ⟨a₁, hrefund, hw, hs, ht⟩ := refundJob_spec (.inr ⟨f, hf⟩) hok
    rw [hf] at hrefund
    obtain ⟨hw₁, ht₁, hs₁⟩ := walletRefund_ok h0 hrefund
    rw [Int.max_eq_left (by omega), ht₁, h3] at ht
    dsimp only
    rw [hw, hs, hs₁, ht]
    exact ⟨by omega, by omega, rfl⟩
  · rw [if_neg (by simpa using hpos)]
    dsimp only
    have hz : s.tokenConsumed = 0 := by omega
    rw [hz, tokenShare_zero] at h3
    exact ⟨by omega, by omega, rfl⟩

/-! ## Every run -/

/-- `consumed` is what the wallet lacks, at every point of the run. -/
def ConsumedExact (cfg : BillingConfig) (a : Account) (p : BillingSession × Account)
    (calls : List ReserveCall) : Prop :=
  ∀ done rest, calls = done ++ rest →
    (run (reserveStep cfg) p done).1.walletConsumed =
      a.wallet.balance - (run (reserveStep cfg) p done).2.wallet.balance

/-- The refund at `p` leaves wallet and token as they are in `a`. -/
def Restores (cfg : BillingConfig) (job : RefundJobEnv) (a : Account)
    (p : BillingSession × Account) : Prop :=
  (p.1.refund cfg job p.2).2.2.wallet.balance = a.wallet.balance ∧
    (p.1.refund cfg job p.2).2.2.token.balance = a.token.balance

/-- In every run of a wallet session whose updates that put quota back succeed,
`consumed` is exact at every point, and the refund at the end restores wallet
and token, exactly when no call of the run overwrites. -/
theorem wallet_refund_restores_iff {env : PreConsumeEnv} {quota : Int} {info : RelayInfo}
    {a : Account} {r : CallResult} (h : (walletSession info).preConsume cfg env quota a = some r)
    (hok : r.result = .ok ()) (calls : List ReserveCall)
    (hroll : Along (reserveStep cfg) (RollbackSucceeds cfg) (r.session, r.account) calls)
    (job : RefundJobEnv)
    (hjob : ((run (reserveStep cfg) (r.session, r.account) calls).1.refund cfg job
      (run (reserveStep cfg) (r.session, r.account) calls).2).1 = false) :
    (ConsumedExact cfg a (r.session, r.account) calls ↔
      Along (reserveStep cfg) (fun p c => ¬ overwrites cfg p c = true) (r.session, r.account)
        calls) ∧
    (Restores cfg job a (run (reserveStep cfg) (r.session, r.account) calls) ↔
      Along (reserveStep cfg) (fun p c => ¬ overwrites cfg p c = true) (r.session, r.account)
        calls) := by
  obtain ⟨hheld, hgap⟩ := walletHeld_preConsume h hok
  generalize (r.session, r.account) = p at hroll hjob hheld hgap ⊢
  have hrule := fun cs hcs => along_iff_measure (walletHeld_reserve cfg a) (s := p) cs hheld hcs
  have hend := (hrule calls hroll).2
  rw [hgap] at hend
  refine ⟨⟨?_, ?_⟩, ?_⟩
  · intro hall
    have := hall calls [] (by simp)
    exact hend.mpr (by rw [gap]; omega)
  · intro hno done rest hcalls
    subst hcalls
    have hdone := (hrule done (along_append.mp hroll).1).2.mp (along_append.mp hno).1
    rw [hgap, gap] at hdone
    omega
  · have hlast : WalletHeld a (run (reserveStep cfg) p calls) :=
      run_invariant (fun q c hq hc => (walletHeld_reserve cfg a q c hq hc).1) hheld hroll
    obtain ⟨hw, ht, -⟩ := refund_wallet hlast hjob
    rw [Restores, hend, hw, ht]
    exact ⟨fun hr => by omega, fun hz => ⟨by omega, rfl⟩⟩

/-! ## A run that overwrites -/

/-- A configuration without Redis, batch updates, trust and resets. -/
def plainConfig : BillingConfig := ⟨⟨false, false⟩, 0, fun _ => "", fun _ _ _ => 0⟩

def plainRequest : RelayInfo :=
  ⟨1, "req", false, false, false, false, false, 0, false, none, "", 0, 0, none, 0, 0, 0, 0, 0, 0,
    ""⟩

/-- 1000 in the wallet and on the token, no subscription. -/
def plainAccount : Account := ⟨⟨1000, 0⟩, ⟨1000, 0, 0⟩, ⟨.empty, .empty, .empty⟩⟩

def calmPreConsume : PreConsumeEnv := ⟨0, .calm, .calm, ⟨0, 1, none⟩, none, .calm⟩

def calmRefund : RefundJobEnv := ⟨.calm, .calm, .calm, .calm, none, .calm⟩

/-- A `Reserve` of a text request, with no fault. -/
def textReserve (target : Int) : ReserveCall := ⟨⟨0, .calm, .calm, .calm⟩, target⟩

/-- A `Reserve` of a request for one image, with no fault. -/
def imageReserve (target : Int) : ReserveCall := ⟨⟨1, .calm, .calm, .calm⟩, target⟩

/-- The session after 100 was taken in advance. -/
def plainOpened : CallResult where
  result := .ok ()
  session := { new { plainRequest with
      finalPreConsumedQuota := 100, billingSource := some .wallet } (.wallet ⟨1, 100⟩) with
    preConsumedQuota := 100, tokenConsumed := 100 }
  account := { plainAccount with wallet := ⟨900, 0⟩, token := ⟨900, 100, 0⟩ }
  rollbackError := none

theorem preConsume_plain :
    (walletSession plainRequest).preConsume plainConfig calmPreConsume 100 plainAccount =
      some plainOpened := rfl

theorem wallet_refund_restores_iff_text :
    RollbackSucceeds plainConfig (plainOpened.session, plainOpened.account) (textReserve 150) ∧
    (ConsumedExact plainConfig plainAccount (plainOpened.session, plainOpened.account)
        [textReserve 150] ↔
      Along (reserveStep plainConfig) (fun p c => ¬ overwrites plainConfig p c = true)
        (plainOpened.session, plainOpened.account) [textReserve 150]) :=
  ⟨rfl, (wallet_refund_restores_iff preConsume_plain rfl [textReserve 150] ⟨rfl, trivial⟩
    calmRefund rfl).1⟩

/-- 100 is taken, a `Reserve` for an image request raises it to 150, and the
refund gives the wallet back 50. -/
theorem image_reserve_refund_short :
    (walletSession plainRequest).preConsume plainConfig calmPreConsume 100 plainAccount =
      some plainOpened ∧
    RollbackSucceeds plainConfig (plainOpened.session, plainOpened.account) (imageReserve 150) ∧
    ∃ p, p = reserveStep plainConfig (plainOpened.session, plainOpened.account) (imageReserve 150) ∧
      p.1.walletConsumed = 50 ∧ plainAccount.wallet.balance - p.2.wallet.balance = 150 ∧
      (p.1.refund plainConfig calmRefund p.2).1 = false ∧
      (p.1.refund plainConfig calmRefund p.2).2.2.wallet.balance = 900 ∧
      plainAccount.wallet.balance = 1000 := by
  exact ⟨rfl, rfl, _, rfl, rfl, rfl, rfl, rfl, rfl⟩

end BillingSession

end NewApi
