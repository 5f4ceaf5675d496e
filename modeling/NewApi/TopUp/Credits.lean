import NewApi.Lib.Checked
import NewApi.Lib.Runs
import NewApi.TopUp.Recharge

/-!
# An order is credited once

`Completed` is what every completion that succeeds does: it takes a pending order to success and
credits its owner, in one commit. No transaction takes an order back to pending, so an order is
credited exactly when it is marked successful, and at most once.

`providerUnits` is what the callback of the order's own provider multiplies out. A manual
completion agrees with it except for Creem, whose orders it multiplies by `QuotaPerUnit` once
more.
-/

namespace NewApi

open Checked Runs

/-! ## What the functions return -/

theorem check_eq_ok {condition : Bool} {err : String} {u : Unit}
    (h : check condition err = .ok u) : condition = true := by
  cases condition with
  | true => rfl
  | false => cases h

section

variable {env : TopUpEnv} {db db' : TopUpDb} {order : TopUp} {quota : Int}

theorem lockTopUp_ok {tradeNo missing : String} (h : db.lockTopUp env tradeNo missing = .ok order) :
    db.orders.find tradeNo = some order := by
  unfold TopUpDb.lockTopUp at h
  split at h
  next hfind =>
    cases h
    exact hfind
  · cases h

theorem lockManualTopUp_ok {tradeNo : String} {operatorRole : Int}
    (h : db.lockManualTopUp env tradeNo operatorRole = .ok order) :
    db.orders.find tradeNo = some order := by
  unfold TopUpDb.lockManualTopUp at h
  split at h
  · cases h
  next hfind =>
    cases h
    exact hfind
  · split at h <;> cases h

theorem saveTopUp_ok (h : db.saveTopUp env order = .ok db') :
    db' = { db with orders := db.orders.save order } := by
  unfold TopUpDb.saveTopUp at h
  split at h
  · cases h
  · exact (Except.ok.inj h).symm

theorem creditTopUpQuota_ok {updates : UserUpdates}
    (h : db.creditTopUpQuota env order quota updates = .ok db') :
    0 < quota ∧ ∃ user, db.users.find order.userId = some user ∧
      user.quota + quota ≤ maxWalletQuota ∧
      db' = { db with
        users := db.users.save (user.credit quota updates)
        credits := ⟨order.tradeNo, order.userId, quota, user.quota + quota⟩ :: db.credits } := by
  unfold TopUpDb.creditTopUpQuota at h
  split at h
  · cases h
  split at h
  · cases h
  · cases h
  next user _ hfind =>
  split at h
  · exact ⟨by omega, user, hfind, by omega, (Except.ok.inj h).symm⟩
  · cases h

end

/-! ## Completions -/

/-- The same order, as far as it is paid for. -/
structure TopUp.Same (order order' : TopUp) : Prop where
  tradeNo : order'.tradeNo = order.tradeNo
  userId : order'.userId = order.userId
  amount : order'.amount = order.amount
  money : order'.money = order.money
  paymentProvider : order'.paymentProvider = order.paymentProvider

/-- A pending order is marked successful and its owner is credited. -/
structure Completed (units : ℚ) (order order' : TopUp) (db db' : TopUpDb) : Prop where
  find : db.orders.find order.tradeNo = some order
  pending : order.status = .pending
  same : order.Same order'
  success : order'.status = .success
  orders : db'.orders = db.orders.save order'
  credit : ∃ quota user updates, topUpQuota units = .ok quota ∧ 0 < quota ∧
    db.users.find order.userId = some user ∧ user.quota + quota ≤ maxWalletQuota ∧
    db'.users = db.users.save (user.credit quota updates) ∧
    db'.credits = ⟨order.tradeNo, order.userId, quota, user.quota + quota⟩ :: db.credits

section

variable {quotaPerUnit : ℚ} {env : TopUpEnv} {db db' : TopUpDb} {order order' : TopUp}
  {completed : Bool}

variable {tradeNo : String}

theorem completed_of {units : ℚ} {quota : Int} {updates : UserUpdates} {saved : TopUpDb}
    (hfind : db.orders.find tradeNo = some order)
    (hpending : decide (order.status = .pending) = true) (hsame : order.Same order')
    (hquota : topUpQuota units = .ok quota)
    (hsave : db.saveTopUp env (order'.complete env.now) = .ok saved)
    (hcredit : saved.creditTopUpQuota env order quota updates = .ok db') :
    Completed units order (order'.complete env.now) db db' := by
  obtain rfl := saveTopUp_ok hsave
  obtain ⟨hpos, user, huser, hmax, rfl⟩ := creditTopUpQuota_ok hcredit
  obtain rfl : order.tradeNo = tradeNo := Table.find_key hfind
  obtain ⟨ht, hu, ha, hm, hp⟩ := hsame
  exact ⟨hfind, of_decide_eq_true hpending, ⟨ht, hu, ha, hm, hp⟩, rfl, rfl, quota, user, updates,
    hquota, hpos, huser, hmax, rfl, rfl⟩

theorem TopUp.Same.refl (order : TopUp) : order.Same order := ⟨rfl, rfl, rfl, rfl, rfl⟩

theorem TopUp.Same.trans {o₁ o₂ o₃ : TopUp} (h : o₁.Same o₂) (h' : o₂.Same o₃) : o₁.Same o₃ :=
  ⟨h'.tradeNo.trans h.tradeNo, h'.userId.trans h.userId, h'.amount.trans h.amount,
    h'.money.trans h.money, h'.paymentProvider.trans h.paymentProvider⟩

theorem callback_ok {result : Except String (Bool × TopUpDb)}
    (h : callback tradeNo result = .ok (completed, db')) : result = .ok (completed, db') := by
  unfold callback at h
  split at h
  · cases h
  · cases result with
    | error err => cases h
    | ok value => exact congrArg Except.ok (Except.ok.inj h)

theorem manualCompleteTopUpForRole_ok {operatorRole : Int}
    (h : manualCompleteTopUpForRole quotaPerUnit env tradeNo operatorRole db =
      .ok (completed, db')) :
    db' = db ∨ ∃ order order', order.tradeNo = tradeNo ∧
      Completed (manualUnits quotaPerUnit order) order order' db db' := by
  unfold manualCompleteTopUpForRole at h
  split at h
  · cases h
  obtain ⟨order, hlock, h⟩ := bind_ok.mp h
  obtain ⟨_, _, h⟩ := bind_ok.mp h
  split at h
  · cases h
    exact .inl rfl
  obtain ⟨_, hpending, h⟩ := bind_ok.mp h
  obtain ⟨quota, hquota, h⟩ := bind_ok.mp h
  obtain ⟨saved, hsave, h⟩ := bind_ok.mp h
  obtain ⟨credited, hcredit, h⟩ := bind_ok.mp h
  cases h
  exact .inr ⟨order, _, Table.find_key (lockManualTopUp_ok hlock),
    completed_of (lockManualTopUp_ok hlock) (check_eq_ok hpending) (.refl order) hquota hsave
      hcredit⟩

theorem updatePendingTopUpStatus_ok {expected : Option PaymentProvider} {target : TopUpStatus}
    (h : updatePendingTopUpStatus env tradeNo expected target db = .ok db') :
    ∃ order, db.orders.find order.tradeNo = some order ∧ order.status = .pending ∧
      db' = { db with orders := db.orders.save { order with status := target } } := by
  unfold updatePendingTopUpStatus at h
  split at h
  · cases h
  obtain ⟨order, hlock, h⟩ := bind_ok.mp h
  obtain ⟨_, _, h⟩ := bind_ok.mp h
  obtain ⟨_, hpending, hsave⟩ := bind_ok.mp h
  have hfind := lockTopUp_ok hlock
  obtain rfl : order.tradeNo = tradeNo := Table.find_key hfind
  exact ⟨order, hfind, of_decide_eq_true (check_eq_ok hpending), saveTopUp_ok hsave⟩

end

/-! ## Steps -/

/-- What the callback of the order's provider multiplies out. -/
def providerUnits (quotaPerUnit : ℚ) (order : TopUp) : Option ℚ :=
  match order.paymentProvider with
  | .epay | .waffo | .waffoPancake => some (order.amount * quotaPerUnit)
  | .stripe => some (order.money * quotaPerUnit)
  | .creem => some order.amount
  | .balance | .unset => none

/-- The quota the callback of the order's provider credits. -/
def providerQuota (quotaPerUnit : ℚ) (order : TopUp) : Option Int :=
  match providerUnits quotaPerUnit order with
  | some units => (topUpQuota units).toOption
  | none => none

/-- No Creem order is completed manually, and no order is marked successful without
a payment. -/
def TopUpAction.Regular (db : TopUpDb) : TopUpAction → Prop
  | .manualComplete _ tradeNo _ =>
    (db.orders.find tradeNo).all fun order => order.paymentProvider ≠ .creem
  | .updatePending _ _ _ target => target ≠ .success
  | _ => True

instance (db : TopUpDb) (a : TopUpAction) : Decidable (a.Regular db) := by
  unfold TopUpAction.Regular
  split <;> infer_instance

/-- What an action does. -/
inductive TopUpMove (quotaPerUnit : ℚ) (a : TopUpAction) (db : TopUpDb) : TopUpDb → Prop
  | idle : TopUpMove quotaPerUnit a db db
  | wallet {userId quota : Int} {users : Table TopUpUser.id} : a = .wallet userId quota →
      TopUpMove quotaPerUnit a db { db with users := users }
  | marked {env : TopUpEnv} {tradeNo : String} {expected : Option PaymentProvider}
      {order : TopUp} {target : TopUpStatus} : a = .updatePending env tradeNo expected target →
      db.orders.find order.tradeNo = some order → order.status = .pending →
      TopUpMove quotaPerUnit a db
        { db with orders := db.orders.save { order with status := target } }
  | completed {units : ℚ} {order order' : TopUp} {db' : TopUpDb} :
      Completed units order order' db db' →
      (providerUnits quotaPerUnit order = some units ∨
        ∃ env operatorRole, a = .manualComplete env order.tradeNo operatorRole ∧
          units = manualUnits quotaPerUnit order) →
      TopUpMove quotaPerUnit a db db'

section

variable {quotaPerUnit : ℚ} {db : TopUpDb} {a : TopUpAction}

theorem TopUpMove.commit {result : Except String (Bool × TopUpDb)}
    (h : ∀ done db', result = .ok (done, db') → TopUpMove quotaPerUnit a db db') :
    TopUpMove quotaPerUnit a db (db.commit result) := by
  cases result with
  | error err => exact .idle
  | ok value => exact h value.1 value.2 rfl

variable {env : TopUpEnv} {provider : PaymentProvider} {tradeNo : String} {done : Bool}
  {db' : TopUpDb}

theorem move_rechargeUnits {missing badStatus : String} {method : TopUp → TopUp}
    (hmethod : ∀ order : TopUp, order.Same (method order))
    (hunits : ∀ order : TopUp, order.paymentProvider = provider →
      providerUnits quotaPerUnit order = some (order.amount * quotaPerUnit))
    (h : rechargeUnits quotaPerUnit env provider missing badStatus method tradeNo db =
      .ok (done, db')) : TopUpMove quotaPerUnit a db db' := by
  obtain ⟨order, hlock, h⟩ := bind_ok.mp h
  obtain ⟨_, hprovider, h⟩ := bind_ok.mp h
  split at h
  · cases h
    exact .idle
  obtain ⟨_, hpending, h⟩ := bind_ok.mp h
  obtain ⟨quota, hquota, h⟩ := bind_ok.mp h
  obtain ⟨saved, hsave, h⟩ := bind_ok.mp h
  obtain ⟨credited, hcredit, h⟩ := bind_ok.mp h
  cases h
  exact .completed (completed_of (lockTopUp_ok hlock) (check_eq_ok hpending) (hmethod order) hquota
    hsave hcredit) (.inl (hunits order (of_decide_eq_true (check_eq_ok hprovider))))

theorem move_rechargeSaved {quotaOf : TopUp → ℚ} {updates : TopUp → Except String UserUpdates}
    (hunits : ∀ order : TopUp, order.paymentProvider = provider →
      providerUnits quotaPerUnit order = some (quotaOf order))
    (h : rechargeSaved env provider quotaOf updates tradeNo db = .ok (done, db')) :
    TopUpMove quotaPerUnit a db db' := by
  obtain ⟨order, hlock, h⟩ := bind_ok.mp h
  obtain ⟨_, hprovider, h⟩ := bind_ok.mp h
  obtain ⟨_, hpending, h⟩ := bind_ok.mp h
  obtain ⟨saved, hsave, h⟩ := bind_ok.mp h
  obtain ⟨quota, hquota, h⟩ := bind_ok.mp h
  obtain ⟨columns, _, h⟩ := bind_ok.mp h
  obtain ⟨credited, hcredit, h⟩ := bind_ok.mp h
  cases h
  exact .completed (completed_of (lockTopUp_ok hlock) (check_eq_ok hpending) (.refl order) hquota
    hsave hcredit) (.inl (hunits order (of_decide_eq_true (check_eq_ok hprovider))))

theorem topUpMove_step (a : TopUpAction) :
    TopUpMove quotaPerUnit a db (db.step quotaPerUnit a) := by
  cases a with
  | rechargeEpay env tradeNo method =>
    refine .commit ?_
    intro done db' hok
    unfold rechargeEpay at hok
    split at hok
    · cases hok
    · refine move_rechargeUnits ?_ (by intro order hp; simp [providerUnits, hp]) hok
      intro order
      split <;> exact ⟨rfl, rfl, rfl, rfl, rfl⟩
  | recharge env referenceId customerId | rechargeCreem env referenceId email =>
    refine .commit ?_
    intro done db' hok
    exact move_rechargeSaved (by intro order hp; simp [providerUnits, hp]) (callback_ok hok)
  | rechargeWaffo env tradeNo | rechargeWaffoPancake env tradeNo =>
    refine .commit ?_
    intro done db' hok
    exact move_rechargeUnits .refl (by intro order hp; simp [providerUnits, hp]) (callback_ok hok)
  | updatePending env tradeNo expected target =>
    refine .commit ?_
    intro done db' hok
    cases hupdate : updatePendingTopUpStatus env tradeNo expected target db with rw [hupdate] at hok
    | error err =>
      cases hok
    | ok db'' =>
      cases hok
      obtain ⟨order, hfind, hpending, rfl⟩ := updatePendingTopUpStatus_ok hupdate
      exact .marked rfl hfind hpending
  | manualComplete env tradeNo operatorRole =>
    refine .commit ?_
    intro done db' hok
    rcases manualCompleteTopUpForRole_ok hok with rfl | ⟨order, order', rfl, hcompleted⟩
    · exact .idle
    · exact .completed hcompleted (.inr ⟨env, operatorRole, rfl, rfl⟩)
  | wallet userId quota =>
    simp only [TopUpDb.step]
    split
    · exact .wallet rfl
    · exact .idle

/-- A manual completion multiplies out what the provider's callback does, except for
Creem. -/
theorem manualUnits_eq {order : TopUp} (hcreem : order.paymentProvider ≠ .creem)
    (hown : (providerUnits quotaPerUnit order).isSome) :
    providerUnits quotaPerUnit order = some (manualUnits quotaPerUnit order) := by
  unfold providerUnits manualUnits at *
  cases hp : order.paymentProvider with
  | creem => exact absurd hp hcreem
  | balance | unset => simp [hp] at hown
  | _ => simp

end

/-! ## The wallet -/

def TopUpDb.quotaOf (db : TopUpDb) (userId : Int) : Int :=
  match db.users.find userId with
  | some user => user.quota
  | none => 0

def TopUpDb.creditedTo (db : TopUpDb) (userId : Int) : Int :=
  (db.credits.map fun c => if c.userId = userId then c.quota else 0).sum

/-- The action is a transaction on the orders. -/
def TopUpAction.onOrders : TopUpAction → Bool
  | .wallet _ _ => false
  | _ => true

theorem quotaOf_step {quotaPerUnit : ℚ} {db : TopUpDb} {a : TopUpAction} (ha : a.onOrders = true)
    (userId : Int) :
    (db.step quotaPerUnit a).quotaOf userId - (db.step quotaPerUnit a).creditedTo userId =
      db.quotaOf userId - db.creditedTo userId := by
  have hmove : TopUpMove quotaPerUnit a db (db.step quotaPerUnit a) := topUpMove_step a
  generalize db.step quotaPerUnit a = db' at hmove ⊢
  cases hmove with
  | idle => rfl
  | wallet hw =>
    rw [hw] at ha
    cases ha
  | marked => rfl
  | @completed _ order _ _ hc =>
    obtain ⟨quota, user, updates, -, -, huser, -, husers, hcredits⟩ := hc.credit
    have hkey : user.id = order.userId := Table.find_key huser
    have hid : (user.credit quota updates).id = order.userId := hkey
    simp only [TopUpDb.quotaOf, TopUpDb.creditedTo, husers, hcredits, List.map_cons,
      List.sum_cons, Table.find_save, hid]
    by_cases hu : order.userId = userId
    · subst hu
      simp only [if_true, huser, Option.map_some, TopUpUser.credit]
      omega
    · simp [hu]

/-! ## Runs -/

def TopUpDb.creditsOf (db : TopUpDb) (tradeNo : String) : List TopUpCredit :=
  db.credits.filter fun c => c.tradeNo = tradeNo

/-- What holds of an order all the time: it is not successful and not credited, or it
is successful and credited with the quota of its provider. -/
inductive Watched (quotaPerUnit : ℚ) (first : TopUp) (db : TopUpDb) : Prop
  | uncredited {order : TopUp} : db.orders.find first.tradeNo = some order → first.Same order →
      order.status ≠ .success → db.creditsOf first.tradeNo = [] → Watched quotaPerUnit first db
  | credited {order : TopUp} {c : TopUpCredit} : db.orders.find first.tradeNo = some order →
      first.Same order → order.status = .success → db.creditsOf first.tradeNo = [c] →
      c.userId = first.userId → providerQuota quotaPerUnit first = some c.quota →
      c.after ≤ maxWalletQuota → Watched quotaPerUnit first db

section

variable {quotaPerUnit : ℚ} {first : TopUp} {db db' : TopUpDb}

theorem Watched.of_same (h : Watched quotaPerUnit first db)
    (horders : db'.orders.find first.tradeNo = db.orders.find first.tradeNo)
    (hcredits : db'.creditsOf first.tradeNo = db.creditsOf first.tradeNo) :
    Watched quotaPerUnit first db' := by
  cases h with
  | uncredited hfind hsame hstatus hnone =>
    exact .uncredited (horders.trans hfind) hsame hstatus (hcredits.trans hnone)
  | credited hfind hsame hstatus hone huser hquota hmax =>
    exact .credited (horders.trans hfind) hsame hstatus (hcredits.trans hone) huser hquota hmax

variable {order : TopUp}

theorem Watched.pending (h : Watched quotaPerUnit first db)
    (hfind : db.orders.find first.tradeNo = some order) (hpending : order.status = .pending) :
    first.Same order ∧ db.creditsOf first.tradeNo = [] := by
  cases h with obtain rfl := Option.some.inj (hfind.symm.trans hfind')
  | uncredited hfind' hsame _ hnone =>
    exact ⟨hsame, hnone⟩
  | credited hfind' _ hstatus _ _ _ _ =>
    cases hpending.symm.trans hstatus

theorem providerUnits_of_same (h : first.Same order) :
    providerUnits quotaPerUnit order = providerUnits quotaPerUnit first := by
  simp only [providerUnits, h.paymentProvider, h.amount, h.money]

theorem Watched.completed {units : ℚ} {order' : TopUp} (h : Watched quotaPerUnit first db)
    (hc : Completed units order order' db db')
    (hunits : first.Same order → providerUnits quotaPerUnit order = some units)
    (htrade : order.tradeNo = first.tradeNo) : Watched quotaPerUnit first db' := by
  obtain ⟨hsame, hnone⟩ := h.pending (htrade ▸ hc.find) hc.pending
  have hown := (providerUnits_of_same hsame).symm.trans (hunits hsame)
  obtain ⟨quota, user, updates, hquota, -, huser, hmax, husers, hcredits⟩ := hc.credit
  have hfind : db'.orders.find first.tradeNo = some order' := by
    rw [hc.orders, ← htrade, ← hc.same.tradeNo]
    exact Table.find_save_self (by rw [hc.same.tradeNo]; exact hc.find)
  have hone : db'.creditsOf first.tradeNo =
      [⟨order.tradeNo, order.userId, quota, user.quota + quota⟩] := by
    rw [TopUpDb.creditsOf] at hnone ⊢
    simp [hcredits, htrade, hnone]
  refine .credited hfind (hsame.trans hc.same) hc.success hone hsame.userId ?_ hmax
  simp [providerQuota, hown, hquota, Except.toOption]

theorem Watched.step (hown : (providerUnits quotaPerUnit first).isSome)
    (h : Watched quotaPerUnit first db) {a : TopUpAction} (hregular : a.Regular db) :
    Watched quotaPerUnit first (db.step quotaPerUnit a) := by
  have hmove : TopUpMove quotaPerUnit a db (db.step quotaPerUnit a) := topUpMove_step a
  generalize db.step quotaPerUnit a = db' at hmove ⊢
  cases hmove with
  | idle => exact h
  | wallet => exact h.of_same rfl rfl
  | @marked _ _ _ order target ha hfind hpending =>
    have htarget : target ≠ .success := by
      rw [ha] at hregular
      exact hregular
    by_cases htrade : order.tradeNo = first.tradeNo
    · obtain ⟨hfirst, hnone⟩ := h.pending (htrade ▸ hfind) hpending
      obtain ⟨ht, hu, ha, hm, hp⟩ := hfirst
      refine @Watched.uncredited quotaPerUnit first _ { order with status := target } ?_
        ⟨ht, hu, ha, hm, hp⟩ htarget hnone
      rw [← htrade]
      exact Table.find_save_self (r := { order with status := target }) hfind
    · exact h.of_same (Table.find_save_of_ne htrade) rfl
  | @completed units order order' _ hc hunits =>
    by_cases htrade : order.tradeNo = first.tradeNo
    · refine h.completed hc ?_ htrade
      intro hsame
      rcases hunits with hprovider | ⟨env, operatorRole, ha, rfl⟩
      · exact hprovider
      · refine manualUnits_eq ?_ (by rw [providerUnits_of_same hsame]; exact hown)
        rw [ha] at hregular
        simpa [TopUpAction.Regular, hc.find] using hregular
    · obtain ⟨quota, user, updates, -, -, -, -, -, hcredits⟩ := hc.credit
      refine h.of_same ?_ ?_
      · rw [hc.orders]
        exact Table.find_save_of_ne (by rw [hc.same.tradeNo]; exact htrade)
      · rw [TopUpDb.creditsOf, hcredits]
        simp [TopUpDb.creditsOf, htrade]

end

/-- For a pending order of a provider with a callback, in every run of regular
actions: the wallets change by the credits, the order has at most one credit, it has
one exactly when it is successful, and then its owner was credited with the quota the
provider's callback computes, up to the largest wallet quota. -/
theorem topUp_credited_once {quotaPerUnit : ℚ} {db : TopUpDb} {first : TopUp}
    (hown : (providerUnits quotaPerUnit first).isSome)
    (hfind : db.orders.find first.tradeNo = some first) (hpending : first.status = .pending)
    (hnone : db.creditsOf first.tradeNo = []) {as : List TopUpAction}
    (hregular : Along (TopUpDb.step quotaPerUnit) (fun db a => a.Regular db) db as) :
    Along (TopUpDb.step quotaPerUnit) (fun db a => a.onOrders = true → ∀ userId,
        (db.step quotaPerUnit a).quotaOf userId - (db.step quotaPerUnit a).creditedTo userId =
          db.quotaOf userId - db.creditedTo userId) db as ∧
      ∃ order, (run (TopUpDb.step quotaPerUnit) db as).orders.find first.tradeNo = some order ∧
        ((run (TopUpDb.step quotaPerUnit) db as).creditsOf first.tradeNo).length ≤ 1 ∧
        (order.status = .success ↔
          (run (TopUpDb.step quotaPerUnit) db as).creditsOf first.tradeNo ≠ []) ∧
        ∀ c ∈ (run (TopUpDb.step quotaPerUnit) db as).creditsOf first.tradeNo,
          c.userId = first.userId ∧ providerQuota quotaPerUnit first = some c.quota ∧
            c.after ≤ maxWalletQuota := by
  refine ⟨along_of_forall (fun _ _ ha => quotaOf_step ha) db as, ?_⟩
  have hstart : Watched quotaPerUnit first db :=
    .uncredited hfind (.refl first) (by rw [hpending]; decide) hnone
  have hend : Watched quotaPerUnit first (run (TopUpDb.step quotaPerUnit) db as) :=
    run_invariant (fun _ _ h hr => h.step hown hr) hstart hregular
  cases hend with refine ⟨order, hfound, ?_⟩
  | @uncredited order hfound _ hstatus hcredits =>
    simp [hcredits, hstatus]
  | @credited order c hfound _ hstatus hcredits huser hquota hmax =>
    simp [hcredits, hstatus, huser, hquota, hmax]

/-- A pending order of 500000 of a user without quota. -/
def pendingOrder (provider : PaymentProvider) : TopUp :=
  ⟨"ref", 7, 500000, 1, "", provider, 0, .pending⟩

def pendingDb (provider : PaymentProvider) : TopUpDb :=
  ⟨⟨[pendingOrder provider], by simp⟩, ⟨[⟨7, 1, 0, "", ""⟩], by simp⟩, []⟩

/-- A manual completion between callbacks, one of them of another provider. -/
def regularTopUps : List TopUpAction :=
  [.rechargeWaffo ⟨1, none⟩ "ref", .manualComplete ⟨2, none⟩ "ref" roleRootUser,
    .recharge ⟨3, none⟩ "ref" "customer", .updatePending ⟨4, none⟩ "ref" (some .stripe) .expired]

theorem topUp_credited_once_stripe :
    (run (TopUpDb.step 500000) (pendingDb .stripe) regularTopUps).credits =
        [⟨"ref", 7, 500000, 500000⟩] ∧
      ∃ order, (run (TopUpDb.step 500000) (pendingDb .stripe) regularTopUps).orders.find "ref" =
          some order ∧
        ((run (TopUpDb.step 500000) (pendingDb .stripe) regularTopUps).creditsOf "ref").length ≤ 1 ∧
        (order.status = .success ↔
          (run (TopUpDb.step 500000) (pendingDb .stripe) regularTopUps).creditsOf "ref" ≠ []) ∧
        ∀ c ∈ (run (TopUpDb.step 500000) (pendingDb .stripe) regularTopUps).creditsOf "ref",
          c.userId = 7 ∧ providerQuota 500000 (pendingOrder .stripe) = some c.quota ∧
            c.after ≤ maxWalletQuota :=
  ⟨by decide +kernel, (@topUp_credited_once 500000 (pendingDb .stripe) (pendingOrder .stripe)
    (by decide +kernel) (by decide +kernel) rfl rfl regularTopUps (by decide +kernel)).2⟩

/-- A manual completion of a Creem order credits 500000 times what the callback
does. -/
theorem creem_manual_credit :
    ((pendingDb .creem).step 500000 (.rechargeCreem ⟨1, none⟩ "ref" "")).credits =
        [⟨"ref", 7, 500000, 500000⟩] ∧
      ((pendingDb .creem).step 500000 (.manualComplete ⟨1, none⟩ "ref" roleRootUser)).credits =
        [⟨"ref", 7, 250000000000, 250000000000⟩] := by
  decide +kernel

end NewApi
