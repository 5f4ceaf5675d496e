import NewApi.App.Changes
import NewApi.Lib.Runs

/-!
# The ledger of executions

Whatever the order of the calls, their arguments and the transactions that are rolled back
or repeated, the wallet and the subscriptions have paid exactly the charges of the
executions, and the counters hold exactly what was settled. An execution is charged its
reservation until it is settled and its final quota from then on.
-/

namespace NewApi.App

open Runs

/-- What an execution has taken from its funding. -/
def Execution.charge (e : Execution) : Int :=
  if e.billingState = .settled then e.finalQuota else e.reservedQuota

/-- What an execution adds to the counters. -/
def Execution.spent (e : Execution) : Int := if e.billingState = .settled then e.finalQuota else 0

def Execution.walletCharge (e : Execution) : Int :=
  if e.fundingSource = .wallet then e.charge else 0

def Execution.subscriptionCharge (id : Int) (e : Execution) : Int :=
  if e.fundingSource = .subscription ∧ e.subscriptionID = id then e.charge else 0

def Execution.spentAt (channelID : Int) (e : Execution) : Int :=
  if e.selection.channelID = channelID then e.spent else 0

/-- The sum over the executions. -/
def Db.total (db : Db) (f : Execution → Int) : Int := (db.executions.rows.map f).sum

/-- The tables before the first execution. -/
def Db.start (mode : QuotaMode) (user : User) (subscriptions : Table Subscription.id)
    (plans : Table SubscriptionPlan.id) (channels : Table Channel.id)
    (grants : Table Grant.grantID) : Db where
  mode := mode
  user := user
  subscriptions := subscriptions
  plans := plans
  channels := channels
  grants := grants
  executions := .empty
  nextID := 1
  leases := .empty
  tasks := .empty
  settlements := .empty
  outbox := .empty
  results := .empty

/-- The funding and the counters agree with the executions since the start. -/
structure Balanced (start db : Db) : Prop where
  wallet : db.user.quota = start.user.quota - db.total Execution.walletCharge
  subscriptions : ∀ id, (db.subscriptions.find id).map Subscription.amountUsed =
    (start.subscriptions.find id).map fun sub =>
      sub.amountUsed + db.total (Execution.subscriptionCharge id)
  used : db.user.usedQuota = start.user.usedQuota + db.total Execution.spent
  channels : ∀ id, (db.channels.find id).map Channel.usedQuota =
    (start.channels.find id).map fun c => c.usedQuota + db.total (Execution.spentAt id)

/-- And the settled executions are those with one marker and one outbox row. -/
structure Ledger (start db : Db) : Prop extends Balanced start db where
  settled : ∀ e ∈ db.executions.rows, e.billingState = .settled ↔
    db.settlements.rows.countP (fun m => m.executionID = e.id) = 1 ∧
      db.outbox.rows.countP (fun o => o.executionID = e.id) = 1

/-- The markers and the outbox are those of the settled executions. -/
structure Marked (db : Db) : Prop where
  ids : ∀ e ∈ db.executions.rows, e.id < db.nextID
  settlements : ∀ id, (db.settlements.find id).isSome ↔
    ∃ e, db.executions.find id = some e ∧ e.billingState = .settled
  outbox : ∀ id, (db.outbox.find id).isSome ↔ (db.settlements.find id).isSome

variable {start db db' paid : Db} {e e' : Execution} {amount : Int}

/-! ## Sums over the executions -/

theorem total_save (f : Execution → Int) (hfind : db.executions.find e.id = some e)
    (hclaimed : e'.toClaimed = e.toClaimed) :
    ((db.executions.save e').rows.map f).sum = db.total f - f e + f e' :=
  Table.sum_save f (show db.executions.find e'.id = some e by rw [hclaimed]; exact hfind)

theorem total_insert (f : Execution → Int) {executions : Table Execution.key}
    (h : db.executions.insert e = some executions) :
    (executions.rows.map f).sum = f e + db.total f := by
  rw [Table.rows_insert h, List.map_cons, List.sum_cons, Db.total]

/-- A payment moves the funding that the charge of the execution is counted at. -/
theorem Paid.moves (h : Paid db e amount paid) :
    paid.user.quota = db.user.quota - (if e.fundingSource = .wallet then amount else 0) ∧
      ∀ id, (paid.subscriptions.find id).map Subscription.amountUsed =
        (db.subscriptions.find id).map fun sub => sub.amountUsed +
          if e.fundingSource = .subscription ∧ e.subscriptionID = id then amount else 0 := by
  cases h with
  | wallet hsource => simp [Db.takeWallet, hsource]
  | @subscription sub hsource hfind =>
    refine ⟨by simp [Db.takeSubscription, hsource], fun id => ?_⟩
    have hid : sub.id = e.subscriptionID := Table.find_key hfind
    simp only [Db.takeSubscription, Table.find_save, hsource, hid, true_and]
    by_cases h : e.subscriptionID = id
    · subst h
      simp [hfind]
    · simp [h]

theorem channels_save {channel : Channel}
    (hfind : db.channels.find e.selection.channelID = some channel) (final : Int) (id : Int) :
    ((db.channels.save { channel with usedQuota := channel.usedQuota + final }).find id).map
        Channel.usedQuota =
      (db.channels.find id).map fun c =>
        c.usedQuota + if e.selection.channelID = id then final else 0 := by
  have hid : channel.id = e.selection.channelID := Table.find_key hfind
  rw [Table.find_save]
  by_cases h : e.selection.channelID = id
  · subst h
    simp [hid, hfind]
  · simp [hid, h]

theorem map_shift {α : Type} {found other : Option α} {value : α → Int} {a : Int} (b : Int)
    (h : found.map value = other.map fun x => value x + a) :
    (found.map fun x => value x + b) = other.map fun x => value x + (a + b) := by
  cases found with
  | none => cases other with
    | none => rfl
    | some y => cases h
  | some x => cases other with
    | none => cases h
    | some y =>
      simp only [Option.map_some, Option.some.injEq] at h ⊢
      omega

/-- The four sums move by what the charge and the spending of one execution move by. -/
structure Moves (db db' : Db) (e : Execution) (charge spent : Int) : Prop where
  wallet : db'.total Execution.walletCharge =
    db.total Execution.walletCharge + if e.fundingSource = .wallet then charge else 0
  subscription : ∀ id, db'.total (Execution.subscriptionCharge id) =
    db.total (Execution.subscriptionCharge id) +
      if e.fundingSource = .subscription ∧ e.subscriptionID = id then charge else 0
  used : db'.total Execution.spent = db.total Execution.spent + spent
  channel : ∀ id, db'.total (Execution.spentAt id) =
    db.total (Execution.spentAt id) + if e.selection.channelID = id then spent else 0

theorem moves_save (db' : Db) (hfind : db.executions.find e.id = some e)
    (hclaimed : e'.toClaimed = e.toClaimed) (h : db'.executions = db.executions.save e') :
    Moves db db' e (e'.charge - e.charge) (e'.spent - e.spent) := by
  have htotal : ∀ f, db'.total f = db.total f - f e + f e' := by
    intro f
    rw [Db.total, h]
    exact total_save f hfind hclaimed
  refine ⟨?_, fun id => ?_, ?_, fun id => ?_⟩
  all_goals rw [htotal]
  · simp only [Execution.walletCharge, hclaimed]
    split <;> omega
  · simp only [Execution.subscriptionCharge, hclaimed]
    split <;> omega
  · omega
  · simp only [Execution.spentAt, hclaimed]
    split <;> omega

theorem moves_insert (db' : Db) (h : db.executions.insert e = some db'.executions) :
    Moves db db' e e.charge e.spent := by
  have htotal : ∀ f, db'.total f = f e + db.total f := fun f => total_insert f h
  refine ⟨?_, fun id => ?_, ?_, fun id => ?_⟩
  all_goals
    rw [htotal]
    exact Int.add_comm _ _

/-- A payment of what the charge moves by and counters that take what the spending moves
by keep the balance. -/
theorem Balanced.moved (h : Balanced start db) {charge spent : Int}
    (hm : Moves db db' e charge spent)
    (hpaid : Paid db e charge paid) (hquota : db'.user.quota = paid.user.quota)
    (hsubscriptions : db'.subscriptions = paid.subscriptions)
    (hused : db'.user.usedQuota = db.user.usedQuota + spent)
    (hchannels : ∀ id, (db'.channels.find id).map Channel.usedQuota = (db.channels.find id).map
      fun c => c.usedQuota + if e.selection.channelID = id then spent else 0) :
    Balanced start db' := by
  refine ⟨?_, fun id => ?_, ?_, fun id => ?_⟩
  · rw [hquota, hpaid.moves.1, h.wallet, hm.wallet]
    omega
  · rw [hsubscriptions, hpaid.moves.2, hm.subscription]
    exact map_shift _ (h.subscriptions id)
  · rw [hused, h.used, hm.used]
    omega
  · rw [hchannels, hm.channel]
    exact map_shift _ (h.channels id)

theorem Marked.not_settled (h : Marked db) (hfind : db.executions.find e.id = some e)
    (hopen : db.settlements.find e.id = none) : e.billingState ≠ .settled := by
  intro hsettled
  have hsome := (h.settlements e.id).mpr ⟨e, hfind, hsettled⟩
  rw [hopen] at hsome
  cases hsome

theorem Balanced.change (h : Balanced start db) (hm : Marked db) (hc : Change db db') :
    Balanced start db' := by
  cases hc with
  | aside leases tasks => exact ⟨h.wallet, h.subscriptions, h.used, h.channels⟩
  | facts e e' leases tasks hfind hclaimed hstatus hbilling =>
    have hsame : e'.charge = e.charge ∧ e'.spent = e.spent := by
      rcases hbilling with ⟨hstate, hfinal⟩ | ⟨hpending, hopen⟩
      · simp only [Execution.charge, Execution.spent, hstate, hfinal, hclaimed, true_and]
      · have hnot := hm.not_settled hfind hopen
        simp [Execution.charge, Execution.spent, hpending, hnot, hclaimed]
    have hmoves := moves_save { db with
      executions := db.executions.save e', leases := leases, tasks := tasks } hfind hclaimed rfl
    rw [hsame.1, hsame.2, Int.sub_self, Int.sub_self] at hmoves
    refine ⟨?_, fun id => ?_, ?_, fun id => ?_⟩
    · rw [hmoves.wallet, ite_self, Int.add_zero]
      exact h.wallet
    · rw [hmoves.subscription, ite_self, Int.add_zero]
      exact h.subscriptions id
    · rw [hmoves.used, Int.add_zero]
      exact h.used
    · rw [hmoves.channel, ite_self, Int.add_zero]
      exact h.channels id
  | claim grant e paid executions leases hpaid hfresh hinsert =>
    have hcharge : e.charge = e.reservedQuota ∧ e.spent = 0 := by
      simp [Execution.charge, Execution.spent, hfresh.billing]
    have hmoves := moves_insert { paid with
      executions := executions, leases := leases, nextID := db.nextID + 1 } hinsert
    rw [hcharge.1, hcharge.2] at hmoves
    refine h.moved hmoves hpaid rfl rfl ?_ fun id => ?_
    · cases hpaid <;> exact (Int.add_zero _).symm
    · cases hpaid <;> simp [Db.takeWallet, Db.takeSubscription]
  | settle e e' paid db' hfind hclaimed hopen hbilling hpaid hclosed hresults =>
    have hnot := hm.not_settled hfind hopen
    have hcharge : e'.charge - e.charge = e'.finalQuota - e.reservedQuota ∧
        e'.spent - e.spent = e'.finalQuota := by
      simp [Execution.charge, Execution.spent, hbilling, hnot]
    have hmoves := moves_save db' hfind hclaimed hclosed.executions
    rw [hcharge.1, hcharge.2] at hmoves
    obtain ⟨channel, hchannel, hsaved⟩ := hclosed.channel
    refine h.moved hmoves hpaid hclosed.quota hclosed.subscriptions hclosed.used fun id => ?_
    rw [hsaved]
    exact channels_save hchannel _ id

/-! ## Markers -/

theorem settled_save (hfind : db.executions.find e.id = some e)
    (hclaimed : e'.toClaimed = e.toClaimed) (id : Nat) :
    (∃ x, (db.executions.save e').find id = some x ∧ x.billingState = .settled) ↔
      if e.id = id then e'.billingState = .settled
      else ∃ x, db.executions.find id = some x ∧ x.billingState = .settled := by
  have hkey : e'.key = e.id := by rw [Execution.key, hclaimed]
  rw [Table.find_save_at hfind hkey]
  by_cases h : e.id = id <;> simp [h]

theorem ids_save (h : ∀ x ∈ db.executions.rows, x.id < db.nextID)
    (hfind : db.executions.find e.id = some e) (hclaimed : e'.toClaimed = e.toClaimed) :
    ∀ x ∈ (db.executions.save e').rows, x.id < db.nextID := by
  refine Table.forall_save ?_ fun x hold _ => h x hold
  rw [hclaimed]
  exact h e (Table.find_mem hfind)

theorem Marked.change (h : Marked db) (hc : Change db db') : Marked db' := by
  cases hc with
  | aside leases tasks => exact ⟨h.ids, h.settlements, h.outbox⟩
  | facts e e' leases tasks hfind hclaimed hstatus hbilling =>
    refine ⟨ids_save h.ids hfind hclaimed, fun id => ?_, h.outbox⟩
    rw [settled_save hfind hclaimed, h.settlements id]
    split
    next hid =>
      subst hid
      rcases hbilling with ⟨hstate, -⟩ | ⟨hpending, hopen⟩
      · simp [hfind, hstate]
      · simp [hfind, hpending, h.not_settled hfind hopen]
    · exact Iff.rfl
  | claim grant e paid executions leases hpaid hfresh hinsert =>
    have htables : paid.settlements = db.settlements ∧ paid.outbox = db.outbox := by
      cases hpaid <;> exact ⟨rfl, rfl⟩
    refine ⟨?_, fun id => ?_, fun id => ?_⟩
    · refine Table.forall_insert hinsert (hfresh.id ▸ Nat.lt_succ_self _) ?_
      exact fun x hold => Nat.lt_succ_of_lt (h.ids x hold)
    · simp only [htables.1, h.settlements id, Table.find_insert hinsert]
      split
      next hid =>
        -- no row has the new id yet
        have hnone : db.executions.find id = none := by
          rw [← hid]
          exact Table.find_of_insert hinsert
        simp [hnone, hfresh.billing]
      · exact Iff.rfl
    · simp only [htables.1, htables.2]
      exact h.outbox id
  | settle e e' paid db' hfind hclaimed hopen hbilling hpaid hclosed hresults =>
    obtain ⟨m, hm, hsettlements⟩ := hclosed.settlements
    obtain ⟨o, ho, houtbox⟩ := hclosed.outbox
    refine ⟨?_, fun id => ?_, fun id => ?_⟩
    · rw [hclosed.executions, hclosed.nextID]
      exact ids_save h.ids hfind hclaimed
    · rw [hclosed.executions, settled_save hfind hclaimed, Table.find_insert hsettlements, hm]
      split
      · simp [hbilling]
      · exact h.settlements id
    · rw [Table.find_insert hsettlements, Table.find_insert houtbox, hm, ho]
      split
      · simp
      · exact h.outbox id

theorem Marked.settled (h : Marked db) (he : e ∈ db.executions.rows) :
    e.billingState = .settled ↔ db.settlements.rows.countP (fun m => m.executionID = e.id) = 1 ∧
      db.outbox.rows.countP (fun o => o.executionID = e.id) = 1 := by
  have hfind : db.executions.find e.id = some e := Table.find_of_mem he
  have hiff := h.settlements e.id
  have hout := h.outbox e.id
  rw [Table.countP_key, Table.countP_key]
  constructor
  · intro hsettled
    have hsome := hiff.mpr ⟨e, hfind, hsettled⟩
    simp [hsome, hout.mpr hsome]
  · rintro ⟨hone, -⟩
    have hsome : (db.settlements.find e.id).isSome := by
      by_contra hnone
      simp [hnone] at hone
    obtain ⟨x, hx, hsettled⟩ := hiff.mp hsome
    cases hfind.symm.trans hx
    exact hsettled

/-! ## Every run -/

section

variable (mode : QuotaMode) (user : User) (subscriptions : Table Subscription.id)
  (plans : Table SubscriptionPlan.id) (channels : Table Channel.id) (grants : Table Grant.grantID)

theorem balanced_start : Balanced (.start mode user subscriptions plans channels grants)
    (.start mode user subscriptions plans channels grants) := by
  constructor <;> simp [Db.total, Db.start, Table.empty]

theorem marked_start : Marked (.start mode user subscriptions plans channels grants) := by
  constructor <;> simp [Db.start, Table.empty, Table.find]

/-- After every run of attempts the books agree with the executions. -/
theorem ledger_run (as : List Attempt) :
    Ledger (.start mode user subscriptions plans channels grants)
      (run Db.attempt (.start mode user subscriptions plans channels grants) as) := by
  have h := run_invariant_of_step
    (I := fun db => Balanced (.start mode user subscriptions plans channels grants) db ∧ Marked db)
    (fun db a h => ⟨h.1.change h.2 (attempt_change db a), h.2.change (attempt_change db a)⟩)
    as ⟨balanced_start mode user subscriptions plans channels grants,
      marked_start mode user subscriptions plans channels grants⟩
  exact ⟨h.1, fun e he => h.2.settled he⟩

end

end NewApi.App
