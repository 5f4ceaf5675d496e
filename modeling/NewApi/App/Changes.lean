import NewApi.App.Settlement

/-!
# What a transaction on the executions can change

`Change` lists what a committed call does to the tables: it touches leases and
projections only, it records facts about an execution, it claims a new execution and
reserves its quota, or it settles one. `change_of_perform` derives it for every call, and
the invariants of the ledger and of the dispatch are proved for the four changes.
-/

namespace NewApi.App

open Checked

variable {db db' : Db} {e : Execution} {amount now : Int}

/-- An amount was taken from the funding of an execution. -/
inductive Paid (db : Db) (e : Execution) (amount : Int) : Db → Prop
  | wallet (hsource : e.fundingSource = .wallet) : Paid db e amount (db.takeWallet amount)
  | subscription {sub : Subscription} (hsource : e.fundingSource = .subscription)
      (hfind : db.subscriptions.find e.subscriptionID = some sub) :
      Paid db e amount (db.takeSubscription sub amount)

/-- The status of a response that has its result. -/
def Status.isFinal (s : Status) : Prop := s = .captured ∨ s = .rejected

instance Status.decidableFinal (s : Status) : Decidable s.isFinal :=
  inferInstanceAs (Decidable (s = .captured ∨ s = .rejected))

/-- The tables after a settlement with the new row, on the tables that paid. -/
structure Closed (db paid : Db) (e e' : Execution) (db' : Db) : Prop where
  channel : ∃ channel, db.channels.find e.selection.channelID = some channel ∧
    db'.channels = db.channels.save { channel with usedQuota := channel.usedQuota + e'.finalQuota }
  settlements : ∃ m, m.executionID = e.id ∧ db.settlements.insert m = some db'.settlements
  outbox : ∃ o, o.executionID = e.id ∧ db.outbox.insert o = some db'.outbox
  quota : db'.user.quota = paid.user.quota
  used : db'.user.usedQuota = db.user.usedQuota + e'.finalQuota
  subscriptions : db'.subscriptions = paid.subscriptions
  executions : db'.executions = db.executions.save e'
  nextID : db'.nextID = db.nextID
  grants : db'.grants = db.grants

/-- The row of a fresh claim. -/
structure Fresh (db : Db) (grant : Grant) (e : Execution) : Prop where
  found : db.grants.find e.grantID = some grant
  logical : e.logical = grant.scope.logical
  id : e.id = db.nextID
  billing : e.billingState = .reserved
  status : ¬ e.status.isFinal
  unique : ∀ x ∈ db.executions.rows, x.logical ≠ e.logical ∧ x.grantID ≠ e.grantID

/-- What a committed call does to the tables. -/
inductive Change (db : Db) : Db → Prop
  | aside (leases : Table Lease.executionID) (tasks : Table Projection.taskID) :
      Change db { db with leases, tasks }
  | facts (e e' : Execution) (leases : Table Lease.executionID) (tasks : Table Projection.taskID)
      (hfind : db.executions.find e.id = some e) (hclaimed : e'.toClaimed = e.toClaimed)
      (hstatus : e'.status.isFinal → e.status.isFinal)
      (hbilling : (e'.billingState = e.billingState ∧ e'.finalQuota = e.finalQuota) ∨
        (e'.billingState = .settlementPending ∧ db.settlements.find e.id = none)) :
      Change db { db with executions := db.executions.save e', leases, tasks }
  | claim (grant : Grant) (e : Execution) (paid : Db) (executions : Table Execution.key)
      (leases : Table Lease.executionID) (hpaid : Paid db e e.reservedQuota paid)
      (hfresh : Fresh db grant e) (hinsert : db.executions.insert e = some executions) :
      Change db { paid with executions, leases, nextID := db.nextID + 1 }
  | settle (e e' : Execution) (paid db' : Db) (hfind : db.executions.find e.id = some e)
      (hclaimed : e'.toClaimed = e.toClaimed) (hopen : db.settlements.find e.id = none)
      (hbilling : e'.billingState = .settled)
      (hpaid : Paid db e (e'.finalQuota - e.reservedQuota) paid) (hclosed : Closed db paid e e' db')
      (hresults : (db'.results = db.results ∧ (e'.status.isFinal → e.status.isFinal)) ∨
        ∃ r, r.executionID = e.id ∧ db.results.insert r = some db'.results) : Change db db'

variable {id : Nat} {sub : Option Subscription} {grant : Grant} {r : Request} {taskID : String}

theorem find_own (h : db.executions.find id = some e) : db.executions.find e.id = some e := by
  have hid : e.key = id := Table.find_key h
  rw [← Execution.key, hid]
  exact h

theorem Change.refl (db : Db) : Change db db := .aside db.leases db.tasks

/-! ## Funding -/

theorem subscriptionOf_some {id userID : Int} {sub : Subscription}
    (h : db.subscriptionOf id userID = some sub) : db.subscriptions.find id = some sub := by
  simp only [Db.subscriptionOf, Option.filter_eq_some_iff] at h
  exact h.1

variable {funding : Funding} {kind : Kind} {hash grantID : String} {won settled : Bool}
  {lease : Lease}

/-- A reservation is taken from the funding of the grant. -/
theorem reserve_source (h : reserveAppExecutionFunding db grant amount now = .ok (funding, db')) :
    (grant.fundingSource = .wallet ∧ db' = db.takeWallet amount) ∨
      (grant.fundingSource = .subscription ∧ ∃ sub,
        db.subscriptions.find funding.subscriptionID = some sub ∧
        db' = db.takeSubscription sub amount) := by
  simp only [reserveAppExecutionFunding, bind_ok, found_ok, refuse_ok, exists_const] at h
  obtain ⟨snapshot, -, hvalid, -, -, h⟩ := h
  have hsame : snapshot.source = grant.fundingSource := by
    by_contra hne
    exact hvalid (.inr (.inr (.inl hne)))
  split at h
  next hwallet =>
    simp only [bind_ok, refuse_ok, exists_const] at h
    obtain ⟨-, -, h⟩ := h
    cases h
    exact .inl ⟨hsame.symm.trans hwallet, rfl⟩
  next hsubscription =>
    simp only [bind_ok, found_ok, refuse_ok, exists_const] at h
    obtain ⟨sub, hfind, -, -, -, -, h⟩ := h
    cases h
    exact .inr ⟨hsame.symm.trans hsubscription, sub, subscriptionOf_some hfind, rfl⟩
  · cases h

theorem reserve_ok (h : reserveAppExecutionFunding db grant amount now = .ok (funding, db'))
    (hsource : e.fundingSource = grant.fundingSource)
    (hsub : e.subscriptionID = funding.subscriptionID) : Paid db e amount db' := by
  rcases reserve_source h with ⟨hwallet, rfl⟩ | ⟨hsubscription, sub, hfind, rfl⟩
  · exact .wallet (hsource.trans hwallet)
  · exact .subscription (hsource.trans hsubscription) (hsub ▸ hfind)

theorem lock_ok (h : lockAppTaskFunding db e = .ok sub) :
    (e.fundingSource = .wallet ∧ sub = none) ∨ (e.fundingSource = .subscription ∧
      ∃ s, sub = some s ∧ db.subscriptions.find e.subscriptionID = some s) := by
  simp only [lockAppTaskFunding, bind_ok, refuse_ok, exists_const] at h
  obtain ⟨-, h⟩ := h
  split at h
  next hwallet =>
    cases h
    exact .inl ⟨hwallet, rfl⟩
  next hsubscription =>
    simp only [bind_ok, found_ok, refuse_ok, exists_const] at h
    obtain ⟨-, s, hfind, h⟩ := h
    cases h
    exact .inr ⟨hsubscription, s, rfl, subscriptionOf_some hfind⟩
  · cases h

/-- A settlement pays what the reservation does not cover. -/
theorem settle_ok {final : Int} (hlock : lockAppTaskFunding db e = .ok sub)
    (h : settleAppTaskFunding db e sub final = some db') :
    Paid db e (final - e.reservedQuota) db' := by
  unfold settleAppTaskFunding at h
  split at h
  · rcases lock_ok hlock with ⟨hsource, rfl⟩ | ⟨hsource, s, rfl, hfind⟩ <;> simp only [hsource] at h
    · cases h
      exact .wallet hsource
    · cases h
      exact .subscription hsource hfind
  · cases h

/-! ## Claims -/

/-- A claim that dispatches: it paid the reservation and created the row. -/
def Wins (db : Db) (grant : Grant) (kind : Kind) (hash : String) (e : Execution) (db' : Db) :
    Prop :=
  ∃ paid executions leases, Paid db e e.reservedQuota paid ∧ Fresh db grant e ∧
    db.executions.insert e = some executions ∧
    db' = { paid with executions, leases, nextID := db.nextID + 1 } ∧
    e.kind = kind ∧ e.grantID = grant.grantID ∧ e.submissionHash = hash

theorem Wins.change (h : Wins db grant kind hash e db') : Change db db' := by
  obtain ⟨paid, executions, leases, hpaid, hfresh, hinsert, rfl, -⟩ := h
  exact .claim grant e paid executions leases hpaid hfresh hinsert

/-- A dispatch pays the reservation and creates the row. -/
theorem dispatch_ok {selection : Selection} {model : ExecutionModel}
    (hgrant : db.grants.find grant.grantID = some grant)
    (h : dispatch db kind grant r selection model taskID now = .ok (e, db'))
    (leases : Table Lease.executionID) :
    Wins db grant kind r.submissionHash e { db' with leases } := by
  simp only [dispatch, Db.createExecution, bind_ok, found_ok, refuse_ok, exists_const] at h
  obtain ⟨⟨funding, paid⟩, hreserve, hunique, executions, hinsert, h⟩ := h
  cases h
  have hsame : paid.executions = db.executions ∧ paid.nextID = db.nextID := by
    rcases reserve_source hreserve with ⟨-, rfl⟩ | ⟨-, sub, -, rfl⟩ <;> exact ⟨rfl, rfl⟩
  rw [hsame.1, hsame.2] at hinsert
  rw [hsame.1] at hunique
  refine ⟨paid, executions, leases, reserve_ok hreserve rfl rfl, ?_, ?_, ?_, rfl, rfl, rfl⟩
  · refine ⟨hgrant, rfl, hsame.2, rfl, fun h => by cases h <;> contradiction, ?_⟩
    intro x hx
    exact ⟨fun hl => hunique ⟨x, hx, .inl hl⟩, fun hg => hunique ⟨x, hx, .inr (.inr hg)⟩⟩
  · rw [hsame.2]
    exact hinsert
  · rw [hsame.2]

/-- A claim wins or changes nothing. -/
theorem claimTask_ok (h : claimAppTaskExecution db grantID r taskID now = .ok (e, won, db')) :
    (won = false ∧ db' = db) ∨
      (won = true ∧ ∃ grant, Wins db grant .task r.submissionHash e db') := by
  simp only [claimAppTaskExecution, bind_ok, found_ok, refuse_ok, exists_const] at h
  obtain ⟨grant, hgrant, -, h⟩ := h
  split at h
  next e' _ =>
    simp only [bind_ok, refuse_ok, exists_const] at h
    obtain ⟨-, h⟩ := h
    cases h
    exact .inl ⟨rfl, rfl⟩
  next _ =>
    simp only [bind_ok, found_ok, refuse_ok, exists_const] at h
    obtain ⟨-, -, models, -, model, -, ⟨e', db₁⟩, hdispatch, leases, -, h⟩ := h
    cases h
    exact .inr ⟨rfl, grant, dispatch_ok (Table.find_key hgrant ▸ hgrant) hdispatch leases⟩

theorem claimResponse_ok {replay : Option ResponseResult}
    (h : claimAppResponseExecution db grantID r taskID now = .ok (e, replay, won, db')) :
    (won = false ∧ db' = db) ∨
      (won = true ∧ ∃ grant, Wins db grant .response r.submissionHash e db') := by
  simp only [claimAppResponseExecution, bind_ok, found_ok, refuse_ok, exists_const] at h
  obtain ⟨grant, hgrant, -, found, -, h⟩ := h
  cases found with
  | none =>
    simp only [bind_ok, found_ok, refuse_ok, exists_const] at h
    obtain ⟨-, -, -, models, -, model, -, ⟨e', db₁⟩, hdispatch, h⟩ := h
    cases h
    exact .inr ⟨rfl, grant, dispatch_ok (Table.find_key hgrant ▸ hgrant) hdispatch _⟩
  | some found =>
    cases h
    exact .inl ⟨rfl, rfl⟩

/-! ## Settlement -/

/-- The end of a settlement that was paid. -/
theorem close_ok {paid : Db} (e' : Execution) {digest : Digest} {missing : String}
    {tasks : Table Projection.taskID} {leases : Table Lease.executionID}
    {results : Table ResponseResult.executionID} (hpaid : Paid db e amount paid)
    (h : Db.close { paid with
      executions := paid.executions.save e', tasks := tasks, leases := leases, results := results }
      e e'.finalQuota digest missing = .ok db') :
    Closed db paid e e' db' ∧ db'.results = results := by
  simp only [Db.close, Db.count, bind_ok, found_ok] at h
  obtain ⟨db₁, hcount, settlements, hsettle, outbox, houtbox, h⟩ := h
  split at hcount
  · cases hcount
  next channel hchannel =>
  cases hcount
  cases h
  refine ⟨?_, rfl⟩
  cases hpaid <;> exact ⟨⟨channel, hchannel, rfl⟩, ⟨_, rfl, hsettle⟩, ⟨_, rfl, houtbox⟩,
    rfl, rfl, rfl, rfl, rfl, rfl⟩

/-- The task is settled, or only its evidence is stored. -/
theorem storeTerminal_change {current : Lease} {t : TaskTerminal}
    (hlock : lockAppTaskFunding db e = .ok sub) (hfind : db.executions.find e.id = some e)
    (hopen : db.settlements.find e.id = none)
    (h : storeTerminal db e current sub t now = .ok (settled, db')) : Change db db' := by
  simp only [storeTerminal, bind_ok, found_ok, refuse_ok, exists_const] at h
  obtain ⟨task, -, -, -, h⟩ := h
  split at h
  · cases h
    exact .facts e (e.withEvidence t .settlementPending) _ _ hfind rfl id (.inr ⟨rfl, hopen⟩)
  next paid hsettle =>
  simp only [bind_ok] at h
  obtain ⟨db₁, hclose, h⟩ := h
  cases h
  have hpaid := settle_ok hlock hsettle
  have hclosed := close_ok (e.withEvidence t .settled) hpaid hclose
  have hresults : paid.results = db.results := by cases hpaid <;> rfl
  exact .settle e (e.withEvidence t .settled) paid _ hfind rfl hopen rfl hpaid hclosed.1
    (.inl ⟨hclosed.2.trans hresults, id⟩)

theorem finalizeTask_change {terminal : TaskTerminal}
    (h : finalizeAppTask db lease terminal now = .ok (settled, db')) : Change db db' := by
  simp only [finalizeAppTask, bind_ok, found_ok, refuse_ok, exists_const] at h
  obtain ⟨-, t, -, e, hfind, -, sub, hlock, -, h⟩ := h
  split at h
  · simp only [bind_ok, refuse_ok, exists_const] at h
    obtain ⟨-, h⟩ := h
    cases h
    exact .refl db
  next hopen =>
    simp only [bind_ok, found_ok, refuse_ok, exists_const] at h
    obtain ⟨current, -, -, -, -, h⟩ := h
    exact storeTerminal_change hlock (find_own hfind) hopen h

theorem finalizeResponse_change {terminal : ResponseTerminal} {result : ResponseResult}
    (h : finalizeAppResponse db id terminal now = .ok (result, db')) : Change db db' := by
  simp only [finalizeAppResponse, bind_ok, found_ok, refuse_ok, exists_const] at h
  obtain ⟨-, t, -, e, hfind, -, sub, hlock, -, h⟩ := h
  split at h <;> simp only [bind_ok, found_ok, refuse_ok, exists_const] at h
  · obtain ⟨-, _, -, h⟩ := h
    cases h
    exact .refl db
  next hopen =>
  obtain ⟨-, paid, hsettle, results, hresults, db₁, hclose, h⟩ := h
  cases h
  have hpaid := settle_ok hlock hsettle
  have hclosed := close_ok (e.answered t) hpaid hclose
  have hinsert : db.results.insert ⟨e.id, t⟩ = some results := by cases hpaid <;> exact hresults
  exact .settle e (e.answered t) paid _ (find_own hfind) rfl hopen rfl hpaid hclosed.1
    (.inr ⟨_, rfl, hclosed.2 ▸ hinsert⟩)

/-! ## Every call -/

theorem recordAcceptance_change {providerID : String} {state : ProviderState}
    (h : recordAppTaskAcceptance db id providerID state = .ok db') : Change db db' := by
  simp only [recordAppTaskAcceptance, bind_ok, found_ok, refuse_ok, exists_const] at h
  obtain ⟨-, e, hfind, -, h⟩ := h
  split at h <;> simp only [bind_ok, refuse_ok, exists_const] at h <;> obtain ⟨-, h⟩ := h
  · cases h
    exact .refl db
  split at h
  · cases h
    exact .facts e { e with status := .acceptanceUnknown } _ _ (find_own hfind) rfl
      (fun h => by cases h <;> contradiction) (.inl ⟨rfl, rfl⟩)
  simp only [bind_ok, found_ok] at h
  obtain ⟨tasks, -, h⟩ := h
  cases h
  exact .facts e { e with
    providerTaskID := providerID, providerAccepted := true, status := .accepted
    providerState := state } _ _ (find_own hfind) rfl
    (fun h => by cases h <;> contradiction) (.inl ⟨rfl, rfl⟩)

theorem claimReconcile_change {owner : String} {duration : Int} {won : Option (Execution × Lease)}
    (h : claimAppTaskReconcile db owner now duration = .ok (won, db')) : Change db db' := by
  simp only [claimAppTaskReconcile, bind_ok, refuse_ok, exists_const] at h
  obtain ⟨-, h⟩ := h
  split at h
  · cases h
    exact .refl db
  · simp only [bind_ok, found_ok, refuse_ok, exists_const] at h
    obtain ⟨-, e, -, h⟩ := h
    split at h <;> cases h <;> exact .aside _ _

theorem recordObservation_change {state : Option ProviderState} {err : String}
    (h : recordAppTaskObservation db lease state err now = .ok db') : Change db db' := by
  simp only [recordAppTaskObservation, bind_ok, found_ok, refuse_ok, exists_const] at h
  obtain ⟨-, e, hfind, -, current, -, -, h⟩ := h
  split at h
  · cases h
    exact .aside _ _
  next state =>
  simp only [bind_ok, refuse_ok, exists_const] at h
  obtain ⟨-, h⟩ := h
  cases h
  exact .facts e { e with providerState := state } _ _ (find_own hfind) rfl id (.inl ⟨rfl, rfl⟩)

theorem markUnknown_change (h : markAppResponseOutcomeUnknown db id now = .ok db') :
    Change db db' := by
  simp only [markAppResponseOutcomeUnknown, bind_ok, found_ok, refuse_ok, exists_const] at h
  obtain ⟨-, e, hfind, -, h⟩ := h
  split at h <;> cases h
  · exact .refl db
  · exact .refl db
  · exact .refl db
  · exact .facts e { e with status := .acceptanceUnknown } _ _ (find_own hfind) rfl
      (fun h => by cases h <;> contradiction) (.inl ⟨rfl, rfl⟩)

/-- Every call that succeeds is a change. -/
theorem change_of_perform {call : Call} (h : call.perform db = .ok db') : Change db db' := by
  cases call with
  | claimTask grantID r taskID now =>
    obtain ⟨⟨e, won, db₁⟩, hclaim, rfl⟩ := map_ok.mp h
    rcases claimTask_ok hclaim with ⟨-, rfl⟩ | ⟨-, grant, hwins⟩
    · exact .refl _
    · exact hwins.change
  | claimResponse grantID r taskID now =>
    obtain ⟨⟨e, replay, won, db₁⟩, hclaim, rfl⟩ := map_ok.mp h
    rcases claimResponse_ok hclaim with ⟨-, rfl⟩ | ⟨-, grant, hwins⟩
    · exact .refl _
    · exact hwins.change
  | lookupResponse grantID hash =>
    obtain ⟨-, -, rfl⟩ := map_ok.mp h
    exact .refl db
  | acceptance id providerID state => exact recordAcceptance_change h
  | claimReconcile owner now duration =>
    obtain ⟨⟨won, db₁⟩, hclaim, rfl⟩ := map_ok.mp h
    exact claimReconcile_change hclaim
  | observation lease state err now => exact recordObservation_change h
  | finalizeTask lease terminal now =>
    obtain ⟨⟨settled, db₁⟩, hfinalize, rfl⟩ := map_ok.mp h
    exact finalizeTask_change hfinalize
  | finalizeResponse id terminal now =>
    obtain ⟨⟨result, db₁⟩, hfinalize, rfl⟩ := map_ok.mp h
    exact finalizeResponse_change hfinalize
  | markUnknown id now => exact markUnknown_change h

/-- And so is every attempt, whatever becomes of it. -/
theorem attempt_change (db : Db) (a : Attempt) : Change db (db.attempt a) := by
  unfold Db.attempt
  split
  next db' h =>
    split
    · exact change_of_perform h
    · exact .refl db
  · exact .refl db

end NewApi.App
