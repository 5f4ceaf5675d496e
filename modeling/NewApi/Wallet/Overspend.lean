import Mathlib.Algebra.Order.BigOperators.Group.List
import NewApi.Wallet.Coherence

/-!
# Reservations stay within the quota

Only reservations, hydrations and batch updates run. A step either takes nothing or adds an
amount to `accepted` and takes it from the balance (`Took`). The amount is covered by the copy
the step consults. When that copy is the balance, what is accepted stays within the quota. The
copy is the balance in every run whose hydrations are fresh and whose fallbacks to the database
are covered.

A hydration after an expiry reads a column that the batch has not reached yet, so the same quota
is reserved twice: that is `accepted_twice`.
-/

namespace NewApi

open Runs

/-- What the call has taken for a reservation that is granted or about to be. -/
def WalletStage.taken : WalletStage → Int
  | .persist amount => amount.value
  | .granted amount => amount
  | _ => 0

def WalletState.accepted (s : WalletState) : Int := (s.calls.rows.map fun c => c.stage.taken).sum

/-- The calls a wallet that is only reserved from sees. -/
def WalletStage.reserving : WalletStage → Bool
  | .start (.tryReserve _) | .start .getUserCache | .start .batchUpdate => true
  | .start _ | .debit _ _ | .sync _ => false
  | _ => true

/-- The action is not a credit or a debit of another kind. -/
def WalletAction.reserves : WalletAction → Bool
  | .call _ job => (WalletStage.start job).reserving
  | _ => true

/-- A fallback to the database finds no hash and nothing under way, or too little. -/
def WalletStage.Covered (s : WalletState) : WalletStage → Prop
  | .reserveDB amount => (s.wallet.hash = none ∧ s.Settled) ∨ s.wallet.quota < amount.value
  | _ => True

instance WalletStage.Covered.decidable (s : WalletState) :
    (stage : WalletStage) → Decidable (stage.Covered s)
  | .reserveDB _ => inferInstanceAs (Decidable ((_ ∧ _) ∨ _))
  | .start _ | .look _ | .load _ | .store _ _ | .retry _ | .persist _ | .flush _ | .debit _ _
  | .sync _ | .granted _ | .refused | .done _ => instDecidableTrue

def WalletState.Guarded (s : WalletState) : WalletAction → Prop
  | .step id env =>
    match s.calls.find id with
    | some call => call.stage.Fresh env s ∧ call.stage.Covered s
    | none => True
  | _ => True

instance WalletState.Guarded.decidable (s : WalletState) :
    (a : WalletAction) → Decidable (s.Guarded a)
  | .step id env =>
    match h : s.calls.find id with
    | some call => decidable_of_iff (call.stage.Fresh env s ∧ call.stage.Covered s)
        (by simp only [WalletState.Guarded, h])
    | none => isTrue (by simp only [WalletState.Guarded, h])
  | .call _ _ | .expire => instDecidableTrue

/-! ## Steps -/

/-- What is true of a call all the time. -/
structure Reserving (stage : WalletStage) : Prop where
  kind : stage.reserving = true
  owed : stage.owed ≤ 0
  taken : 0 ≤ stage.taken

/-- A step of a reservation, a hydration or a batch update. -/
structure Took (amount : Int) (w : UserWallet) (stage : WalletStage) (w' : UserWallet)
    (stage' : WalletStage) : Prop where
  reserving : Reserving stage'
  quota : w'.quota ≤ w.quota
  pending : w'.pending.getD 0 ≤ 0
  level : w'.level + stage'.owed = w.level + stage.owed - amount
  taken : stage'.taken = stage.taken + amount

section

variable {cfg : WalletConfig} {env : WalletEnv} {w : UserWallet} {stage : WalletStage}

theorem reserving_hydrated (amount : Option ReserveAmount) (answer : Except String Unit) :
    Reserving (hydrated amount answer) ∧ (hydrated amount answer).taken = 0 := by
  cases amount <;> cases answer <;> exact ⟨⟨rfl, Int.le_refl 0, Int.le_refl 0⟩, rfl⟩

theorem Took.idle {w' : UserWallet} {stage' : WalletStage} (hpending : w.pending.getD 0 ≤ 0)
    (hr : Reserving stage') (howed : stage'.owed = stage.owed := by rfl)
    (htaken : stage'.taken = stage.taken := by rfl) (hquota : w'.quota = w.quota := by rfl)
    (hrecord : w'.pending = w.pending := by rfl) : Took 0 w stage w' stage' where
  reserving := hr
  quota := by omega
  pending := by rw [hrecord]; exact hpending
  level := by rw [UserWallet.level, UserWallet.level, hquota, hrecord, howed]; omega
  taken := by omega

theorem took_reserveInCache (amount : ReserveAmount) (missed : WalletStage)
    (hpending : w.pending.getD 0 ≤ 0) (howed : stage.owed = 0) (htaken : stage.taken = 0)
    (hmissed : Reserving missed) (hmo : missed.owed = 0) (hmt : missed.taken = 0) :
    Took 0 w stage (reserveInCache amount missed w).1 (reserveInCache amount missed w).2 ∨
      ∃ quota, w.hash = some quota ∧ Double.ofInt amount.value ≤ Double.ofInt quota ∧
        Took amount.value w stage (reserveInCache amount missed w).1
          (reserveInCache amount missed w).2 := by
  have hpos := amount.pos
  rcases reserveInCache_cases amount missed w with ⟨stage', he, hs⟩ | ⟨quota, hhash, hle, -, he⟩ <;>
    rw [he]
  · left
    rcases hs with rfl | rfl
    · exact .idle hpending ⟨rfl, Int.le_refl 0, Int.le_refl 0⟩ howed.symm htaken.symm
    · exact .idle hpending hmissed (hmo.trans howed.symm) (hmt.trans htaken.symm)
  · right
    refine ⟨quota, hhash, hle, ⟨rfl, ?_, ?_⟩, Int.le_refl _, hpending, ?_, ?_⟩
    · simp only [WalletStage.owed]
      omega
    · simp only [WalletStage.taken]
      omega
    · simp only [UserWallet.level, WalletStage.owed] at howed ⊢
      omega
    · simp only [WalletStage.taken] at htaken ⊢
      omega

theorem took_advance (h : Reserving stage) (hfit : stage.Fits cfg w)
    (hpending : w.pending.getD 0 ≤ 0) :
    Took 0 w stage (stage.advance cfg env w).1 (stage.advance cfg env w).2 ∨
      ∃ amount : ReserveAmount,
        Took amount.value w stage (stage.advance cfg env w).1 (stage.advance cfg env w).2 ∧
        ((∃ quota, w.hash = some quota ∧ Double.ofInt amount.value ≤ Double.ofInt quota) ∨
          (stage = .reserveDB amount ∧ amount.value ≤ w.quota)) := by
  have hzero : ∀ stage' : WalletStage, stage'.reserving = true → stage'.owed = 0 →
      stage'.taken = 0 → Reserving stage' := fun _ hk ho ht => ⟨hk, by omega, by omega⟩
  cases stage with
  | start job =>
    cases job with simp only [WalletStage.advance, WalletJob.begin]
    | tryReserve amount =>
      split
      · exact .inl (.idle hpending (hzero _ rfl rfl rfl))
      split
      · exact .inl (.idle hpending (hzero _ rfl rfl rfl))
      have hcache := @took_reserveInCache w (.start (.tryReserve amount)) ⟨amount, by omega⟩
        (.look (some ⟨amount, by omega⟩)) hpending rfl rfl (hzero _ rfl rfl rfl) rfl rfl
      rcases hcache with hidle | ⟨quota, hhash, hle, htook⟩
      · exact .inl hidle
      · exact .inr ⟨_, htook, .inl ⟨quota, hhash, hle⟩⟩
    | getUserCache => exact .inl (.idle hpending (hzero _ rfl rfl rfl))
    | batchUpdate =>
      split
      · exact .inl (.idle hpending (hzero _ rfl rfl rfl))
      next value hp =>
      rw [hp, Option.getD_some] at hpending
      refine .inl ⟨⟨rfl, hpending, Int.le_refl 0⟩, Int.le_refl _, Int.le_refl 0, ?_, rfl⟩
      simp [UserWallet.level, WalletStage.owed, hp]
    | increase quota db | decrease quota db | credit quota | transfer quota => cases h.kind
  | look amount =>
    simp only [WalletStage.advance]
    split
    · obtain ⟨hr, ht⟩ := reserving_hydrated amount (.ok ())
      exact .inl (.idle hpending hr (owed_hydrated ..) ht)
    · exact .inl (.idle hpending (hzero _ rfl rfl rfl))
  | load amount => exact .inl (.idle hpending (hzero _ rfl rfl rfl))
  | store amount quota =>
    simp only [WalletStage.advance]
    split
    · obtain ⟨hr, ht⟩ := reserving_hydrated amount (.error userAuthCachePendingText)
      exact .inl (.idle hpending hr (owed_hydrated ..) ht)
    · obtain ⟨hr, ht⟩ := reserving_hydrated amount (.ok ())
      exact .inl (.idle hpending hr (owed_hydrated ..) ht)
  | retry amount =>
    have hcache := @took_reserveInCache w (.retry amount) amount (.reserveDB amount) hpending
      rfl rfl (hzero _ rfl rfl rfl) rfl rfl
    rcases hcache with hidle | ⟨quota, hhash, hle, htook⟩
    · exact .inl hidle
    · exact .inr ⟨amount, htook, .inl ⟨quota, hhash, hle⟩⟩
  | reserveDB amount =>
    have hpos := amount.pos
    simp only [WalletStage.advance]
    split
    next hle =>
      refine .inr ⟨amount, ⟨⟨rfl, Int.le_refl 0, ?_⟩, ?_, hpending, ?_, ?_⟩, .inr ⟨rfl, hle⟩⟩
      · simp only [WalletStage.taken]
        omega
      · simp only [UserWallet.post]
        omega
      · simp only [UserWallet.level_post, WalletStage.owed]
        omega
      · simp [WalletStage.taken]
    · exact .inl (.idle hpending (hzero _ rfl rfl rfl))
  | persist amount =>
    have hpos := amount.pos
    have hlevel := UserWallet.level_persist hfit
    simp only [WalletStage.advance]
    refine .inl ⟨⟨rfl, Int.le_refl 0, h.taken⟩, ?_, ?_, ?_, by simp [WalletStage.taken]⟩
    · cases cfg.batchUpdateEnabled with
      | true => exact Int.le_refl _
      | false =>
        simp only [UserWallet.persist, UserWallet.post, Bool.false_eq_true, if_false]
        omega
    · cases hb : cfg.batchUpdateEnabled with
      | true =>
        simp only [UserWallet.persist, UserWallet.record, if_true, Option.getD_some,
          addNewRecord_eq (hfit hb)]
        omega
      | false => exact hpending
    · rw [hlevel]
      simp only [WalletStage.owed]
      omega
  | flush value =>
    have hvalue : value ≤ 0 := h.owed
    refine .inl ⟨hzero _ rfl rfl rfl, ?_, hpending, ?_, rfl⟩
    · simp only [WalletStage.advance, UserWallet.post]
      omega
    · simp only [WalletStage.advance, UserWallet.level_post, WalletStage.owed]
      omega
  | debit quota db => cases h.kind
  | sync delta => cases h.kind
  | granted amount | refused | done answer => exact .inl (.idle hpending h)

end

/-! ## Runs -/

/-- What holds in every state of a guarded run from a wallet with a quota. -/
structure Within (quota : Int) (s : WalletState) : Prop where
  coherent : s.Coherent
  conserved : s.balance + s.accepted = quota
  covered : s.accepted ≤ max quota 0
  column : s.wallet.quota ≤ quota
  pending : s.wallet.pending.getD 0 ≤ 0
  calls : ∀ c ∈ s.calls.rows, Reserving c.stage

section

variable {cfg : WalletConfig} {env : WalletEnv} {s : WalletState} {call : WalletCall} {quota : Int}

theorem accepted_save {w : UserWallet} {stage : WalletStage}
    (h : s.calls.find call.id = some call) :
    WalletState.accepted ⟨w, s.calls.save ⟨call.id, stage⟩⟩ =
      s.accepted - call.stage.taken + stage.taken :=
  Table.sum_save (t := s.calls) (r := ⟨call.id, stage⟩) (fun c => c.stage.taken) h

theorem Within.accepted_nonneg (h : Within quota s) : 0 ≤ s.accepted := by
  refine List.sum_nonneg ?_
  intro x hx
  obtain ⟨c, hc, rfl⟩ := List.mem_map.mp hx
  exact (h.calls c hc).taken

theorem Within.owed_le (h : Within quota s) (hfind : s.calls.find call.id = some call) :
    s.owed ≤ call.stage.owed := by
  have hsave := @owed_save s call s.wallet .refused hfind
  have hrest : WalletState.owed ⟨s.wallet, s.calls.save ⟨call.id, .refused⟩⟩ ≤ 0 := by
    have hle : ∀ c ∈ (s.calls.save ⟨call.id, .refused⟩).rows, c.stage.owed ≤ 0 := by
      exact Table.forall_save (Int.le_refl 0) fun c hold _ => (h.calls c hold).owed
    simpa [WalletState.owed] using List.sum_le_sum hle
  rw [hsave] at hrest
  simp only [WalletStage.owed] at hrest ⊢
  omega

section

variable (h : Within quota s) (hmax : quota ≤ maxWalletQuota)

include h hmax

/-- The record of the batch map is within the quota, so it does not overflow. -/
theorem Within.fits (hfind : s.calls.find call.id = some call) : call.stage.Fits cfg s.wallet := by
  have hr := h.calls call (Table.find_mem hfind)
  cases hstage : call.stage with rw [hstage] at hr
  | start job =>
    cases job with
    | increase => cases hr.kind
    | decrease => cases hr.kind
    | _ => trivial
  | debit =>
    cases hr.kind
  | persist amount =>
    intro _
    have howed := h.owed_le hfind
    have hpos := amount.pos
    have hcons := h.conserved
    have hcov := h.covered
    have hcol := h.column
    have hpend := h.pending
    rw [hstage] at howed
    simp only [WalletState.balance, UserWallet.level, WalletStage.owed] at hcons howed
    simp only [UserWallet.Fits, minInt, maxInt]
    rw [maxWalletQuota] at hmax
    omega
  | _ => trivial

theorem Within.covers {amount : ReserveAmount} {cached : Int} (hhash : s.wallet.hash = some cached)
    (hle : Double.ofInt amount.value ≤ Double.ofInt cached) :
    amount.value ≤ maxWalletQuota ∧ amount.value ≤ s.balance := by
  have hcached := h.coherent cached hhash
  have hcons := h.conserved
  have hnonneg := h.accepted_nonneg
  have hpos := amount.pos
  rw [maxWalletQuota] at hmax ⊢
  -- the hash is below 2^53, so its double is not above it either
  have hbelow : Double.ofInt cached ≤ 9007199254740991 ∧
      (0 < Double.ofInt cached → Double.ofInt cached = cached) := by
    by_cases hlow : -2 ^ 53 < cached
    · have hself := Double.ofInt_of_lt hlow (by omega)
      exact ⟨by omega, fun _ => hself⟩
    · have hneg := Double.ofInt_le (n := cached) (by omega)
      exact ⟨by omega, fun hp => by omega⟩
  have hsmall : amount.value ≤ 9007199254740991 := by
    by_contra hlarge
    have := Double.le_ofInt (n := amount.value) (by omega)
    omega
  have hself : Double.ofInt amount.value = amount.value := ReserveAmount.double_eq hsmall
  rw [hself] at hle
  have := hbelow.2 (by omega)
  exact ⟨hsmall, by omega⟩

theorem Within.exact {stage : WalletStage} : stage.Exact s.wallet := by
  have hgranted : ∀ amount : Int, (s.wallet.tryReserve amount).1 = .ok →
      amount ≤ maxWalletQuota := by
    intro amount hok
    by_cases hpos : 0 < amount
    · have hreserve : s.wallet.tryReserve amount = (.ok, (s.wallet.tryReserve amount).2) :=
        Prod.ext hok rfl
      obtain ⟨cached, hhash, hle, -⟩ := tryReserve_ok hreserve
      exact (@Within.covers s quota h hmax ⟨amount, hpos⟩ cached hhash hle).1
    · rw [maxWalletQuota]
      omega
  unfold WalletStage.Exact
  split
  · exact hgranted _
  · exact hgranted _
  · trivial

end

theorem WalletStage.Covered.alone (hr : Reserving call.stage) (h : call.stage.Covered s) :
    call.stage.Alone cfg s.wallet := by
  cases hstage : call.stage with
  | reserveDB amount =>
    rw [hstage] at h
    exact h.imp And.left id
  | start job =>
    rw [hstage] at hr
    cases job with
    | transfer => cases hr.kind
    | _ => trivial
  | _ => trivial

theorem Within.advance (h : Within quota s) (hmax : quota ≤ maxWalletQuota)
    (hfind : s.calls.find call.id = some call) (hfresh : call.stage.Fresh env s)
    (hcov : call.stage.Covered s) :
    Within quota ⟨(call.stage.advance cfg env s.wallet).1,
      s.calls.save ⟨call.id, (call.stage.advance cfg env s.wallet).2⟩⟩ := by
  have hr := h.calls call (Table.find_mem hfind)
  have hfit : call.stage.Fits cfg s.wallet := h.fits hmax hfind
  have hcoherent := h.coherent.advance hfind hfit (h.exact hmax) (hcov.alone hr) hfresh
  have htook : ∃ amount : Int, Took amount s.wallet call.stage
      (call.stage.advance cfg env s.wallet).1 (call.stage.advance cfg env s.wallet).2 ∧
        (amount = 0 ∨ amount ≤ s.balance) := by
    rcases took_advance hr hfit h.pending with hidle | ⟨amount, htook, hcopy⟩
    · exact ⟨0, hidle, .inl rfl⟩
    refine ⟨amount.value, htook, .inr ?_⟩
    rcases hcopy with ⟨cached, hhash, hle⟩ | ⟨hstage, hle⟩
    · exact (h.covers hmax hhash hle).2
    rw [hstage] at hcov
    rcases hcov with ⟨-, hsettled⟩ | hlt
    · rw [hsettled.balance_eq]
      exact hle
    · omega
  obtain ⟨amount, htook, hcase⟩ := htook
  have hbalance := @owed_save s call (call.stage.advance cfg env s.wallet).1
    (call.stage.advance cfg env s.wallet).2 hfind
  have haccepted := @accepted_save s call (call.stage.advance cfg env s.wallet).1
    (call.stage.advance cfg env s.wallet).2 hfind
  have hlevel := htook.level
  have htaken := htook.taken
  have hcons := h.conserved
  have hbefore := h.covered
  have hcolumn := h.column
  have hquota := htook.quota
  simp only [WalletState.balance] at hcons hcase
  refine ⟨hcoherent, ?_, ?_, by simp only; omega, htook.pending, ?_⟩
  · simp only [WalletState.balance, hbalance, haccepted]
    omega
  · rw [haccepted]
    omega
  · exact Table.forall_save htook.reserving fun c hold _ => h.calls c hold

theorem Within.newCall (h : Within quota s) {id : Nat} {job : WalletJob}
    (hjob : (WalletStage.start job).reserving = true) :
    Within quota (s.step cfg (.call id job)) := by
  have hbalance := @balance_call cfg s id job
  simp only [WalletState.step] at hbalance ⊢
  split at hbalance
  next calls hinsert =>
    have hrows := Table.rows_insert hinsert
    have haccepted : WalletState.accepted { s with calls := calls } = s.accepted := by
      simp [WalletState.accepted, hrows, WalletStage.taken]
    refine ⟨?_, by rw [hbalance, haccepted]; exact h.conserved,
      by rw [haccepted]; exact h.covered, h.column, h.pending, ?_⟩
    · intro cached hhash
      rw [hbalance]
      exact h.coherent cached hhash
    · intro c hc
      rw [hrows, List.mem_cons] at hc
      rcases hc with rfl | hold
      · exact ⟨hjob, Int.le_refl 0, Int.le_refl 0⟩
      · exact h.calls c hold
  · exact h

theorem Within.step (h : Within quota s) (hmax : quota ≤ maxWalletQuota) {a : WalletAction}
    (hjob : a.reserves = true) (hguarded : s.Guarded a) : Within quota (s.step cfg a) := by
  cases a with
  | call id job => exact h.newCall hjob
  | step id env =>
    simp only [WalletState.step, WalletState.Guarded] at hguarded ⊢
    cases hfind : s.calls.find id with
    | none => exact h
    | some call =>
      simp only [hfind] at hguarded
      obtain rfl : call.id = id := Table.find_key hfind
      exact h.advance hmax hfind hguarded.1 hguarded.2
  | expire =>
    exact ⟨fun _ hnone => (by cases hnone), h.conserved, h.covered, h.column, h.pending, h.calls⟩

end

/-- From a wallet with a quota, no call, no record in the batch map and a hash that
is absent or holds the quota, the reservations accepted in a guarded run of
reservations, hydrations, batch updates and expiries are within the quota. -/
theorem accepted_le_quota {cfg : WalletConfig} {s : WalletState} (hcalls : s.calls.rows = [])
    (hpending : s.wallet.pending = none)
    (hhash : s.wallet.hash = none ∨ s.wallet.hash = some s.wallet.quota)
    (hmax : s.wallet.quota ≤ maxWalletQuota) {as : List WalletAction}
    (hjobs : ∀ a ∈ as, a.reserves = true)
    (hguarded : Along (WalletState.step cfg) WalletState.Guarded s as) :
    (run (WalletState.step cfg) s as).accepted ≤ max s.wallet.quota 0 := by
  have hsettled : s.Settled := ⟨hpending, by simp [hcalls]⟩
  have hbalance := hsettled.balance_eq
  have haccepted : s.accepted = 0 := by simp [WalletState.accepted, hcalls]
  have hstart : Within s.wallet.quota s := by
    refine ⟨?_, by omega, by omega, Int.le_refl _, by simp [hpending], by simp [hcalls]⟩
    intro cached hsome
    rw [hbalance]
    simpa [hsome] using hhash
  have hboth := hguarded.and (along_of_mem (fun a ha _ => hjobs a ha) s)
  have hend : Within s.wallet.quota (run (WalletState.step cfg) s as) :=
    run_invariant (fun _ _ h hc => h.step hmax hc.2 hc.1) hstart hboth
  exact hend.covered

def batchedConfig : WalletConfig := ⟨true, 10, "10"⟩

/-- Two reservations of one hash, with the batch written in between. -/
def guardedRun : List WalletAction :=
  [.call 1 .getUserCache, plainStep 1, plainStep 1, plainStep 1, plainStep 1,
    .call 2 (.tryReserve 60), plainStep 2, plainStep 2, .call 3 .batchUpdate, plainStep 3,
    plainStep 3, .expire, .call 4 (.tryReserve 40), plainStep 4, plainStep 4, plainStep 4,
    plainStep 4, plainStep 4, plainStep 4]

theorem accepted_le_quota_at_100 :
    (run (WalletState.step batchedConfig) (walletOf100 none) guardedRun).accepted = 100 ∧
      (run (WalletState.step batchedConfig) (walletOf100 none) guardedRun).accepted ≤ max 100 0 :=
  ⟨by decide +kernel,
    accepted_le_quota rfl rfl (.inl rfl) (by decide) (by decide) (by decide +kernel)⟩

/-- The hash expires after a reservation, and is read back from the column before the
batch is written. -/
def staleRun : List WalletAction :=
  [.call 1 (.tryReserve 100), plainStep 1, plainStep 1, .expire,
    .call 2 .getUserCache, plainStep 2, plainStep 2, plainStep 2, plainStep 2,
    .call 3 (.tryReserve 100), plainStep 3, plainStep 3]

/-- The quota of 100 is reserved twice, and every call is finished. -/
theorem accepted_twice :
    (∀ a ∈ staleRun, a.reserves = true) ∧
      (∀ c ∈ (run (WalletState.step batchedConfig) (walletOf100 (some 100)) staleRun).calls.rows,
        c.stage.finished = true) ∧
      (run (WalletState.step batchedConfig) (walletOf100 (some 100)) staleRun).accepted = 200 := by
  decide +kernel

end NewApi
