import NewApi.Wallet.Cache

/-!
# The hash follows the column

A call that has changed one of the places and not yet the other *owes* the difference.
`WalletState.balance` is the column with what is owed to it, and `Coherent` says that a hash holds
the balance. `Moved` is what one step of a call does: it shifts the balance and the hash by one
amount, or it writes a new hash.

Three steps break the invariant: a hydration with a quota that is no longer stored, a reservation
that falls back to the database while there is a hash, and a transfer. `Sound` rules them out.
-/

namespace NewApi

open Runs

/-! ## What a call owes -/

/-- What the call has taken from the hash and not from the column, and so on: the
amount the column will change by more than the hash. -/
def WalletStage.owed : WalletStage → Int
  | .persist amount => -amount.value
  | .flush value => value
  | .debit quota _ => -quota
  | .sync delta => -delta
  | _ => 0

/-- The column with its record in the batch map. -/
def UserWallet.level (w : UserWallet) : Int := w.quota + w.pending.getD 0

def WalletState.owed (s : WalletState) : Int := (s.calls.rows.map fun c => c.stage.owed).sum

/-- The column once the batch map is written and every call is finished, as far as
the hash knows. -/
def WalletState.balance (s : WalletState) : Int := s.wallet.level + s.owed

def WalletState.Coherent (s : WalletState) : Prop :=
  ∀ quota, s.wallet.hash = some quota → quota = s.balance

/-- No change is on its way from one place to the other. -/
def WalletState.Settled (s : WalletState) : Prop :=
  s.wallet.pending = none ∧ ∀ c ∈ s.calls.rows, c.stage.owed = 0

instance (s : WalletState) : Decidable s.Settled := inferInstanceAs (Decidable (_ ∧ _))

theorem WalletState.owed_of_settled {s : WalletState} (h : ∀ c ∈ s.calls.rows, c.stage.owed = 0) :
    s.owed = 0 := List.sum_eq_zero (by simpa using h)

theorem WalletState.Settled.balance_eq {s : WalletState} (h : s.Settled) :
    s.balance = s.wallet.quota := by
  rw [balance, UserWallet.level, h.1, owed_of_settled h.2]
  simp

@[simp] theorem owed_hydrated (amount : Option ReserveAmount) (answer : Except String Unit) :
    (hydrated amount answer).owed = 0 := by
  cases amount <;> cases answer <;> rfl

/-! ## Steps -/

/-- A step moves the hash as it moves the column and what is owed to it, or it
writes a hash where there was none. -/
inductive Moved (env : WalletEnv) (w : UserWallet) (stage : WalletStage) :
    UserWallet → WalletStage → Prop
  | shifted {w' : UserWallet} {stage' : WalletStage} (delta : Int) :
      w'.hash = w.hash.map (· + delta) →
      w'.level + stage'.owed = w.level + stage.owed + delta → Moved env w stage w' stage'
  | stored {amount : Option ReserveAmount} {quota : Int} {stage' : WalletStage} :
      stage = .store amount quota → env.fenced = false → w.hash = none → stage'.owed = 0 →
      Moved env w stage { w with hash := some quota } stage'

/-- The record of the batch map stays a machine integer. -/
def UserWallet.Fits (w : UserWallet) (delta : Int) : Prop :=
  minInt ≤ w.pending.getD 0 ∧ w.pending.getD 0 ≤ maxInt ∧
    minInt ≤ w.pending.getD 0 + delta ∧ w.pending.getD 0 + delta ≤ maxInt

theorem addNewRecord_eq {w : UserWallet} {delta : Int} (h : w.Fits delta) :
    addNewRecord w.pending delta = w.pending.getD 0 + delta := by
  obtain ⟨hlow, hhigh, hlow', hhigh'⟩ := h
  cases hp : w.pending with
  | none => simp [addNewRecord]
  | some old =>
    simp only [hp, Option.getD_some, minInt, maxInt] at hlow hhigh hlow' hhigh' ⊢
    have hsum : Int.bmod (old + delta) 18446744073709551616 = old + delta :=
      Int.bmod_eq_of_le (by omega) (by omega)
    simp only [addNewRecord, hsum]
    rw [if_neg (by omega)]

namespace UserWallet

variable {w : UserWallet} {delta : Int}

@[simp] theorem level_post : (w.post delta).level = w.level + delta := by
  simp only [level, post]
  omega

theorem level_record (h : w.Fits delta) : (w.record delta).level = w.level + delta := by
  simp only [level, record, addNewRecord_eq h, Option.getD_some]
  omega

@[simp] theorem hash_persist {batch : Bool} : (w.persist batch delta).hash = w.hash := by
  cases batch <;> rfl

theorem level_persist {batch : Bool} (h : batch = true → w.Fits delta) :
    (w.persist batch delta).level = w.level + delta := by
  cases batch with
  | false => exact level_post
  | true => exact level_record (h rfl)

@[simp] theorem level_applyDelta : (w.applyDelta delta).level = w.level := rfl

end UserWallet

/-- The change a call makes to the batch map fits. -/
def WalletStage.Fits (cfg : WalletConfig) (w : UserWallet) : WalletStage → Prop
  | .start (.increase quota _) => cfg.batchUpdateEnabled = true → w.Fits quota
  | .start (.decrease quota _) | .debit quota _ => cfg.batchUpdateEnabled = true → w.Fits (-quota)
  | .persist amount => cfg.batchUpdateEnabled = true → w.Fits (-amount.value)
  | _ => True

/-- An amount the cache grants is at most the largest wallet quota, so that the
script computes with the amount itself. -/
def WalletStage.Exact (w : UserWallet) : WalletStage → Prop
  | .start (.tryReserve amount) => (w.tryReserve amount).1 = .ok → amount ≤ maxWalletQuota
  | .retry amount => (w.tryReserve amount.value).1 = .ok → amount.value ≤ maxWalletQuota
  | _ => True

/-- A fallback to the database and a transfer find no hash, or they change nothing. -/
def WalletStage.Alone (cfg : WalletConfig) (w : UserWallet) : WalletStage → Prop
  | .reserveDB amount => w.hash = none ∨ w.quota < amount.value
  | .start (.transfer quota) => w.hash = none ∨ (transferError cfg quota w).isSome
  | _ => True

section

variable {cfg : WalletConfig} {env : WalletEnv} {w : UserWallet} {stage : WalletStage}
  {stage' : WalletStage} {w' : UserWallet}

theorem Moved.refl (h : stage'.owed = stage.owed) : Moved env w stage w stage' :=
  .shifted 0 (by simp) (by omega)

/-- A change of the column while the hash is kept is owed to the hash. -/
theorem Moved.of_level (hhash : w'.hash = w.hash)
    (hlevel : w'.level + stage'.owed = w.level + stage.owed) : Moved env w stage w' stage' :=
  .shifted 0 (by simp [hhash]) (by omega)

theorem Moved.of_none (hw : w.hash = none) (hw' : w'.hash = none) : Moved env w stage w' stage' :=
  .shifted (w'.level + stage'.owed - (w.level + stage.owed)) (by simp [hw, hw']) (by omega)

theorem tryReserve_ok {amount : Int} (h : w.tryReserve amount = (.ok, w')) :
    ∃ quota, w.hash = some quota ∧ Double.ofInt amount ≤ Double.ofInt quota ∧
      w' = { w with hash := some (quota - Double.ofInt amount) } := by
  unfold UserWallet.tryReserve at h
  split at h
  · cases h
  next quota hhash =>
  split at h
  · cases h
  next hle =>
    cases h
    exact ⟨quota, hhash, by omega, rfl⟩

theorem tryReserve_of_ne {amount : Int} (h : (w.tryReserve amount).1 ≠ .ok) :
    (w.tryReserve amount).2 = w := by
  unfold UserWallet.tryReserve at h ⊢
  split
  · rfl
  next quota hhash =>
  simp only [hhash] at h
  split
  · rfl
  next hle => simp [hle] at h

theorem reserveInCache_cases (amount : ReserveAmount) (missed : WalletStage) (w : UserWallet) :
    (∃ stage', reserveInCache amount missed w = (w, stage') ∧
      (stage' = .refused ∨ stage' = missed)) ∨
      ∃ quota, w.hash = some quota ∧ Double.ofInt amount.value ≤ Double.ofInt quota ∧
        (w.tryReserve amount.value).1 = .ok ∧ reserveInCache amount missed w =
          ({ w with hash := some (quota - Double.ofInt amount.value) }, .persist amount) := by
  have hkeep := @tryReserve_of_ne w amount.value
  cases hr : w.tryReserve amount.value with
  | mk res w' =>
    rw [hr] at hkeep
    cases res with
    | ok =>
      obtain ⟨quota, hhash, hle, rfl⟩ := tryReserve_ok hr
      exact .inr ⟨quota, hhash, hle, rfl, by simp [reserveInCache, hr]⟩
    | insufficient =>
      obtain rfl : w' = w := hkeep (by simp)
      exact .inl ⟨.refused, by simp [reserveInCache, hr], .inl rfl⟩
    | miss =>
      obtain rfl : w' = w := hkeep (by simp)
      exact .inl ⟨missed, by simp [reserveInCache, hr], .inr rfl⟩

theorem ReserveAmount.double_eq {amount : ReserveAmount} (h : amount.value ≤ maxWalletQuota) :
    Double.ofInt amount.value = amount.value := by
  have hpos := amount.pos
  rw [maxWalletQuota] at h
  exact Double.ofInt_of_lt (by omega) (by omega)

theorem Moved.reserveInCache {amount : ReserveAmount} {missed : WalletStage}
    (hexact : (w.tryReserve amount.value).1 = .ok → amount.value ≤ maxWalletQuota)
    (hmissed : missed.owed = 0) (hstage : stage.owed = 0) :
    Moved env w stage (NewApi.reserveInCache amount missed w).1
      (NewApi.reserveInCache amount missed w).2 := by
  rcases reserveInCache_cases amount missed w with ⟨stage', he, hs⟩ | ⟨quota, hhash, -, hok, he⟩ <;>
    rw [he]
  · refine .refl ?_
    rcases hs with rfl | rfl
    · exact hstage.symm
    · exact hmissed.trans hstage.symm
  · refine .shifted (-amount.value) ?_ ?_
    · rw [hhash, ReserveAmount.double_eq (hexact hok)]
      rfl
    · rw [hstage]
      simp only [UserWallet.level, WalletStage.owed]
      omega

theorem moved_begin {job : WalletJob} (hfit : (WalletStage.start job).Fits cfg w)
    (hexact : (WalletStage.start job).Exact w) (halone : (WalletStage.start job).Alone cfg w) :
    Moved env w (.start job) (job.begin cfg env w).1 (job.begin cfg env w).2 := by
  cases job with simp only [WalletJob.begin]
  | tryReserve amount =>
    split
    · exact .refl rfl
    split
    · exact .refl rfl
    · exact .reserveInCache hexact rfl rfl
  | getUserCache => exact .refl rfl
  | batchUpdate =>
    split
    · exact .refl rfl
    next value hp =>
      refine .of_level rfl ?_
      simp [UserWallet.level, WalletStage.owed, hp]
  | increase quota db =>
    split
    · exact .refl rfl
    split
    · exact .refl rfl
    split
    next hb =>
      have hbatch : cfg.batchUpdateEnabled = true := by
        simp only [Bool.and_eq_true] at hb
        exact hb.2
      refine .of_level rfl ?_
      rw [UserWallet.level_record (hfit hbatch)]
      simp only [WalletStage.owed]
      omega
    split
    · refine .of_level rfl ?_
      simp only [UserWallet.level_post, WalletStage.owed]
      omega
    · exact .refl rfl
  | decrease quota db =>
    split
    · exact .refl rfl
    split
    · refine .shifted (-quota) rfl ?_
      simp only [UserWallet.level_applyDelta, WalletStage.owed]
      omega
    refine .of_level UserWallet.hash_persist ?_
    rw [UserWallet.level_persist (fun hb => hfit (by simp at hb; exact hb.2))]
    simp only [WalletStage.owed]
    omega
  | credit quota =>
    split
    · exact .refl rfl
    split
    · refine .of_level rfl ?_
      simp only [UserWallet.level_post, WalletStage.owed]
      omega
    · exact .refl rfl
  | transfer quota =>
    rcases halone with hnone | hsome
    · split
      · exact .refl rfl
      · exact .of_none hnone hnone
    · obtain ⟨err, herr⟩ := Option.isSome_iff_exists.mp hsome
      simp only [herr]
      exact .refl rfl

theorem moved_advance (hfit : stage.Fits cfg w) (hexact : stage.Exact w)
    (halone : stage.Alone cfg w) :
    Moved env w stage (stage.advance cfg env w).1 (stage.advance cfg env w).2 := by
  cases stage with simp only [WalletStage.advance]
  | start job => exact moved_begin hfit hexact halone
  | look amount =>
    split
    · exact .refl (owed_hydrated ..)
    · exact .refl rfl
  | load amount | granted amount | refused | done answer => exact .refl rfl
  | store amount quota =>
    split
    · exact .refl (owed_hydrated ..)
    next hfence =>
    cases hhash : w.hash with
    | none =>
      have hwrite : w.populate quota = { w with hash := some quota } := by
        simp [UserWallet.populate, hhash]
      rw [hwrite]
      exact .stored rfl (by simpa using hfence) hhash (owed_hydrated ..)
    | some old =>
      have hkeep : w.populate quota = w := by
        rw [UserWallet.populate, hhash, Option.getD_some, ← hhash]
      rw [hkeep]
      exact .refl (owed_hydrated ..)
  | retry amount => exact .reserveInCache hexact rfl rfl
  | reserveDB amount =>
    split
    next hle =>
      rcases halone with hnone | hlt
      · exact .of_none hnone hnone
      · omega
    · exact .refl rfl
  | persist amount =>
    refine .of_level UserWallet.hash_persist ?_
    rw [UserWallet.level_persist hfit]
    simp only [WalletStage.owed]
    omega
  | flush value =>
    refine .of_level rfl ?_
    simp only [UserWallet.level_post, WalletStage.owed]
    omega
  | debit quota db =>
    refine .of_level UserWallet.hash_persist ?_
    rw [UserWallet.level_persist (fun hb => hfit (by simp at hb; exact hb.2))]
    simp only [WalletStage.owed]
    omega
  | sync delta =>
    refine .shifted delta rfl ?_
    simp only [UserWallet.level_applyDelta, WalletStage.owed]
    omega

end

/-! ## Runs -/

/-- A hydration that writes a hash writes the stored quota, with nothing under way. -/
def WalletStage.Fresh (env : WalletEnv) (s : WalletState) : WalletStage → Prop
  | .store _ quota =>
    env.fenced = false → s.wallet.hash = none → quota = s.wallet.quota ∧ s.Settled
  | _ => True

section

variable {cfg : WalletConfig} {env : WalletEnv} {s : WalletState} {call : WalletCall}

theorem owed_save {w : UserWallet} {stage : WalletStage} (h : s.calls.find call.id = some call) :
    WalletState.owed ⟨w, s.calls.save ⟨call.id, stage⟩⟩ = s.owed - call.stage.owed + stage.owed :=
  Table.sum_save (t := s.calls) (r := ⟨call.id, stage⟩) (fun c => c.stage.owed) h

theorem balance_call {id : Nat} {job : WalletJob} :
    (s.step cfg (.call id job)).balance = s.balance := by
  simp only [WalletState.step]
  split
  next calls hinsert =>
    simp [WalletState.balance, WalletState.owed, Table.rows_insert hinsert, WalletStage.owed]
  · rfl

theorem WalletState.Coherent.advance (h : s.Coherent) (hfind : s.calls.find call.id = some call)
    (hfit : call.stage.Fits cfg s.wallet) (hexact : call.stage.Exact s.wallet)
    (halone : call.stage.Alone cfg s.wallet) (hfresh : call.stage.Fresh env s) :
    WalletState.Coherent ⟨(call.stage.advance cfg env s.wallet).1,
      s.calls.save ⟨call.id, (call.stage.advance cfg env s.wallet).2⟩⟩ := by
  have hmoved : Moved env s.wallet call.stage _ _ := moved_advance hfit hexact halone
  generalize (call.stage.advance cfg env s.wallet).1 = w' at hmoved ⊢
  generalize (call.stage.advance cfg env s.wallet).2 = stage' at hmoved ⊢
  intro quota' hhash'
  rw [WalletState.balance, owed_save hfind]
  cases hmoved with
  | shifted delta hshift hlevel =>
    simp only [hshift, Option.map_eq_some_iff] at hhash'
    obtain ⟨quota, hhash, rfl⟩ := hhash'
    have hbefore := h quota hhash
    rw [WalletState.balance] at hbefore
    simp only
    omega
  | @stored _ quota _ hstage hfence hnone howed =>
    rw [hstage] at hfresh
    obtain ⟨hquota, hsettled⟩ := hfresh hfence hnone
    have hbalance := hsettled.balance_eq
    rw [WalletState.balance] at hbalance
    have hown : call.stage.owed = 0 := by rw [hstage]; rfl
    obtain rfl : quota = quota' := Option.some.inj hhash'
    simp only [UserWallet.level] at hbalance ⊢
    omega

end

/-! ## Without batches -/

/-- A reservation asks the cache for at most the largest wallet quota. -/
def WalletStage.Small : WalletStage → Prop
  | .start (.tryReserve amount) => amount ≤ maxWalletQuota
  | .retry amount => amount.value ≤ maxWalletQuota
  | _ => True

def WalletState.Sound (cfg : WalletConfig) (s : WalletState) : WalletAction → Prop
  | .step id env =>
    match s.calls.find id with
    | some call => call.stage.Small ∧ call.stage.Alone cfg s.wallet ∧ call.stage.Fresh env s
    | none => True
  | _ => True

instance (stage : WalletStage) : Decidable stage.Small := by
  unfold WalletStage.Small
  split <;> infer_instance

instance (cfg : WalletConfig) (w : UserWallet) (stage : WalletStage) :
    Decidable (stage.Alone cfg w) := by
  unfold WalletStage.Alone
  split <;> infer_instance

instance (env : WalletEnv) (s : WalletState) (stage : WalletStage) :
    Decidable (stage.Fresh env s) := by
  unfold WalletStage.Fresh
  split <;> infer_instance

instance (cfg : WalletConfig) (s : WalletState) (a : WalletAction) : Decidable (s.Sound cfg a) := by
  unfold WalletState.Sound
  split
  · split <;> infer_instance
  · infer_instance

section

variable {cfg : WalletConfig} {env : WalletEnv} {w : UserWallet} {stage : WalletStage}

theorem WalletStage.Small.exact (h : stage.Small) : stage.Exact w := by
  unfold WalletStage.Exact
  split
  · exact fun _ => h
  · exact fun _ => h
  · trivial

theorem fits_of_unbatched (hbatch : cfg.batchUpdateEnabled = false) : stage.Fits cfg w := by
  unfold WalletStage.Fits
  simp only [hbatch]
  split <;> simp

theorem pending_persist {delta : Int} (h : w.pending = none) :
    (w.persist false delta).pending = none := h

theorem pending_reserveInCache {amount : ReserveAmount} {missed : WalletStage} :
    (reserveInCache amount missed w).1.pending = w.pending := by
  rcases reserveInCache_cases amount missed w with ⟨_, he, _⟩ | ⟨_, _, _, _, he⟩ <;> rw [he]

theorem pending_advance (hbatch : cfg.batchUpdateEnabled = false) (h : w.pending = none) :
    (stage.advance cfg env w).1.pending = none := by
  cases stage with
  | start job =>
    cases job with simp only [WalletStage.advance, WalletJob.begin]
    | tryReserve amount =>
      split
      · exact h
      split
      · exact h
      · exact pending_reserveInCache.trans h
    | getUserCache => exact h
    | batchUpdate => simp [h]
    | increase quota db =>
      simp only [hbatch]
      split_ifs <;> first | exact h | simp_all
    | decrease quota db =>
      simp only [hbatch, Bool.and_false]
      split_ifs <;> exact h
    | credit quota =>
      split_ifs <;> exact h
    | transfer quota =>
      split <;> exact h
  | look amount | store amount quota | reserveDB amount =>
    simp only [WalletStage.advance]
    split <;> exact h
  | load amount | flush value | sync delta | granted amount | refused | done answer => exact h
  | retry amount => exact pending_reserveInCache.trans h
  | persist amount =>
    simp only [WalletStage.advance, hbatch]
    exact pending_persist h
  | debit quota db =>
    simp only [WalletStage.advance, hbatch, Bool.and_false]
    exact pending_persist h

/-- What holds in every state of a sound run without batches. -/
structure Unbatched (s : WalletState) : Prop where
  coherent : s.Coherent
  pending : s.wallet.pending = none

theorem Unbatched.step (hbatch : cfg.batchUpdateEnabled = false) {s : WalletState}
    {a : WalletAction} (h : Unbatched s) (hsound : s.Sound cfg a) : Unbatched (s.step cfg a) := by
  cases a with
  | call id job =>
    have hbalance := @balance_call cfg s id job
    have hwallet : (s.step cfg (.call id job)).wallet = s.wallet := by
      simp only [WalletState.step]
      split <;> rfl
    refine ⟨?_, by rw [hwallet]; exact h.pending⟩
    intro quota hhash
    rw [hbalance]
    rw [hwallet] at hhash
    exact h.coherent quota hhash
  | step id env =>
    simp only [WalletState.step, WalletState.Sound] at hsound ⊢
    cases hfind : s.calls.find id with
    | none => exact h
    | some call =>
      simp only [hfind] at hsound
      obtain ⟨hsmall, halone, hfresh⟩ := hsound
      obtain rfl : call.id = id := Table.find_key hfind
      exact ⟨h.coherent.advance hfind (fits_of_unbatched hbatch) hsmall.exact halone hfresh,
        pending_advance hbatch h.pending⟩
  | expire => exact ⟨nofun, h.pending⟩

theorem owed_of_finished (h : stage.finished = true) : stage.owed = 0 := by
  cases stage <;> first | rfl | cases h

end

/-- With batches off, a run of sound steps that starts without calls and with the
hash absent or at the column ends, once every call is finished, with the hash absent
or at the column. -/
theorem hash_follows_column {cfg : WalletConfig} (hbatch : cfg.batchUpdateEnabled = false)
    {s : WalletState} (hcalls : s.calls.rows = []) (hpending : s.wallet.pending = none)
    (hhash : s.wallet.hash = none ∨ s.wallet.hash = some s.wallet.quota) {as : List WalletAction}
    (hsound : Along (WalletState.step cfg) (WalletState.Sound cfg) s as)
    (hfinished : ∀ c ∈ (run (WalletState.step cfg) s as).calls.rows, c.stage.finished = true) :
    (run (WalletState.step cfg) s as).wallet.hash = none ∨
      (run (WalletState.step cfg) s as).wallet.hash =
        some (run (WalletState.step cfg) s as).wallet.quota := by
  have hstart : Unbatched s := by
    have hbalance : s.balance = s.wallet.quota :=
      WalletState.Settled.balance_eq ⟨hpending, by simp [hcalls]⟩
    refine ⟨?_, hpending⟩
    intro quota hsome
    rw [hbalance]
    simpa [hsome] using hhash
  have hend : Unbatched (run (WalletState.step cfg) s as) :=
    run_invariant (fun _ _ h hs => h.step hbatch hs) hstart hsound
  have hsettled : (run (WalletState.step cfg) s as).Settled :=
    ⟨hend.pending, fun c hc => owed_of_finished (hfinished c hc)⟩
  cases hq : (run (WalletState.step cfg) s as).wallet.hash with
  | none => exact .inl rfl
  | some quota => exact .inr (by rw [hend.coherent quota hq, hsettled.balance_eq])

/-- Batches are off, and ten units of quota can be transferred. -/
def unbatchedConfig : WalletConfig := ⟨false, 10, "10"⟩

def walletOf100 (hash : Option Int) : WalletState := ⟨⟨hash, 100, 50, none⟩, .empty⟩

/-- A step without a fence, the statement of a decrease first. -/
def plainStep (id : Nat) : WalletAction := .step id ⟨false, false⟩

/-- A hydration, a reservation, a credit and a decrease, one after the other. -/
def soundWalletRun : List WalletAction :=
  [.call 1 .getUserCache, plainStep 1, plainStep 1, plainStep 1, plainStep 1,
    .call 2 (.tryReserve 30), plainStep 2, plainStep 2,
    .call 3 (.credit 20), .call 4 (.decrease 5 false), plainStep 3, plainStep 4, plainStep 4,
    plainStep 3]

theorem hash_follows_column_at_85 :
    (run (WalletState.step unbatchedConfig) (walletOf100 none) soundWalletRun).wallet.hash =
        some 85 ∧
      ((run (WalletState.step unbatchedConfig) (walletOf100 none) soundWalletRun).wallet.hash =
          none ∨
        (run (WalletState.step unbatchedConfig) (walletOf100 none) soundWalletRun).wallet.hash =
          some (run (WalletState.step unbatchedConfig) (walletOf100 none)
            soundWalletRun).wallet.quota) :=
  ⟨by decide +kernel, hash_follows_column rfl rfl rfl (.inl rfl) (by decide +kernel)
    (by decide +kernel)⟩

def transferRun : List WalletAction := [.call 1 (.transfer 50), plainStep 1]

/-- A hydration between the statement of an increase and its background step. -/
def hydratedIncreaseRun : List WalletAction :=
  [.call 1 (.increase 10 false), plainStep 1,
    .call 2 .getUserCache, plainStep 2, plainStep 2, plainStep 2, plainStep 2, plainStep 1]

/-- A reservation that falls back to the database after another call wrote the hash. -/
def fallbackRun : List WalletAction :=
  [.call 1 (.tryReserve 30), plainStep 1, plainStep 1, plainStep 1, plainStep 1, .expire,
    plainStep 1, .call 2 .getUserCache, plainStep 2, plainStep 2, plainStep 2, plainStep 2,
    plainStep 1]

/-- The run ends with every call finished, this hash and this column. -/
def EndsWith (s : WalletState) (as : List WalletAction) (hash : Option Int) (quota : Int) : Prop :=
  (∀ c ∈ (run (WalletState.step unbatchedConfig) s as).calls.rows, c.stage.finished = true) ∧
    (run (WalletState.step unbatchedConfig) s as).wallet.hash = hash ∧
    (run (WalletState.step unbatchedConfig) s as).wallet.quota = quota

/-- Each of the three runs ends with the hash off the column. -/
theorem hash_leaves_column :
    EndsWith (walletOf100 (some 100)) transferRun (some 100) 150 ∧
      EndsWith (walletOf100 none) hydratedIncreaseRun (some 120) 110 ∧
      EndsWith (walletOf100 none) fallbackRun (some 100) 70 := by
  unfold EndsWith
  decide +kernel

end NewApi
