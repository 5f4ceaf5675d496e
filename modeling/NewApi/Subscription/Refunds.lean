import NewApi.Billing.Session
import NewApi.Lib.Runs

/-!
# Refunds of a subscription under retries

`RefundSubscriptionPreConsume` holds the record in one transaction and lowers
the used amount in another one, which commits by itself. An attempt can
therefore fail at three places, and only the first two leave everything as it
was. When the record cannot be saved or the outer transaction cannot commit,
the amount is already given back and the record still says `consumed`.

*Runs.*  A call of `refundWithRetry` makes up to three attempts, and after an
attempt that succeeds the record is `refunded` and further attempts do nothing.
Any number of calls is therefore one run of attempts (`run_refundCall`). The
amount goes down once for every attempt whose locking read and whose move go
through (`moves`), so the record protects the amount as long as there is only
one of them.
-/

namespace NewApi

open Runs (run run_nil run_cons run_append)

/-! ## Calls and attempts -/

/-- What the environment decides about the three attempts of one call. -/
structure RetryEnv where
  first : RefundEnv
  second : RefundEnv
  third : RefundEnv

def RetryEnv.attempts (env : RetryEnv) : List RefundEnv := [env.first, env.second, env.third]

def refundAttempt (requestId : String) (db : SubscriptionDb) (env : RefundEnv) : SubscriptionDb :=
  (refundSubscriptionPreConsume env requestId db).2

/-- The database after one call of `SubscriptionFunding.Refund`. -/
def refundCall (requestId : String) (db : SubscriptionDb) (env : RetryEnv) : SubscriptionDb :=
  (refundWithRetry requestId env.attempts (.ok (), db)).2

/-- The record of the request id is marked as refunded. -/
def SubscriptionDb.Refunded (db : SubscriptionDb) (requestId : String) : Prop :=
  ∃ record, db.records.find requestId = some record ∧ record.status = .refunded

variable {db : SubscriptionDb} {requestId : String}

theorem markRefunded_ok (fault : Option String) {record : SubscriptionPreConsumeRecord}
    {db' : SubscriptionDb} (hfind : db.records.find requestId = some record)
    (h : markRefunded fault record db = (.ok (), db')) : db'.Refunded requestId := by
  have hid : record.requestId = requestId := Table.find_key hfind
  cases fault with
  | some err => cases h
  | none =>
    cases h
    refine ⟨{ record with status := .refunded }, ?_, rfl⟩
    simp [Table.find_save, hid, hfind]

theorem refund_ok_refunded {env : RefundEnv} {db' : SubscriptionDb}
    (h : refundSubscriptionPreConsume env requestId db = (.ok (), db')) :
    db'.Refunded requestId := by
  rw [refundSubscriptionPreConsume] at h
  split at h
  · cases h
  split at h
  · cases h
  · cases h
  next record _ hfind =>
  split at h
  next hstatus =>
    obtain rfl : db = db' := congrArg Prod.snd h
    exact ⟨record, hfind, hstatus⟩
  split at h
  · exact markRefunded_ok _ hfind h
  rcases postConsumeUserSubscriptionDelta_spec env.move record.userSubscriptionId
    (-record.preConsumed) db with ⟨err, he⟩ | ⟨db₁, he, hrecords, -, -⟩ <;> rw [he] at h
  · cases h
  · exact markRefunded_ok _ (hrecords ▸ hfind) h

theorem refundAttempt_refunded (h : db.Refunded requestId) (env : RefundEnv) :
    refundAttempt requestId db env = db := by
  obtain ⟨record, hfind, hstatus⟩ := h
  rw [refundAttempt, refundSubscriptionPreConsume]
  split
  · rfl
  · cases hread : env.read <;> simp [hfind, hstatus]

theorem run_refunded (h : db.Refunded requestId) (envs : List RefundEnv) :
    run (refundAttempt requestId) db envs = db := by
  induction envs with
  | nil => rfl
  | cons env envs ih => rw [run_cons, refundAttempt_refunded h, ih]

/-- The attempts that the loop leaves out would not change anything. -/
theorem refundWithRetry_run (requestId : String) (envs : List RefundEnv) :
    ∀ (res : Except String Unit) (db : SubscriptionDb),
      (refundWithRetry requestId envs (res, db)).2 = run (refundAttempt requestId) db envs := by
  induction envs with
  | nil => intro res db; rfl
  | cons env envs ih =>
    intro res db
    rw [refundWithRetry, run_cons]
    have hdef : refundAttempt requestId db env =
      (refundSubscriptionPreConsume env requestId db).2 := rfl
    cases h : refundSubscriptionPreConsume env requestId db with
    | mk out db' =>
      rw [h] at hdef
      cases out with
      | error err => rw [hdef]; exact ih _ db'
      | ok u => rw [hdef, run_refunded (refund_ok_refunded h)]

theorem run_refundCall (requestId : String) (calls : List RetryEnv) :
    ∀ db : SubscriptionDb, run (refundCall requestId) db calls =
      run (refundAttempt requestId) db (calls.flatMap RetryEnv.attempts) := by
  induction calls with
  | nil => intro db; rfl
  | cons env calls ih =>
    intro db
    rw [run_cons, List.flatMap_cons, run_append, ih, refundCall, refundWithRetry_run]

/-! ## What the attempts do -/

/-- How many attempts lower the used amount, for a pattern of failures: those
whose read and move go through, up to the first one that also saves the
record. -/
def moves : List RefundEnv → Nat
  | [] => 0
  | env :: envs =>
    if env.read.isSome ∨ env.move.isSome then moves envs
    else if env.mark.isSome then moves envs + 1
    else 1

def completes (envs : List RefundEnv) : Prop :=
  ∃ env ∈ envs, env.read = none ∧ env.move = none ∧ env.mark = none

theorem one_le_moves {envs : List RefundEnv} (h : completes envs) : 1 ≤ moves envs := by
  induction envs with
  | nil => obtain ⟨env, hmem, -⟩ := h; cases hmem
  | cons env envs ih =>
    rw [moves]
    split
    next hfail =>
      refine ih ?_
      obtain ⟨e, hmem, hread, hmove, hmark⟩ := h
      rcases List.mem_cons.mp hmem with rfl | hmem
      · simp [hread, hmove] at hfail
      · exact ⟨e, hmem, hread, hmove, hmark⟩
    · split <;> omega

/-- The record is open and its amount can be taken off the subscription. -/
structure Movable (requestId : String) (record : SubscriptionPreConsumeRecord)
    (db : SubscriptionDb) : Prop where
  named : blank requestId = false
  consumed : record.status = .consumed
  positive : 0 < record.preConsumed
  subscription : 0 < record.userSubscriptionId
  /-- The row is there, and is not so far over its total that lowering it is refused. -/
  row : ∃ sub, db.subs.find record.userSubscriptionId = some sub ∧
    ¬(0 < sub.amountTotal ∧ sub.amountTotal < max (sub.amountUsed + -record.preConsumed) 0)

section

variable {requestId : String} {record : SubscriptionPreConsumeRecord} {db : SubscriptionDb}

theorem Movable.move (h : Movable requestId record db) :
    ∃ db', postConsumeUserSubscriptionDelta none record.userSubscriptionId
      (-record.preConsumed) db =
        (.ok (), db') ∧ db'.records = db.records ∧ Movable requestId record db' ∧
      db'.used record.userSubscriptionId =
        max (db.used record.userSubscriptionId - record.preConsumed) 0 := by
  obtain ⟨sub, hsub, hroom⟩ := h.row
  have hpos := h.positive
  have hid : sub.id = record.userSubscriptionId := Table.find_key hsub
  have hne : ¬ -record.preConsumed = 0 := by omega
  have hid' : ¬ record.userSubscriptionId ≤ 0 := Int.not_le.mpr h.subscription
  have hmove : postConsumeUserSubscriptionDelta none record.userSubscriptionId (-record.preConsumed)
      db = (.ok (), { db with subs := db.subs.save { sub with
        amountUsed := (max (sub.amountUsed + -record.preConsumed) 0).toNat } }) := by
    simp only [postConsumeUserSubscriptionDelta, if_neg hid', if_neg hne, hsub, if_neg hroom]
  refine ⟨_, hmove, rfl, { h with row := ?_ }, ?_⟩
  · refine ⟨{ sub with amountUsed := (max (sub.amountUsed + -record.preConsumed) 0).toNat }, ?_, ?_⟩
    · simp [Table.find_save, hid, hsub]
    · dsimp only
      omega
  · rw [← hid] at hsub ⊢
    rw [used_save hsub, if_pos rfl, SubscriptionDb.used, hsub]
    dsimp only
    omega

section

variable (hfind : db.records.find requestId = some record)

include hfind

/-- An attempt that fails before the amount is moved changes nothing. -/
theorem refundAttempt_failed {env : RefundEnv}
    (hmov : Movable requestId record db) (hfail : env.read.isSome ∨ env.move.isSome) :
    refundAttempt requestId db env = db := by
  have hne : ¬ record.status = .refunded := by simp [hmov.consumed]
  have hpos : ¬ record.preConsumed ≤ 0 := Int.not_le.mpr hmov.positive
  rw [refundAttempt, refundSubscriptionPreConsume, if_neg (by simp [hmov.named])]
  cases hread : env.read with
  | some err => rfl
  | none =>
    simp only [hread, Option.isSome_none, Bool.false_eq_true, false_or] at hfail
    obtain ⟨err, herr⟩ := Option.isSome_iff_exists.mp hfail
    simp only [hfind, if_neg hne, if_neg hpos, herr]
    rcases postConsumeUserSubscriptionDelta_spec (some err) record.userSubscriptionId
      (-record.preConsumed) db with ⟨e, he⟩ | ⟨db₁, he, -⟩
    · rw [he]
    · have hzero : ¬ -record.preConsumed = 0 := by omega
      simp [postConsumeUserSubscriptionDelta, hzero, Int.not_le.mpr hmov.subscription] at he

theorem refundAttempt_moved {env : RefundEnv}
    (hmov : Movable requestId record db) (hread : env.read = none) (hmove : env.move = none) :
    (refundAttempt requestId db env).used record.userSubscriptionId =
        max (db.used record.userSubscriptionId - record.preConsumed) 0 ∧
      (env.mark = none → (refundAttempt requestId db env).Refunded requestId) ∧
      (env.mark ≠ none → (refundAttempt requestId db env).records.find requestId = some record ∧
        Movable requestId record (refundAttempt requestId db env)) := by
  have hne : ¬ record.status = .refunded := by simp [hmov.consumed]
  have hpos : ¬ record.preConsumed ≤ 0 := Int.not_le.mpr hmov.positive
  obtain ⟨db₁, hdelta, hrecords, hmov₁, hused⟩ := hmov.move
  have hfind₁ : db₁.records.find requestId = some record := by rw [hrecords]; exact hfind
  have hattempt : refundAttempt requestId db env = (markRefunded env.mark record db₁).2 := by
    rw [refundAttempt, refundSubscriptionPreConsume, if_neg (by simp [hmov.named])]
    simp only [hread, hfind, if_neg hne, if_neg hpos, hmove, hdelta]
  rw [hattempt]
  cases hmark : env.mark with
  | some err =>
    refine ⟨hused, by simp, ?_⟩
    intro _
    exact ⟨hfind₁, hmov₁⟩
  | none =>
    refine ⟨hused, ?_, by simp⟩
    intro _
    exact markRefunded_ok none hfind₁ rfl

theorem not_refunded (hstatus : record.status = .consumed) : ¬ db.Refunded requestId := by
  rintro ⟨other, hother, hrefunded⟩
  rw [hfind] at hother
  cases hother
  cases hstatus.symm.trans hrefunded

end

/-- A run of attempts lowers the used amount once for every move, and ends
refunded when one attempt has no failure. -/
theorem run_refundAttempt (envs : List RefundEnv) :
    ∀ {db : SubscriptionDb}, db.records.find requestId = some record → Movable requestId record db →
      (run (refundAttempt requestId) db envs).used record.userSubscriptionId =
          max (db.used record.userSubscriptionId - moves envs * record.preConsumed) 0 ∧
        ((run (refundAttempt requestId) db envs).Refunded requestId → completes envs) := by
  induction envs with intro db hfind hmov
  | nil =>
    have hnonneg := db.used_nonneg record.userSubscriptionId
    refine ⟨by simp only [run_nil, moves]; omega, ?_⟩
    intro h
    exact absurd h (not_refunded hfind hmov.consumed)
  | cons env envs ih =>
    rw [run_cons, moves]
    by_cases hfail : env.read.isSome ∨ env.move.isSome
    · obtain ⟨hused, hdone⟩ := ih hfind hmov
      rw [refundAttempt_failed hfind hmov hfail, if_pos hfail]
      refine ⟨hused, ?_⟩
      intro h
      obtain ⟨e, hmem, hcalm⟩ := hdone h
      exact ⟨e, List.mem_cons_of_mem _ hmem, hcalm⟩
    · rw [if_neg hfail]
      simp only [not_or, Option.not_isSome_iff_eq_none] at hfail
      obtain ⟨hused, hdone, hopen⟩ := refundAttempt_moved hfind hmov hfail.1 hfail.2
      cases hmark : env.mark with
      | none =>
        rw [run_refunded (hdone hmark), hused]
        refine ⟨by simp, ?_⟩
        intro _
        exact ⟨env, by simp, hfail.1, hfail.2, hmark⟩
      | some err =>
        obtain ⟨hfind', hmov'⟩ := hopen (by simp [hmark])
        obtain ⟨hrest, hrefunded⟩ := ih hfind' hmov'
        have hpos := hmov.positive
        rw [hrest, hused]
        refine ⟨?_, ?_⟩
        · have hmul : ((moves envs + 1 : Nat) : Int) * record.preConsumed =
              moves envs * record.preConsumed + record.preConsumed := by
            rw [Int.natCast_add, Int.add_mul]
            simp
          have hprod : 0 ≤ (moves envs : Int) * record.preConsumed :=
            Int.mul_nonneg (by omega) (by omega)
          simp only [Option.isSome_some, if_true, hmul]
          omega
        · intro h
          obtain ⟨e, hmem, hcalm⟩ := hrefunded h
          exact ⟨e, List.mem_cons_of_mem _ hmem, hcalm⟩

theorem postConsumeUserSubscriptionDelta_row {fault : Option String} {id delta : Int}
    {db' : SubscriptionDb} (hdelta : delta ≠ 0)
    (h : postConsumeUserSubscriptionDelta fault id delta db = (.ok (), db')) :
    0 < id ∧ ∃ sub, db.subs.find id = some sub ∧
      ¬(0 < sub.amountTotal ∧ sub.amountTotal < max (sub.amountUsed + delta) 0) := by
  unfold postConsumeUserSubscriptionDelta at h
  split at h
  · cases h
  next hid =>
  split at h
  · cases h
  split at h
  · cases h
  next sub hsub =>
  dsimp only at h
  split at h
  · cases h
  next hroom => exact ⟨Int.not_le.mp hid, sub, hsub, hroom⟩

theorem refundAttempt_stuck (hfind : db.records.find requestId = some record)
    (hmov : ¬ Movable requestId record db) (env : RefundEnv) :
    refundAttempt requestId db env = db ∨
      (record.preConsumed ≤ 0 ∧ (refundAttempt requestId db env).Refunded requestId ∧
        ∀ id, (refundAttempt requestId db env).used id = db.used id) := by
  rw [refundAttempt, refundSubscriptionPreConsume]
  split
  · exact .inl rfl
  next hblank =>
  cases env.read with
  | some err => exact .inl rfl
  | none =>
    simp only [hfind]
    split
    · exact .inl rfl
    next hstatus =>
    split
    next hzero =>
      cases env.mark with
      | some err => exact .inl rfl
      | none => exact .inr ⟨hzero, markRefunded_ok none hfind rfl, fun _ => rfl⟩
    next hpos =>
    have hpos' : 0 < record.preConsumed := Int.not_le.mp hpos
    rcases postConsumeUserSubscriptionDelta_spec env.move record.userSubscriptionId
      (-record.preConsumed) db with ⟨err, he⟩ | ⟨db₁, he, -⟩
    · rw [he]
      exact .inl rfl
    obtain ⟨hid, hrow⟩ := postConsumeUserSubscriptionDelta_row (by omega) he
    have hconsumed : record.status = .consumed := by
      cases hs : record.status with
      | consumed => rfl
      | refunded => exact absurd hs hstatus
    exact absurd ⟨by simpa using hblank, hconsumed, hpos', hid, hrow⟩ hmov

theorem run_refundAttempt_stuck (hfind : db.records.find requestId = some record)
    (hmov : ¬ Movable requestId record db) (envs : List RefundEnv) :
    (∀ id, (run (refundAttempt requestId) db envs).used id = db.used id) ∧
      ((run (refundAttempt requestId) db envs).Refunded requestId →
        record.status = .refunded ∨ record.preConsumed ≤ 0) := by
  induction envs with
  | nil =>
    refine ⟨fun _ => rfl, ?_⟩
    rintro ⟨other, hother, hrefunded⟩
    rw [run_nil, hfind] at hother
    cases hother
    exact .inl hrefunded
  | cons env envs ih =>
    rw [run_cons]
    rcases refundAttempt_stuck hfind hmov env with hkeep | ⟨hzero, hrefunded, hused⟩
    · rw [hkeep]
      exact ih
    · rw [run_refunded hrefunded]
      exact ⟨hused, fun _ => .inr hzero⟩

/-! ## The amount goes down once -/

/-- What the record promises for the states before and after any number of
calls: the used amount goes down by at most the recorded amount, and by exactly
that, down to 0, when an open record ends as refunded. -/
structure RefundedOnce (requestId : String) (record : SubscriptionPreConsumeRecord)
    (db db' : SubscriptionDb) : Prop where
  atMost : db.used record.userSubscriptionId - db'.used record.userSubscriptionId ≤
    max record.preConsumed 0
  exactly : record.status = .consumed → db'.Refunded requestId →
    db.used record.userSubscriptionId - db'.used record.userSubscriptionId =
      min (db.used record.userSubscriptionId) (max record.preConsumed 0)

/-- The promise is kept exactly when the failures let at most one attempt lower
the used amount, or when that amount is no more than the recorded one. -/
theorem refundCalls_once_iff (hfind : db.records.find requestId = some record)
    (calls : List RetryEnv) :
    RefundedOnce requestId record db (run (refundCall requestId) db calls) ↔
      (Movable requestId record db →
        db.used record.userSubscriptionId ≤ record.preConsumed ∨
          moves (calls.flatMap RetryEnv.attempts) ≤ 1) := by
  rw [run_refundCall]
  generalize calls.flatMap RetryEnv.attempts = envs
  have hnonneg := db.used_nonneg record.userSubscriptionId
  by_cases hmov : Movable requestId record db
  · have hpos := hmov.positive
    obtain ⟨hused, hdone⟩ := run_refundAttempt envs hfind hmov
    have hmany : 2 ≤ moves envs → 2 * record.preConsumed ≤ moves envs * record.preConsumed := by
      intro h
      exact Int.mul_le_mul_of_nonneg_right (by omega) (by omega)
    constructor
    · rintro ⟨hle, -⟩ _
      by_contra hno
      have := hmany (by omega)
      omega
    · intro hcond
      have hfew : moves envs = 0 ∨ moves envs = 1 ∨ 2 ≤ moves envs := by omega
      refine ⟨?_, ?_⟩
      · rcases hfew with h | h | h
        · rw [h] at hused; omega
        · rw [h] at hused; omega
        · have := hcond hmov; omega
      · intro _ hrefunded
        have hone := one_le_moves (hdone hrefunded)
        rcases hfew with h | h | h
        · omega
        · rw [h] at hused; omega
        · have := hcond hmov
          have := hmany h
          omega
  · obtain ⟨hused, hdone⟩ := run_refundAttempt_stuck hfind hmov envs
    refine iff_of_true ⟨?_, ?_⟩ (fun h => absurd h hmov)
    · rw [hused]; omega
    · intro hconsumed hrefunded
      rw [hused]
      rcases hdone hrefunded with h | h
      · rw [hconsumed] at h; cases h
      · omega

end

/-- A subscription with 100 of 1000 used, 40 of it by the request `r`. -/
def refundSample : SubscriptionDb where
  subs := ⟨[⟨7, 1, 3, 1000, 100, 0, 5000, .active, 0, 0, true, "", "", ""⟩], by decide⟩
  plans := .empty
  records := ⟨[⟨"r", 1, 7, 40, .consumed⟩], by decide⟩

/-- The locking read fails, then the inner transaction, then nothing. -/
def refundLate : RetryEnv := ⟨⟨some "timeout", none, none⟩, ⟨none, some "deadlock", none⟩, .calm⟩

/-- The record cannot be saved in the first attempt. -/
def refundUnsaved : RetryEnv := ⟨⟨none, none, some "timeout"⟩, .calm, .calm⟩

theorem refundCalls_once_late : refundSample.records.find "r" = some ⟨"r", 1, 7, 40, .consumed⟩ ∧
    RefundedOnce "r" ⟨"r", 1, 7, 40, .consumed⟩ refundSample
      (run (refundCall "r") refundSample [refundLate, refundLate]) :=
  ⟨by decide, (refundCalls_once_iff (by decide) [refundLate, refundLate]).mpr
    fun _ => .inr (by decide)⟩

/-- One call lowers the used amount by 80 for a record of 40, and ends refunded. -/
theorem refundCall_unsaved_twice :
    refundSample.used 7 = 100 ∧ (refundCall "r" refundSample refundUnsaved).used 7 = 20 ∧
      (refundCall "r" refundSample refundUnsaved).records.find "r" =
        some ⟨"r", 1, 7, 40, .refunded⟩ ∧
      ¬ RefundedOnce "r" ⟨"r", 1, 7, 40, .consumed⟩ refundSample
        (run (refundCall "r") refundSample [refundUnsaved]) := by
  refine ⟨by decide, by decide, by decide, ?_⟩
  intro h
  exact absurd h.atMost (by decide)

end NewApi
