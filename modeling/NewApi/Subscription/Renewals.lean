import NewApi.Subscription.Admin
import NewApi.Subscription.Ledger

/-!
# Renewals and the schedule

An automatic reset may renew a subscription only at a boundary of its schedule. The *anchor* is the
latest of the creation, the last boundary an automatic reset applied and the last administrator
reset that advanced the reset time. The row does not store it, but the last and the next reset
time, with 0 for the start. `RowMove` says what one call can do to the row: keep the base of the
walk, renew at a boundary, or restart the schedule.

The base of the row and the anchor agree up to `Phase`, which is enough: a renewal needs a boundary
after the base that has come, and then the boundary after the anchor has come as well. An advancing
reset with no boundary left before the end writes 0, so the next automatic reset walks from the
start and renews the row in the middle of a period.
-/

namespace NewApi

open Calendar (Location)

/-! ## Calls -/

/-- The calls that move the reset times or the used amount of a subscription. -/
inductive RenewalAction
  | preConsume (env : SubscriptionEnv) (requestId : String) (userId amount : Int)
  | postConsume (fault : Option String) (subscription delta : Int)
  /-- The transaction of one row of `ResetDueSubscriptions`. -/
  | resetRow (env : ResetEnv) (subscription : Int)
  | resetUser (fault : Option String) (userId : Int) (r : AdminReset)
  | resetPlan (fault : Option String) (r : AdminReset)

/-- The time of a call. A difference has none of its own. -/
def RenewalAction.now (clock : Int) : RenewalAction → Int
  | .preConsume env _ _ _ => env.now
  | .postConsume .. => clock
  | .resetRow env _ => env.now
  | .resetUser _ _ r => r.now
  | .resetPlan _ r => r.now

variable (nextReset : NextReset)

/-- The row transaction with the plan of the row. -/
def resetRowWithPlan (env : ResetEnv) (id : Int) (db : SubscriptionDb) :
    Option (Except String Bool × SubscriptionDb) :=
  match db.subs.find id with
  | none => some (.ok false, db)
  | some sub =>
    match db.plans.find sub.planId with
    | none => some (.ok false, db)
    | some plan => resetDueRow nextReset env plan id db

/-- The system after a call. A call whose reset walks too far changes nothing. -/
def RenewalAction.apply (s : SubscriptionSystem) : RenewalAction → SubscriptionSystem
  | .preConsume env requestId userId amount =>
    match preConsumeUserSubscription nextReset env requestId userId amount s.db with
    | none => s
    | some (_, db) => { s with db := db }
  | .postConsume fault id delta =>
    { s with db := (postConsumeUserSubscriptionDelta fault id delta s.db).2 }
  | .resetRow env id =>
    match resetRowWithPlan nextReset env id s.db with
    | none => s
    | some (_, db) => { s with db := db }
  | .resetUser fault userId r => (adminResetUserSubscriptionsByPlan nextReset fault userId r s).2
  | .resetPlan fault r => (adminResetPlanSubscriptions nextReset fault r s).2

/-- Whether a call renews a subscription automatically. -/
def RenewalAction.renews (nextReset : NextReset) (id : Int) (s : SubscriptionSystem) :
    RenewalAction → Bool
  | .preConsume env requestId userId amount =>
    match preConsumeUserSubscription nextReset env requestId userId amount s.db with
    | some (.ok _, _) => (s.db.records.find requestId).isNone &&
        decide (id ∈ renewals nextReset env amount s.db.plans
          (activeSubscriptions s.db.subs userId env.now))
    | _ => false
  | .resetRow env j =>
    match resetRowWithPlan nextReset env j s.db, s.db.subs.find j with
    | some (.ok true, _), some sub =>
      match s.db.plans.find sub.planId with
      | some plan => decide (j = id) && NewApi.renews nextReset env.rounds plan env.now sub
      | none => false
    | _, _ => false
  | _ => false

/-- Whether a call asks to advance the reset time of a subscription it takes. -/
def RenewalAction.advances (id : Int) (s : SubscriptionSystem) : RenewalAction → Bool
  | .resetUser _ userId r => r.advanceResetTime && (s.db.subs.find id).any (r.ofUser userId)
  | .resetPlan _ r => r.advanceResetTime && (s.db.subs.find id).any (r.ofManageable s.users)
  | _ => false

/-- Whether a call advances the reset time of a subscription. -/
def RenewalAction.restarts (id : Int) (s : SubscriptionSystem) (a : RenewalAction) : Bool :=
  a.advances id s && match a with
    | .resetUser fault userId r =>
      (adminResetUserSubscriptionsByPlan nextReset fault userId r s).1.toBool
    | .resetPlan fault r => (adminResetPlanSubscriptions nextReset fault r s).1.toBool
    | _ => false

/-! ## Runs with the anchor -/

/-- The system with the times that make up the anchor of one subscription. -/
structure RenewalState where
  system : SubscriptionSystem
  (clock created : Int)
  /-- The last boundary that an automatic reset applied, the creation at first. -/
  applied : Int
  /-- The last advancing administrator reset, the creation at first. -/
  advanced : Int

def RenewalState.start (created : Int) (s : SubscriptionSystem) : RenewalState :=
  ⟨s, created, created, created, created⟩

/-- The latest of the creation, the last applied boundary and the last advance. -/
def RenewalState.anchor (s : RenewalState) : Int := max s.created (max s.applied s.advanced)

def lastResetOf (s : SubscriptionSystem) (id : Int) : Int :=
  match s.db.subs.find id with
  | none => 0
  | some sub => sub.lastResetTime

def RenewalState.step (id : Int) (s : RenewalState) (a : RenewalAction) : RenewalState :=
  let system := a.apply nextReset s.system
  { s with
    system := system
    clock := a.now s.clock
    applied := if a.renews nextReset id s.system then lastResetOf system id else s.applied
    advanced := if a.restarts nextReset id s.system then a.now s.clock else s.advanced }

/-- The calls come at times that do not decrease. -/
def Timely (s : RenewalState) (a : RenewalAction) : Prop := s.clock ≤ a.now s.clock

/-- An advancing reset that takes the subscription finds a boundary before its
end, or there never was one. -/
def KeepsBoundary (next : Int → Int) (id : Int) (s : RenewalState) (a : RenewalAction) : Prop :=
  a.advances id s.system = true → 0 < next (a.now s.clock) ∨ next s.created ≤ 0

instance (s : RenewalState) (a : RenewalAction) : Decidable (Timely s a) :=
  inferInstanceAs (Decidable (_ ≤ _))

instance (next : Int → Int) (id : Int) (s : RenewalState) (a : RenewalAction) :
    Decidable (KeepsBoundary next id s a) := inferInstanceAs (Decidable (_ → _))

/-! ## What a call does to the row -/

/-- What a row is of, and from when to when. -/
structure SameSchedule (row row' : UserSubscription) : Prop where
  startTime : row'.startTime = row.startTime
  endTime : row'.endTime = row.endTime
  planId : row'.planId = row.planId

/-- What a call can do to a row, by whether it renews and whether it restarts it. -/
inductive RowMove (nextReset : NextReset) (plan : SubscriptionPlan) (now : Int)
    (row : UserSubscription) : Bool → Bool → UserSubscription → Prop
  | kept {row' : UserSubscription} : SameSchedule row row' → resetBase row' = resetBase row →
      RowMove nextReset plan now row false false row'
  | renewed {row' : UserSubscription} : SameSchedule row row' →
      Walk (boundaryAfter nextReset plan row) now (firstBoundary nextReset plan row)
        row'.lastResetTime → RowMove nextReset plan now row true false row'
  | restarted {row' : UserSubscription} : SameSchedule row row' →
      row'.lastResetTime = (if 0 < boundaryAfter nextReset plan row now then now else 0) →
      RowMove nextReset plan now row false true row'

section

variable {nextReset : NextReset} {plan : SubscriptionPlan} {row : UserSubscription}

theorem RowMove.refl (now : Int) : RowMove nextReset plan now row false false row :=
  .kept ⟨rfl, rfl, rfl⟩ rfl

theorem RowMove.of_reset {rounds : Nat} {now : Int} {sub : UserSubscription}
    (h : maybeResetUserSubscription nextReset rounds plan now row = some sub) :
    RowMove nextReset plan now row (renews nextReset rounds plan now row) false sub := by
  rcases renews_spec h with ⟨hrenews, b, hwalk, rfl⟩ | ⟨hrenews, rfl | rfl⟩ <;> rw [hrenews]
  · exact .renewed ⟨rfl, rfl, rfl⟩ hwalk
  · exact .refl now
  · refine .kept ⟨rfl, rfl, rfl⟩ ?_
    by_cases hlast : row.lastResetTime ≤ 0 <;> simp [resetBase, hlast]

theorem RowMove.used {now : Int} {renewed restarted : Bool} {row' : UserSubscription} (used : Nat)
    (h : RowMove nextReset plan now row renewed restarted row') :
    RowMove nextReset plan now row renewed restarted { row' with amountUsed := used } := by
  cases h with
  | kept hsame hbase => exact .kept ⟨hsame.1, hsame.2, hsame.3⟩ hbase
  | renewed hsame hwalk => exact .renewed ⟨hsame.1, hsame.2, hsame.3⟩ hwalk
  | restarted hsame hlast => exact .restarted ⟨hsame.1, hsame.2, hsame.3⟩ hlast

theorem RowMove.of_touched {env : SubscriptionEnv} {plans : Table SubscriptionPlan.id}
    {renewed : Bool} {sub : UserSubscription} (hplan : plans.find row.planId = some plan)
    (h : Touched nextReset env plans row renewed sub) :
    RowMove nextReset plan env.now row renewed false sub := by
  cases h with
  | untouched => exact .refl env.now
  | reset hfound hsub =>
    obtain rfl := Option.some.inj (hplan.symm.trans hfound)
    exact .of_reset hsub

theorem RowMove.of_taken {env : SubscriptionEnv} {plans : Table SubscriptionPlan.id} {amount : Int}
    {renewed charged : Bool} {row' : UserSubscription} (hplan : plans.find row.planId = some plan)
    (h : RowTaken nextReset env plans amount renewed row charged row') :
    RowMove nextReset plan env.now row renewed false row' := by
  cases h with
  | passed htouched => exact .of_touched hplan htouched
  | charged htouched _ => exact (RowMove.of_touched hplan htouched).used _

theorem RowMove.of_admin (r : AdminReset) :
    RowMove nextReset plan r.now row false r.advanceResetTime
      (resetUserSubscription nextReset plan r.now r.advanceResetTime row) := by
  cases r.advanceResetTime with
  | false => exact (RowMove.refl r.now).used 0
  | true => exact .restarted ⟨rfl, rfl, rfl⟩ rfl

variable {s : SubscriptionSystem} {id : Int}

section

variable (hrow : s.db.subs.find id = some row)

include hrow

variable (hplan : s.db.plans.find row.planId = some plan)

include hplan in
theorem preConsume_move (env : SubscriptionEnv) (requestId : String) (userId amount : Int) :
    let a := RenewalAction.preConsume env requestId userId amount
    ∃ row', (a.apply nextReset s).db.subs.find id = some row' ∧
      RowMove nextReset plan env.now row (a.renews nextReset id s) false row' := by
  simp only [RenewalAction.apply, RenewalAction.renews]
  cases hcall : preConsumeUserSubscription nextReset env requestId userId amount s.db with
  | none => exact ⟨row, hrow, .refl env.now⟩
  | some out =>
    obtain ⟨out, db⟩ := out
    cases out with
    | error err =>
      obtain rfl := preConsumeUserSubscription_error hcall
      exact ⟨row, hrow, .refl env.now⟩
    | ok result =>
      cases hfresh : s.db.records.find requestId with
      | some existing =>
        obtain rfl := preConsumeUserSubscription_known hcall hfresh
        exact ⟨row, hrow, .refl env.now⟩
      | none =>
        obtain ⟨row', hrow', htaken⟩ := preConsumeUserSubscription_taken hfresh hcall hrow
        exact ⟨row', hrow', .of_taken hplan htaken⟩

theorem postConsume_move (now : Int) (fault : Option String) (j delta : Int) :
    ∃ row', ((RenewalAction.postConsume fault j delta).apply nextReset s).db.subs.find id =
        some row' ∧ RowMove nextReset plan now row false false row' := by
  simp only [RenewalAction.apply, postConsumeUserSubscriptionDelta]
  split
  · exact ⟨row, hrow, .refl now⟩
  split
  · exact ⟨row, hrow, .refl now⟩
  split
  · exact ⟨row, hrow, .refl now⟩
  split
  · exact ⟨row, hrow, .refl now⟩
  next sub hsub =>
  split
  · exact ⟨row, hrow, .refl now⟩
  have hid : sub.id = j := Table.find_key hsub
  refine Table.exists_find_save hsub hid hrow ?_ fun _ => .refl now
  rintro - rfl
  exact (RowMove.refl now).used _

include hplan in
theorem resetRow_move (env : ResetEnv) (j : Int) :
    ∃ row', ((RenewalAction.resetRow env j).apply nextReset s).db.subs.find id = some row' ∧
      RowMove nextReset plan env.now row
        ((RenewalAction.resetRow env j).renews nextReset id s) false row' := by
  simp only [RenewalAction.apply, RenewalAction.renews, resetRowWithPlan]
  cases hsub : s.db.subs.find j with
  | none => exact ⟨row, hrow, .refl env.now⟩
  | some sub =>
  cases hfound : s.db.plans.find sub.planId with
  | none => simpa [hfound] using ⟨row, hrow, RowMove.refl env.now⟩
  | some plan' =>
  simp only [hfound]
  cases hcall : resetDueRow nextReset env plan' j s.db with
  | none => exact ⟨row, hrow, .refl env.now⟩
  | some out =>
  obtain ⟨out, db⟩ := out
  rcases resetDueRow_spec hcall with ⟨hout, rfl⟩ | ⟨rfl, locked, next, hlocked, hreset, rfl⟩
  · refine ⟨row, hrow, ?_⟩
    split
    next hok _ => exact absurd (congrArg (·.1) (Option.some.inj hok)) hout
    · exact .refl env.now
  · obtain rfl : sub = locked := Option.some.inj (hsub.symm.trans hlocked)
    have hid := (maybeResetUserSubscription_spec hreset).2.1.trans (Table.find_key hsub)
    refine Table.exists_find_save hsub hid hrow ?_ ?_
    · rintro rfl rfl
      obtain rfl : plan = plan' := Option.some.inj (hplan.symm.trans hfound)
      simpa [hplan] using RowMove.of_reset hreset
    · intro hj
      simpa [hj, hfound] using RowMove.refl env.now

include hplan in
theorem admin_move {r : AdminReset} {select : UserSubscription → Bool}
    (hselect : select row = true → row.planId = r.planId)
    {out : Except String SubscriptionResetResult × SubscriptionSystem}
    (h : AdminResetOutcome nextReset r select s out) :
    ∃ row', out.2.db.subs.find id = some row' ∧ RowMove nextReset plan r.now row false
      ((r.advanceResetTime && (s.db.subs.find id).any select) && out.1.toBool) row' := by
  cases h with
  | failed err => exact ⟨row, hrow, by simpa [Except.toBool] using RowMove.refl r.now⟩
  | @done found result hfound =>
    refine ⟨_, by rw [find_resetSelected, hrow]; rfl, ?_⟩
    cases hsel : select row with
    | false => simpa [hrow, hsel] using RowMove.refl r.now
    | true =>
      obtain rfl : plan = found := by
        rw [hselect hsel, hfound] at hplan
        exact (Option.some.inj hplan).symm
      simpa [hrow, hsel, Except.toBool] using RowMove.of_admin r

end

theorem AdminReset.planId_of_ofPlan {r : AdminReset} (h : r.ofPlan row = true) :
    row.planId = r.planId := by
  simp only [AdminReset.ofPlan, decide_eq_true_eq] at h
  exact h.1

theorem RenewalAction.move (hrow : s.db.subs.find id = some row)
    (hplan : s.db.plans.find row.planId = some plan) (clock : Int) (a : RenewalAction) :
    ∃ row', (a.apply nextReset s).db.subs.find id = some row' ∧
      RowMove nextReset plan (a.now clock) row (a.renews nextReset id s)
        (a.restarts nextReset id s) row' := by
  cases a with
  | preConsume env requestId userId amount =>
    exact preConsume_move hrow hplan env requestId userId amount
  | postConsume fault j delta => exact postConsume_move hrow clock fault j delta
  | resetRow env j => exact resetRow_move hrow hplan env j
  | resetUser fault userId r =>
    refine admin_move hrow hplan ?_ (adminResetUserSubscriptionsByPlan_outcome _ r fault userId s)
    intro h
    simp only [AdminReset.ofUser, Bool.and_eq_true] at h
    exact AdminReset.planId_of_ofPlan h.2
  | resetPlan fault r =>
    refine admin_move hrow hplan ?_ (adminResetPlanSubscriptions_outcome _ r fault s)
    intro h
    simp only [AdminReset.ofManageable, Bool.and_eq_true] at h
    exact AdminReset.planId_of_ofPlan h.1

variable {db db' : SubscriptionDb}

theorem preConsumeUserSubscription_plans {env : SubscriptionEnv} {requestId : String}
    {userId amount : Int} {out : Except String SubscriptionPreConsumeResult}
    (h : preConsumeUserSubscription nextReset env requestId userId amount db = some (out, db')) :
    db'.plans = db.plans := by
  cases out with
  | error err => rw [preConsumeUserSubscription_error h]
  | ok result =>
    cases hfresh : db.records.find requestId with
    | some existing => rw [preConsumeUserSubscription_known h hfresh]
    | none =>
      obtain ⟨-, -, hcharged⟩ := preConsumeUserSubscription_charged h hfresh
      obtain ⟨db₁, sub, hreset, -, -, -, hplans, -⟩ := hcharged.taken
      exact hplans.trans hreset.plans

theorem resetDueRow_plans {env : ResetEnv} {j : Int} {out : Except String Bool}
    (h : resetDueRow nextReset env plan j db = some (out, db')) : db'.plans = db.plans := by
  rcases resetDueRow_spec h with ⟨-, rfl⟩ | ⟨-, _, _, -, -, rfl⟩ <;> rfl

theorem resetRowWithPlan_plans {env : ResetEnv} {j : Int} {out : Except String Bool}
    (h : resetRowWithPlan nextReset env j db = some (out, db')) : db'.plans = db.plans := by
  rw [resetRowWithPlan] at h
  split at h
  · cases h
    rfl
  split at h
  · cases h
    rfl
  · exact resetDueRow_plans h

theorem RenewalAction.plans (a : RenewalAction) : (a.apply nextReset s).db.plans = s.db.plans := by
  cases a with
  | preConsume env requestId userId amount =>
    simp only [apply]
    split
    · rfl
    next hcall => exact preConsumeUserSubscription_plans hcall
  | postConsume fault j delta =>
    rcases postConsumeUserSubscriptionDelta_spec fault j delta s.db with
      ⟨err, h⟩ | ⟨db', h, -, hplans, -⟩
    · simp only [apply, h]
    · simpa only [apply, h] using hplans
  | resetRow env j =>
    simp only [apply]
    split
    · rfl
    next hcall => exact resetRowWithPlan_plans hcall
  | resetUser fault userId r =>
    exact (adminResetUserSubscriptionsByPlan_outcome nextReset r fault userId s).plans
  | resetPlan fault r => exact (adminResetPlanSubscriptions_outcome nextReset r fault s).plans

theorem resetDueRow_planId {env : ResetEnv} {j x : Int} {y : UserSubscription}
    {out : Except String Bool} (h : resetDueRow nextReset env plan j db = some (out, db'))
    (hy : db.subs.find x = some y) : ∃ z, db'.subs.find x = some z ∧ z.planId = y.planId := by
  rcases resetDueRow_spec h with ⟨-, rfl⟩ | ⟨-, locked, sub, hfind, hreset, rfl⟩
  · exact ⟨y, hy, rfl⟩
  have hid := (maybeResetUserSubscription_spec hreset).2.1.trans (Table.find_key hfind)
  refine Table.exists_find_save hfind hid hy ?_ fun _ => rfl
  rintro - rfl
  rcases renews_spec hreset with ⟨-, b, -, rfl⟩ | ⟨-, rfl | rfl⟩ <;> rfl

/-- The loop over the due rows is a run of row transactions, up to the one that fails. -/
theorem resetDueRows_run {env : ResetEnv} {rows : List UserSubscription} {count count' : Nat}
    {err : Option String} (hrows : ∀ x ∈ rows, ∃ y, s.db.subs.find x.id = some y ∧
      y.planId = x.planId)
    (h : resetDueRows nextReset env rows count s.db = some (count', err, db')) :
    ∃ ids : List Int, Runs.run (RenewalAction.apply nextReset) s (ids.map (.resetRow env)) =
      { s with db := db' } := by
  induction rows generalizing s count with
  | nil =>
    cases h
    exact ⟨[], rfl⟩
  | cons sub rest ih =>
    obtain ⟨⟨row, hfind, hsame⟩, hrest⟩ := List.forall_mem_cons.mp hrows
    rw [resetDueRows] at h
    split at h
    · exact ih hrest h
    next plan hplan =>
    have happly : ∀ {out db}, resetDueRow nextReset env plan sub.id s.db = some (out, db) →
        (RenewalAction.resetRow env sub.id).apply nextReset s = { s with db := db } := by
      intro out db hcall
      simp only [RenewalAction.apply, resetRowWithPlan, hfind, hsame, hplan, hcall]
    have hgo : ∀ {out db n}, resetDueRow nextReset env plan sub.id s.db = some (out, db) →
        resetDueRows nextReset env rest n db = some (count', err, db') →
        ∃ ids : List Int, Runs.run (RenewalAction.apply nextReset) s (ids.map (.resetRow env)) =
          { s with db := db' } := by
      intro out db n hcall hn
      obtain ⟨ids, hids⟩ := @ih { s with db := db } n (fun x hx => by
        obtain ⟨y, hy, hxy⟩ := hrest x hx
        obtain ⟨z, hz, hyz⟩ := resetDueRow_planId hcall hy
        exact ⟨z, hz, hyz.trans hxy⟩) hn
      exact ⟨sub.id :: ids, by rw [List.map_cons, Runs.run_cons, happly hcall, hids]⟩
    split at h
    · cases h
    next hcall =>
      cases h
      exact ⟨[sub.id], happly hcall⟩
    next hcall => exact hgo hcall h
    next hcall => exact hgo hcall h

/-- `ResetDueSubscriptions` is a run of row transactions at its time. -/
theorem resetDueSubscriptions_run {env : ResetEnv} {limit count : Nat} {err : Option String}
    (h : resetDueSubscriptions nextReset env limit s.db = some (count, err, db')) :
    ∃ ids : List Int, Runs.run (RenewalAction.apply nextReset) s (ids.map (.resetRow env)) =
      { s with db := db' } := by
  rw [resetDueSubscriptions] at h
  split at h
  · cases h
    exact ⟨[], rfl⟩
  · exact resetDueRows_run
      (fun sub hsub => ⟨sub, Table.find_of_mem (mem_dueSubscriptions hsub).1, rfl⟩) h

end

/-! ## The base and the anchor -/

/-- How the base of a row stands to the two times of its anchor. -/
inductive Phase (next : Int → Int) (clock applied advanced base : Int) : Prop
  | fresh : base = advanced → applied ≤ advanced → Phase next clock applied advanced base
  | passed : next advanced ≠ 0 → next advanced ≤ clock → applied ≤ advanced ∨ base = applied →
      Phase next clock applied advanced base
  | ended : next base ≤ 0 → Phase next clock applied advanced base

section

variable {next : Int → Int} {clock now applied advanced base : Int}

section

variable (h : Phase next clock applied advanced base) (hnow : clock ≤ now)

include h hnow

theorem Phase.later : Phase next now applied advanced base := by
  cases h with
  | fresh hbase hle => exact .fresh hbase hle
  | passed hne hle hbase => exact .passed hne (by omega) hbase
  | ended hend => exact .ended hend

/-- When the boundary after the base has come, so has the one after the anchor. -/
theorem Phase.anchor_come (hdue : Due now (next base)) :
    next (max applied advanced) ≠ 0 ∧ next (max applied advanced) ≤ now := by
  obtain ⟨hpos, hle⟩ := hdue
  cases h with
  | fresh hbase happlied =>
    rw [max_eq_right happlied, ← hbase]
    exact ⟨by omega, hle⟩
  | passed hne hcome hbase =>
    rcases le_total applied advanced with happlied | hadvanced
    · rw [max_eq_right happlied]
      exact ⟨hne, by omega⟩
    rw [max_eq_left hadvanced]
    rcases hbase with happlied | rfl
    · rw [le_antisymm happlied hadvanced]
      exact ⟨hne, by omega⟩
    · exact ⟨by omega, hle⟩
  | ended hend => omega

theorem Phase.renewed (hdue : Due now (next base)) (b : Int) : Phase next now b advanced b := by
  obtain ⟨hpos, hle⟩ := hdue
  cases h with
  | fresh hbase _ =>
    rw [hbase] at hpos hle
    exact .passed (by omega) hle (.inr rfl)
  | passed hne hcome _ => exact .passed hne (by omega) (.inr rfl)
  | ended hend => omega

end

theorem Walk.le_of_climbs (hclimbs : Climbs next) {first last : Int}
    (h : Walk next now first last) : first ≤ last := by
  induction h with
  | last _ _ => exact le_rfl
  | @step b last _ hwalk ih =>
    rcases hclimbs b with hzero | hlt
    · have := hwalk.due.1
      omega
    · omega

end

/-- What holds of the tracked subscription throughout a run. -/
structure Anchored (nextReset : NextReset) (plan : SubscriptionPlan) (next : Int → Int) (id : Int)
    (row : UserSubscription) (s : RenewalState) : Prop where
  created_pos : 0 < s.created
  created_le : s.created ≤ s.advanced
  advanced_le : s.advanced ≤ s.clock
  applied_le : s.applied ≤ s.clock
  find : s.system.db.subs.find id = some row
  plan_eq : s.system.db.plans.find row.planId = some plan
  startTime : row.startTime = s.created
  next_eq : boundaryAfter nextReset plan row = next
  phase : Phase next s.clock s.applied s.advanced (resetBase row)
  climbs : Climbs next → resetBase row = max s.applied s.advanced ∨ next (resetBase row) ≤ 0

section

variable {nextReset : NextReset} {plan : SubscriptionPlan} {next : Int → Int} {id : Int}
  {row : UserSubscription} {s : RenewalState} (h : Anchored nextReset plan next id row s)

include h in
theorem Anchored.anchor_eq : s.anchor = max s.applied s.advanced := by
  have := h.created_le
  rw [RenewalState.anchor]
  omega

theorem SameSchedule.boundaryAfter_eq {row' : UserSubscription} (h : SameSchedule row row')
    (hnext : boundaryAfter nextReset plan row = next) :
    boundaryAfter nextReset plan row' = next := by
  rw [← hnext]
  funext b
  rw [boundaryAfter, boundaryAfter, h.endTime]

theorem resetBase_of_pos (h : 0 < row.lastResetTime) : resetBase row = row.lastResetTime := by
  rw [resetBase, if_neg (by omega)]

include h in
/-- A renewal happens at a boundary after the anchor and moves the anchor there. -/
theorem Anchored.renewed {now : Int} (hnow : s.clock ≤ now) {b : Int}
    (hwalk : Walk next now (next (resetBase row)) b) :
    next s.anchor ≠ 0 ∧ next s.anchor ≤ now ∧ Phase next now b s.advanced b ∧
      (Climbs next → s.anchor < b) := by
  rw [h.anchor_eq]
  obtain ⟨hne, hle⟩ := h.phase.anchor_come hnow hwalk.due
  refine ⟨hne, hle, h.phase.renewed hnow hwalk.due b, ?_⟩
  intro hclimbs
  have hb := hwalk.le_of_climbs hclimbs
  have hpos := hwalk.due.1
  rcases h.climbs hclimbs with hbase | hend
  · rcases hclimbs (resetBase row) with hzero | hlt <;> omega
  · omega

variable {a : RenewalAction}

theorem RenewalAction.advances_of_restarts {s : SubscriptionSystem}
    (h : a.restarts nextReset id s = true) : a.advances id s = true := by
  exact (Bool.and_eq_true_iff.mp h).1

include h in
theorem Anchored.of_move {row' : UserSubscription}
    (hfind : (a.apply nextReset s.system).db.subs.find id = some row')
    (hsame : SameSchedule row row') (hcreated : s.created ≤ (s.step nextReset id a).advanced)
    (hadvanced : (s.step nextReset id a).advanced ≤ a.now s.clock)
    (happlied : (s.step nextReset id a).applied ≤ a.now s.clock)
    (hphase : Phase next (a.now s.clock) (s.step nextReset id a).applied
      (s.step nextReset id a).advanced (resetBase row')) (hclimbs : Climbs next → resetBase row' =
      max (s.step nextReset id a).applied (s.step nextReset id a).advanced ∨
        next (resetBase row') ≤ 0) :
    Anchored nextReset plan next id row' (s.step nextReset id a) where
  created_pos := h.created_pos
  created_le := hcreated
  advanced_le := hadvanced
  applied_le := happlied
  find := hfind
  plan_eq := by
    show (a.apply nextReset s.system).db.plans.find row'.planId = some plan
    rw [a.plans, hsame.planId]
    exact h.plan_eq
  startTime := hsame.startTime.trans h.startTime
  next_eq := hsame.boundaryAfter_eq h.next_eq
  phase := hphase
  climbs := hclimbs

include h in
theorem Anchored.step (htime : Timely s a) (hkeeps : KeepsBoundary next id s a) :
    (∃ row', Anchored nextReset plan next id row' (s.step nextReset id a)) ∧
      (a.renews nextReset id s.system = true → next s.anchor ≠ 0 ∧ next s.anchor ≤ a.now s.clock ∧
        (Climbs next → s.anchor < (s.step nextReset id a).anchor)) := by
  obtain ⟨row', hrow', hmove⟩ :=
    @RenewalAction.move nextReset plan row s.system id h.find h.plan_eq s.clock a
  have htime' : s.clock ≤ a.now s.clock := htime
  have hpos := h.created_pos
  have hcl := h.created_le
  have hal := h.advanced_le
  have hpl := h.applied_le
  have happlied : (s.step nextReset id a).applied =
      if a.renews nextReset id s.system then row'.lastResetTime else s.applied := by
    simp only [RenewalState.step, lastResetOf, hrow']
  have hadvanced : (s.step nextReset id a).advanced =
      if a.restarts nextReset id s.system then a.now s.clock else s.advanced := rfl
  have hanchor : (s.step nextReset id a).applied ≤ (s.step nextReset id a).anchor := by
    rw [RenewalState.anchor]
    omega
  have hsound : a.restarts nextReset id s.system = true →
      0 < next (a.now s.clock) ∨ next s.created ≤ 0 :=
    fun hr => hkeeps (RenewalAction.advances_of_restarts hr)
  generalize a.renews nextReset id s.system = renewed at hmove happlied ⊢
  generalize a.restarts nextReset id s.system = restarted at hmove hadvanced hsound
  cases hmove with
  | kept hsame hbase =>
    simp only [Bool.false_eq_true, if_false] at happlied hadvanced
    refine ⟨⟨row', ?_⟩, fun hrenewed => absurd hrenewed Bool.false_ne_true⟩
    apply h.of_move hrow' hsame
    · omega
    · omega
    · omega
    · rw [happlied, hadvanced, hbase]
      exact h.phase.later htime'
    · rw [happlied, hadvanced, hbase]
      exact h.climbs
  | renewed hsame hwalk =>
    simp only [if_true, Bool.false_eq_true, if_false] at happlied hadvanced
    rw [firstBoundary, h.next_eq] at hwalk
    obtain ⟨hne, hle, hphase, hlater⟩ := h.renewed htime' hwalk
    have hbase := resetBase_of_pos hwalk.due_last.1
    have hlast := hwalk.due_last.2
    refine ⟨⟨row', ?_⟩, fun _ => ⟨hne, hle, fun hc => ?_⟩⟩
    · apply h.of_move hrow' hsame
      · omega
      · omega
      · omega
      · rw [happlied, hadvanced, hbase]
        exact hphase
      · intro hc
        have := hlater hc
        rw [h.anchor_eq] at this
        exact .inl (by omega)
    · have := hlater hc
      omega
  | restarted hsame hlast =>
    simp only [if_true, Bool.false_eq_true, if_false] at happlied hadvanced
    rw [h.next_eq] at hlast
    have hbase : (0 < next (a.now s.clock) ∧ resetBase row' = a.now s.clock) ∨
        next (resetBase row') ≤ 0 := by
      by_cases hnext : 0 < next (a.now s.clock)
      · rw [if_pos hnext] at hlast
        exact .inl ⟨hnext, (resetBase_of_pos (by omega)).trans hlast⟩
      rw [if_neg hnext] at hlast
      have hstart : resetBase row' = s.created := by
        rw [resetBase, if_pos (by omega), hsame.startTime, h.startTime]
      rw [hstart]
      exact .inr ((hsound rfl).resolve_left hnext)
    refine ⟨⟨row', ?_⟩, fun hrenewed => absurd hrenewed Bool.false_ne_true⟩
    apply h.of_move hrow' hsame
    · omega
    · omega
    · omega
    · rcases hbase with ⟨-, hbase⟩ | hend
      · exact .fresh (hbase.trans hadvanced.symm) (by omega)
      · exact .ended hend
    · intro _
      rcases hbase with ⟨-, hbase⟩ | hend
      · exact .inl (by omega)
      · exact .inr hend

end

/-! ## Renewals happen at boundaries -/

/-- From a purchase on, in calls at times that do not decrease and without a
stalled schedule, the boundary after the anchor exists and has come whenever an
automatic reset renews the subscription. When every boundary is later than its
base, the renewal moves the anchor forward, so no boundary renews twice. -/
theorem renewals_at_boundaries {loc : Location} {fault : Option String} {created userId : Int}
    {plan : SubscriptionPlan} {s₀ s : SubscriptionSystem} {sub : UserSubscription}
    (hcreate : createUserSubscriptionFromPlan loc fault created userId plan s₀ = (.ok sub, s))
    (hplan : s₀.db.plans.find plan.id = some plan) (hpos : 0 < created) (as : List RenewalAction)
    (has : Runs.Along (RenewalState.step (calcNextResetTime loc) sub.id)
      (fun t a => Timely t a ∧
        KeepsBoundary (boundaryAfter (calcNextResetTime loc) plan sub) sub.id t a)
      (.start created s) as) :
    Runs.Along (RenewalState.step (calcNextResetTime loc) sub.id)
      (fun t a => a.renews (calcNextResetTime loc) sub.id t.system = true →
        calcNextResetTime loc t.anchor plan sub.endTime ≠ 0 ∧
        calcNextResetTime loc t.anchor plan sub.endTime ≤ a.now t.clock ∧
        (Climbs (boundaryAfter (calcNextResetTime loc) plan sub) →
          t.anchor < (t.step (calcNextResetTime loc) sub.id a).anchor)) (.start created s) as := by
  have hc := createUserSubscriptionFromPlan_ok hcreate
  have hrow := hc.row
  have hstart : sub.startTime = created := by rw [hrow]; rfl
  have hplanId : sub.planId = plan.id := by rw [hrow]; rfl
  have hbase : resetBase sub = created := by
    have hlast : sub.lastResetTime = if 0 < calcNextResetTime loc created plan sub.endTime
        then created else 0 := by
      rw [hrow]
      rfl
    rw [resetBase, hlast, hstart]
    split <;> split <;> omega
  have hinit : Anchored (calcNextResetTime loc) plan
      (boundaryAfter (calcNextResetTime loc) plan sub) sub.id sub (.start created s) := by
    refine ⟨hpos, le_rfl, le_rfl, le_rfl, ?_, ?_, hstart, rfl, ?_, ?_⟩
    · show s.db.subs.find sub.id = some sub
      rw [Table.find_insert hc.subs, if_pos rfl]
    · show s.db.plans.find sub.planId = some plan
      rw [hc.plans, hplanId]
      exact hplan
    · exact .fresh hbase le_rfl
    · intro _
      exact .inl (hbase.trans (max_self created).symm)
  refine Runs.along_of_invariant
    (I := fun t => ∃ row, Anchored (calcNextResetTime loc) plan
      (boundaryAfter (calcNextResetTime loc) plan sub) sub.id row t) ?_ ⟨sub, hinit⟩ has
  rintro t a ⟨row, hrow⟩ ⟨htime, hkeeps⟩
  exact hrow.step htime hkeeps

/-- Days of 2025, counted from the first of January. -/
def dayOf2025 (n : Int) : Int := 1735689600 + n * 86400

/-- Renewed at the first of every month, until the middle of March. -/
def monthlyPlan : SubscriptionPlan where
  id := 1
  title := "monthly"
  quotaResetPeriod := .monthly
  quotaResetCustomSeconds := 0
  durationUnit := .day
  durationValue := 73
  totalAmount := 100

def monthlyShop : SubscriptionSystem where
  users := ⟨[⟨1, 1, "default"⟩], by decide⟩
  db := ⟨.empty, ⟨[monthlyPlan], by decide⟩, .empty⟩
  nextId := 1

/-- The subscription bought on the first of January. -/
def monthlySubscription : UserSubscription :=
  newSubscription (.fixed 0) (dayOf2025 0) 1 monthlyPlan 1 (dayOf2025 73) "default"

def monthlySold : SubscriptionSystem :=
  (createUserSubscriptionFromPlan (.fixed 0) none (dayOf2025 0) 1 monthlyPlan monthlyShop).2

theorem monthlySold_eq : createUserSubscriptionFromPlan (.fixed 0) none (dayOf2025 0) 1 monthlyPlan
    monthlyShop = (.ok monthlySubscription, monthlySold) := by
  refine Prod.ext ?_ rfl
  decide +kernel

/-- Requests in three months, with an advancing reset in February. -/
def monthlyRun : List RenewalAction :=
  [.preConsume ⟨dayOf2025 9, 5, none⟩ "a" 1 60, .preConsume ⟨dayOf2025 33, 5, none⟩ "b" 1 60,
    .resetPlan none ⟨dayOf2025 40, 1, true, 100⟩, .postConsume none 1 30,
    .resetRow (.calm (dayOf2025 60) 5) 1, .preConsume ⟨dayOf2025 61, 5, none⟩ "c" 1 60]

theorem renewals_at_boundaries_monthly :
    Runs.tally (RenewalState.step (calcNextResetTime (.fixed 0)) 1)
        (fun t a => a.renews (calcNextResetTime (.fixed 0)) 1 t.system)
        (.start (dayOf2025 0) monthlySold) monthlyRun = 2 ∧
      Runs.Along (RenewalState.step (calcNextResetTime (.fixed 0)) 1)
        (fun t a => a.renews (calcNextResetTime (.fixed 0)) 1 t.system = true →
          calcNextResetTime (.fixed 0) t.anchor monthlyPlan (dayOf2025 73) ≤ a.now t.clock)
        (.start (dayOf2025 0) monthlySold) monthlyRun := by
  have h := renewals_at_boundaries monthlySold_eq rfl (by decide) monthlyRun (by decide +kernel)
  refine ⟨by decide +kernel, ?_⟩
  exact Runs.Along.imp (fun t a himp hr => (himp hr).2.1) h

/-- An advancing reset in March finds no boundary before the end. The next request
renews the subscription, clears the 50 that were settled since and leaves its own
10, with no boundary after the anchor. -/
theorem renewal_within_stalled_period :
    let step := RenewalState.step (calcNextResetTime (.fixed 0)) 1
    let t := Runs.run step (.start (dayOf2025 0) monthlySold)
      [.resetUser none 1 ⟨dayOf2025 63, 1, true, 100⟩, .postConsume none 1 50]
    let a := RenewalAction.preConsume ⟨dayOf2025 64, 5, none⟩ "a" 1 10
    t.anchor = dayOf2025 63 ∧ calcNextResetTime (.fixed 0) t.anchor monthlyPlan (dayOf2025 73) = 0 ∧
      t.system.db.used 1 = 50 ∧ a.renews (calcNextResetTime (.fixed 0)) 1 t.system = true ∧
      (step t a).system.db.used 1 = 10 := by
  decide +kernel

end NewApi
