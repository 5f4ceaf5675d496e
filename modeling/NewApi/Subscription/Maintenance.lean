import NewApi.Subscription.Resets
import NewApi.Subscription.Schedule

/-!
# The maintenance pass

`runSubscriptionQuotaResetOnce` calls `ResetDueSubscriptions(300)` until a call
counts fewer rows than it asked for. It relies on a counted row not being due
any more. A row is counted when it was locked, and it stays due when the reset
keeps it: when the plan has no reset period any more, or when the boundary after
the base under the plan as it is now has not come.

`Renews` is the condition under which a due row is not kept. If every due row
meets it, each full batch makes the number of due rows smaller, and the loop ends
(`resetLoopRuns_ends`). With a batch of rows that do not meet it the loop never
ends (`runResetLoop_stuck`).
-/

namespace NewApi

/-! ## The loop of the pass -/

/-- `subscriptionResetBatchSize`. -/
def subscriptionResetBatchSize : Nat := 300

/-- The reset loop of `runSubscriptionQuotaResetOnce`, with a bound on its calls. -/
def runResetLoop (nextReset : NextReset) (env : ResetEnv) : Nat → SubscriptionDb →
    Option SubscriptionDb
  | 0, _ => none
  | calls + 1, db =>
    match resetDueSubscriptions nextReset env subscriptionResetBatchSize db with
    | none => none
    | some (_, some _, db) => some db
    | some (count, none, db) =>
      if count = 0 then some db
      else if count < subscriptionResetBatchSize then some db
      else runResetLoop nextReset env calls db

/-- The loop ends: with enough calls and enough rounds for each walk it has a
result. -/
def ResetLoopEnds (nextReset : NextReset) (env : ResetEnv) (db : SubscriptionDb) : Prop :=
  ∃ bound, ∀ calls rounds, bound ≤ calls → bound ≤ rounds →
    (runResetLoop nextReset { env with rounds := rounds } calls db).isSome

/-! ## Rows that are cleared -/

/-- The transaction of a row ends, counts the row, and the row is not due any
more. -/
def Cleared (nextReset : NextReset) (now : Int) (plan : SubscriptionPlan) (id : Int)
    (db : SubscriptionDb) : Prop :=
  ∃ rounds db' sub', resetDueRow nextReset (.calm now rounds) plan id db = some (.ok true, db') ∧
    db'.subs.find id = some sub' ∧ ¬ Due now sub'.nextResetTime

/-- The plan has a reset period, its boundary after the base has come, and its
boundaries leave the past. -/
structure Renews (nextReset : NextReset) (plan : SubscriptionPlan) (now : Int)
    (sub : UserSubscription) : Prop where
  period : plan.quotaResetPeriod ≠ .never
  reached : Due now (firstBoundary nextReset plan sub)
  ends : ∃ n, ¬ Due now ((boundaryAfter nextReset plan sub)^[n] (firstBoundary nextReset plan sub))

section

variable {nextReset : NextReset} {plan : SubscriptionPlan} {now : Int} {sub : UserSubscription}

/-- A reset of a due row that renews leaves the row not due, and renews exactly
when the boundary after the base has come. -/
theorem ResetMove.not_due_iff {sub' : UserSubscription} (h : ResetMove nextReset plan now sub sub')
    (hdue : Due now sub.nextResetTime) :
    ¬ Due now sub'.nextResetTime ↔
      plan.quotaResetPeriod ≠ .never ∧ Due now (firstBoundary nextReset plan sub) := by
  obtain ⟨hpos, hle⟩ := hdue
  cases h with
  | kept hkept =>
    refine iff_of_false (fun h => h ⟨hpos, hle⟩) ?_
    rintro ⟨hperiod, hreached⟩
    rcases hkept with ⟨-, hlater⟩ | hnever | hno
    · omega
    · exact hperiod hnever
    · exact hno hreached
  | scheduled hzero => omega
  | renewed _ hperiod hwalk => exact iff_of_true hwalk.not_due_next ⟨hperiod, hwalk.due⟩

theorem Renews.isSome (h : Renews nextReset plan now sub) :
    ∃ bound, ∀ rounds, bound ≤ rounds →
      (maybeResetUserSubscription nextReset rounds plan now sub).isSome := by
  obtain ⟨n, hn⟩ := h.ends
  exact ⟨n + 1, fun rounds hrounds => maybeResetUserSubscription_isSome hrounds hn⟩

theorem cleared_iff {db : SubscriptionDb} (hfind : db.subs.find sub.id = some sub)
    (hdue : Due now sub.nextResetTime) :
    Cleared nextReset now plan sub.id db ↔ Renews nextReset plan now sub := by
  constructor
  · rintro ⟨rounds, db', sub', hrow, hfind', hnot⟩
    rw [resetDueRow_due plan rfl hfind hdue] at hrow
    obtain ⟨out, hreset, hout⟩ := Option.map_eq_some_iff.mp hrow
    have hid : out.id = sub.id := (maybeResetUserSubscription_spec hreset).2.1
    have hmove := maybeResetUserSubscription_move hreset
    cases hout
    obtain rfl : out = sub' := by simpa [Table.find_save, hid, hfind] using hfind'
    obtain ⟨hperiod, hreached⟩ := (hmove.not_due_iff hdue).mp hnot
    refine ⟨hperiod, hreached, ?_⟩
    cases hmove with
    | kept => exact absurd hdue hnot
    | scheduled hzero => exact absurd hdue.1 (by omega)
    | renewed _ _ hwalk => exact hwalk.exists_not_due
  · intro h
    obtain ⟨rounds, hrounds⟩ := h.isSome
    obtain ⟨out, hout⟩ := Option.isSome_iff_exists.mp (hrounds rounds (Nat.le_refl _))
    have hid : out.id = sub.id := (maybeResetUserSubscription_spec hout).2.1
    refine ⟨rounds, { db with subs := db.subs.save out }, out, ?_, ?_, ?_⟩
    · rw [resetDueRow_due plan rfl hfind hdue]
      simp only [ResetEnv.calm, hout]
      rfl
    · simp [Table.find_save, hid, hfind]
    · exact ((maybeResetUserSubscription_move hout).not_due_iff hdue).mpr ⟨h.period, h.reached⟩

end

/-! ## The loop ends -/

def dueCount (now : Int) (db : SubscriptionDb) : Nat := db.subs.rows.countP (selected now)

def AllRenew (nextReset : NextReset) (now : Int) (db : SubscriptionDb) : Prop :=
  ∀ sub ∈ db.subs.rows, sub.status = .active → Due now sub.nextResetTime →
    ∀ plan, db.plans.find sub.planId = some plan → Renews nextReset plan now sub

/-- The walk of every due row with a plan fits the rounds. -/
def AllReset (nextReset : NextReset) (env : ResetEnv) (db : SubscriptionDb) : Prop :=
  ∀ sub ∈ db.subs.rows, sub.status = .active → Due env.now sub.nextResetTime →
    ∀ plan, db.plans.find sub.planId = some plan →
      (maybeResetUserSubscription nextReset env.rounds plan env.now sub).isSome

/-- The second database has fewer due rows, by the count, and no new ones. -/
structure Progress (now : Int) (count : Nat) (db db' : SubscriptionDb) : Prop where
  plans : db'.plans = db.plans
  rows : ∀ sub ∈ db'.subs.rows, sub ∈ db.subs.rows ∨ ¬ Due now sub.nextResetTime
  fewer : dueCount now db' + count ≤ dueCount now db

section

variable {nextReset : NextReset} {env : ResetEnv} {db db' : SubscriptionDb}

theorem Progress.refl (now : Int) (db : SubscriptionDb) : Progress now 0 db db :=
  ⟨rfl, fun _ h => .inl h, Nat.le_refl _⟩

theorem Progress.trans {now : Int} {m n : Nat} {db₁ db₂ db₃ : SubscriptionDb}
    (h : Progress now m db₁ db₂) (h' : Progress now n db₂ db₃) : Progress now (m + n) db₁ db₃ where
  plans := h'.plans.trans h.plans
  rows sub hsub := by
    rcases h'.rows sub hsub with hold | hnot
    · exact h.rows sub hold
    · exact .inr hnot
  fewer := by
    have h1 := h.fewer
    have h2 := h'.fewer
    omega

theorem Progress.allRenew {now : Int} {n : Nat} (h : Progress now n db db')
    (hall : AllRenew nextReset now db) : AllRenew nextReset now db' := by
  intro sub hsub hactive hdue plan hplan
  rcases h.rows sub hsub with hold | hnot
  · exact hall sub hold hactive hdue plan (h.plans ▸ hplan)
  · exact absurd hdue hnot

theorem Progress.allReset {n : Nat} (h : Progress env.now n db db')
    (hall : AllReset nextReset env db) : AllReset nextReset env db' := by
  intro sub hsub hactive hdue plan hplan
  rcases h.rows sub hsub with hold | hnot
  · exact hall sub hold hactive hdue plan (h.plans ▸ hplan)
  · exact absurd hdue hnot

theorem progress_renew {plan : SubscriptionPlan} {sub out : UserSubscription}
    (hfind : db.subs.find sub.id = some sub) (hactive : sub.status = .active)
    (hdue : Due env.now sub.nextResetTime) (hrenews : Renews nextReset plan env.now sub)
    (hout : maybeResetUserSubscription nextReset env.rounds plan env.now sub = some out) :
    Progress env.now 1 db { db with subs := db.subs.save out } := by
  have hid : out.id = sub.id := (maybeResetUserSubscription_spec hout).2.1
  have hnot : ¬ Due env.now out.nextResetTime :=
    ((maybeResetUserSubscription_move hout).not_due_iff hdue).mpr ⟨hrenews.period, hrenews.reached⟩
  refine ⟨rfl, ?_, ?_⟩
  · exact Table.forall_save (.inr hnot) fun x hold _ => .inl hold
  · have hcount := Table.countP_save (t := db.subs) (p := selected env.now) (r := out) (x := sub)
      (by rw [hid]; exact hfind) (by simp [selected, hdue, hactive]) (by simp [selected, hnot])
    exact Nat.le_of_eq hcount

/-- A call on due rows that all renew has a result, and each row it counts is
progress. -/
theorem resetDueRows_progress (rows : List UserSubscription) :
    ∀ {db : SubscriptionDb} (count : Nat), AllRenew nextReset env.now db →
      AllReset nextReset env db → (rows.map UserSubscription.id).Nodup →
      (∀ sub ∈ rows, sub ∈ db.subs.rows ∧ Due env.now sub.nextResetTime ∧ sub.status = .active) →
      ∃ n err db', resetDueRows nextReset env rows count db = some (count + n, err, db') ∧
        Progress env.now n db db' := by
  induction rows with
  | nil =>
    intro db count _ _ _ _
    exact ⟨0, none, db, rfl, .refl env.now db⟩
  | cons sub rest ih =>
    intro db count hrenew hreset hnodup hrows
    rw [List.map_cons, List.nodup_cons] at hnodup
    obtain ⟨hmem, hdue, hactive⟩ := hrows sub (by simp)
    have hfind := Table.find_of_mem hmem
    have hrest : ∀ x ∈ rest, x ∈ db.subs.rows ∧ Due env.now x.nextResetTime ∧ x.status = .active :=
      fun x hx => hrows x (List.mem_cons_of_mem _ hx)
    rw [resetDueRows]
    cases hplan : db.plans.find sub.planId with
    | none => exact ih count hrenew hreset hnodup.2 hrest
    | some plan =>
      dsimp only
      cases hfault : env.fault sub.id with
      | some err => exact ⟨0, some err, db, by simp [resetDueRow, hfault], .refl env.now db⟩
      | none =>
        obtain ⟨out, hout⟩ := Option.isSome_iff_exists.mp (hreset sub hmem hactive hdue plan hplan)
        have hid : out.id = sub.id := (maybeResetUserSubscription_spec hout).2.1
        have hone := progress_renew hfind hactive hdue
          (hrenew sub hmem hactive hdue plan hplan) hout
        rw [resetDueRow_due plan hfault hfind hdue, hout]
        -- The rows still to come have other ids, so they are as selected.
        have hrest' : ∀ x ∈ rest, x ∈ (db.subs.save out).rows ∧
            Due env.now x.nextResetTime ∧ x.status = .active := by
          intro x hx
          obtain ⟨hxmem, hxdue⟩ := hrest x hx
          have hne : out.id ≠ x.id := fun he =>
            hnodup.1 (by rw [← hid, he]; exact List.mem_map_of_mem hx)
          refine ⟨?_, hxdue⟩
          have hx' := Table.find_of_mem hxmem
          rw [← Table.find_save_of_ne (t := db.subs) hne] at hx'
          exact Table.find_mem hx'
        obtain ⟨n, err, db', hrun, hprogress⟩ := ih (count + 1) (hone.allRenew hrenew)
          (hone.allReset hreset) hnodup.2 hrest'
        refine ⟨1 + n, err, db', ?_, hone.trans hprogress⟩
        simpa [Nat.add_assoc] using hrun

/-- Every full batch leaves fewer due rows, so the number of due rows bounds the
number of calls. -/
theorem runResetLoop_isSome (calls : Nat) :
    ∀ {db : SubscriptionDb}, AllRenew nextReset env.now db → AllReset nextReset env db →
      dueCount env.now db < calls → (runResetLoop nextReset env calls db).isSome := by
  induction calls with
  | zero => intro db _ _ h; omega
  | succ calls ih =>
    intro db hrenew hreset hcalls
    rw [runResetLoop, resetDueSubscriptions]
    cases env.query with
    | some err => rfl
    | none =>
      obtain ⟨n, err, db', hrun, hprogress⟩ := resetDueRows_progress
        (dueSubscriptions db.subs env.now subscriptionResetBatchSize) 0 hrenew hreset
        (nodup_dueSubscriptions _ _ _) (fun sub hsub => mem_dueSubscriptions hsub)
      have hlimit : (if subscriptionResetBatchSize = 0 then 200 else subscriptionResetBatchSize) =
        subscriptionResetBatchSize := rfl
      simp only [hlimit, hrun]
      cases err with
      | some err => rfl
      | none =>
        dsimp only
        split
        · rfl
        split
        · rfl
        next hpos _ =>
          have := hprogress.fewer
          exact ih (hprogress.allRenew hrenew) (hprogress.allReset hreset) (by omega)

end

theorem exists_common_bound {α : Type*} {p : α → Nat → Prop} (l : List α)
    (h : ∀ x ∈ l, ∃ bound, ∀ n, bound ≤ n → p x n) : ∃ bound, ∀ x ∈ l, ∀ n, bound ≤ n → p x n := by
  induction l with
  | nil => exact ⟨0, fun _ hx => absurd hx (by simp)⟩
  | cons y ys ih =>
    obtain ⟨b, hb⟩ := h y (by simp)
    obtain ⟨c, hc⟩ := ih fun x hx => h x (List.mem_cons_of_mem _ hx)
    refine ⟨max b c, ?_⟩
    intro x hx n hn
    rcases List.mem_cons.mp hx with rfl | hx
    · exact hb n (by omega)
    · exact hc x hx n (by omega)

theorem resetLoopRuns_ends {nextReset : NextReset} (env : ResetEnv) {db : SubscriptionDb}
    (h : AllRenew nextReset env.now db) : ResetLoopEnds nextReset env db := by
  have hrow : ∀ sub ∈ db.subs.rows, ∃ bound, ∀ rounds, bound ≤ rounds → sub.status = .active →
      Due env.now sub.nextResetTime → ∀ plan, db.plans.find sub.planId = some plan →
        (maybeResetUserSubscription nextReset rounds plan env.now sub).isSome := by
    intro sub hsub
    by_cases hnone : ∃ plan, sub.status = .active ∧ Due env.now sub.nextResetTime ∧
        db.plans.find sub.planId = some plan
    · obtain ⟨plan, hactive, hdue, hplan⟩ := hnone
      obtain ⟨bound, hbound⟩ := (h sub hsub hactive hdue plan hplan).isSome
      refine ⟨bound, ?_⟩
      intro rounds hrounds _ _ other hother
      obtain rfl : plan = other := Option.some.inj (hplan.symm.trans hother)
      exact hbound rounds hrounds
    · refine ⟨0, ?_⟩
      intro _ _ hactive hdue plan hplan
      exact absurd ⟨plan, hactive, hdue, hplan⟩ hnone
  obtain ⟨bound, hbound⟩ := exists_common_bound db.subs.rows hrow
  refine ⟨max bound (dueCount env.now db + 1), ?_⟩
  intro calls rounds hcalls hrounds
  refine @runResetLoop_isSome nextReset { env with rounds := rounds } calls db h ?_ ?_
  · intro sub hsub hactive hdue plan hplan
    exact hbound sub hsub rounds (by omega) hactive hdue plan hplan
  · show dueCount env.now db < calls
    omega

/-- Every row that a call processes is not due any more, and the loop ends,
exactly when the plan of every due row renews it. -/
theorem maintenance_ends_iff (loc : Calendar.Location) (env : ResetEnv) (db : SubscriptionDb) :
    ((∀ sub ∈ db.subs.rows, sub.status = .active → Due env.now sub.nextResetTime →
        ∀ plan, db.plans.find sub.planId = some plan →
          Cleared (calcNextResetTime loc) env.now plan sub.id db) ∧
      ResetLoopEnds (calcNextResetTime loc) env db) ↔
    AllRenew (calcNextResetTime loc) env.now db := by
  constructor
  · rintro ⟨hcleared, -⟩ sub hsub hactive hdue plan hplan
    exact (cleared_iff (Table.find_of_mem hsub) hdue).mp (hcleared sub hsub hactive hdue plan hplan)
  · intro h
    refine ⟨?_, resetLoopRuns_ends env h⟩
    intro sub hsub hactive hdue plan hplan
    exact (cleared_iff (Table.find_of_mem hsub) hdue).mpr (h sub hsub hactive hdue plan hplan)

/-! ## A loop that does not end -/

section

variable {nextReset : NextReset} {now : Int} {rounds : Nat} {db : SubscriptionDb}

theorem resetDueRow_never {plan : SubscriptionPlan} {sub : UserSubscription}
    (hnever : plan.quotaResetPeriod = .never) (hfind : db.subs.find sub.id = some sub)
    (hdue : Due now sub.nextResetTime) :
    resetDueRow nextReset (.calm now rounds) plan sub.id db = some (.ok true, db) := by
  have hreset : maybeResetUserSubscription nextReset rounds plan now sub = some sub := by
    have hpast : ¬(0 < sub.nextResetTime ∧ now < sub.nextResetTime) := by
      have := hdue.2
      omega
    rw [maybeResetUserSubscription_eq, if_neg hpast, if_pos hnever]
  rw [resetDueRow_due plan rfl hfind hdue]
  simp only [ResetEnv.calm, hreset, Option.map_some, Table.save_self hfind]

theorem resetDueRows_never (rows : List UserSubscription) :
    ∀ count, (∀ sub ∈ rows, db.subs.find sub.id = some sub ∧ Due now sub.nextResetTime ∧
      ∃ plan, db.plans.find sub.planId = some plan ∧ plan.quotaResetPeriod = .never) →
      resetDueRows nextReset (.calm now rounds) rows count db =
        some (count + rows.length, none, db) := by
  induction rows with
  | nil => intro count _; rfl
  | cons sub rest ih =>
    intro count hrows
    obtain ⟨hfind, hdue, plan, hplan, hnever⟩ := hrows sub (by simp)
    rw [resetDueRows, hplan]
    simp only [resetDueRow_never hnever hfind hdue]
    rw [ih (count + 1) fun x hx => hrows x (List.mem_cons_of_mem _ hx), List.length_cons]
    simp only [Nat.add_assoc, Nat.add_comm 1]

/-- A full batch of due rows whose plans have no period any more keeps the loop
going for ever. -/
theorem runResetLoop_stuck (hmany : subscriptionResetBatchSize ≤ dueCount now db)
    (hnever : ∀ sub ∈ db.subs.rows, Due now sub.nextResetTime →
      ∃ plan, db.plans.find sub.planId = some plan ∧ plan.quotaResetPeriod = .never) (calls : Nat) :
    runResetLoop nextReset (.calm now rounds) calls db = none := by
  have hlength : (dueSubscriptions db.subs now subscriptionResetBatchSize).length =
      subscriptionResetBatchSize := by
    rw [dueSubscriptions, List.length_take, List.length_insertionSort,
      ← List.countP_eq_length_filter]
    exact Nat.min_eq_left hmany
  have hbatch : resetDueSubscriptions nextReset (.calm now rounds) subscriptionResetBatchSize db =
      some (subscriptionResetBatchSize, none, db) := by
    have hrun := @resetDueRows_never nextReset now rounds db
      (dueSubscriptions db.subs now subscriptionResetBatchSize) 0 (fun sub hsub => by
        obtain ⟨hmem, hdue, -⟩ := mem_dueSubscriptions hsub
        exact ⟨Table.find_of_mem hmem, hdue, hnever sub hmem hdue⟩)
    rw [hlength, Nat.zero_add] at hrun
    exact hrun
  induction calls with
  | zero => rfl
  | succ calls ih =>
    rw [runResetLoop, hbatch]
    exact ih

end

/-- A subscription that a daily plan made due at 100. -/
def dueSample (id : Nat) : UserSubscription where
  id := id
  userId := id
  planId := 1
  amountTotal := 10
  amountUsed := 5
  startTime := 10
  endTime := 100000
  status := .active
  lastResetTime := 10
  nextResetTime := 100
  allowWalletOverflow := true

theorem dueSample_nodup (n : Nat) :
    (((List.range n).map dueSample).map UserSubscription.id).Nodup := by
  rw [List.map_map]
  refine List.nodup_range.map ?_
  intro i j h
  exact Int.ofNat.inj h

/-- So many due subscriptions of a plan that has the given period now. -/
def dueSamples (n : Nat) (period : ResetPeriod) : SubscriptionDb where
  subs := ⟨(List.range n).map dueSample, dueSample_nodup n⟩
  plans := ⟨[{ id := 1, title := "", quotaResetPeriod := period, quotaResetCustomSeconds := 50 }],
    by simp⟩
  records := .empty

/-- 300 due subscriptions of a plan that was edited to `never`: a processed row
stays due, and no number of calls ends the loop. -/
theorem maintenance_never_ends :
    ¬ Cleared (calcNextResetTime (.fixed 0)) 200
        { id := 1, title := "", quotaResetPeriod := .never, quotaResetCustomSeconds := 50 } 0
        (dueSamples 300 .never) ∧
      (∀ calls rounds, runResetLoop (calcNextResetTime (.fixed 0)) (.calm 200 rounds) calls
        (dueSamples 300 .never) = none) ∧
      ¬ ResetLoopEnds (calcNextResetTime (.fixed 0)) (.calm 200 0) (dueSamples 300 .never) := by
  have hrow : (dueSamples 300 .never).subs.find (dueSample 0).id = some (dueSample 0) :=
    Table.find_of_mem (List.mem_map_of_mem (by simp))
  have hcount : subscriptionResetBatchSize ≤ dueCount 200 (dueSamples 300 .never) := by
    have hall : ∀ sub ∈ (List.range 300).map dueSample, selected 200 sub = true := by
      intro sub hsub
      obtain ⟨i, -, rfl⟩ := List.mem_map.mp hsub
      rfl
    have := List.countP_eq_length.mpr hall
    rw [dueCount, dueSamples, this, List.length_map, List.length_range]
    exact Nat.le_refl _
  have hloop : ∀ calls rounds, runResetLoop (calcNextResetTime (.fixed 0)) (.calm 200 rounds) calls
      (dueSamples 300 .never) = none := by
    intro calls rounds
    refine runResetLoop_stuck hcount ?_ calls
    intro sub hsub _
    obtain ⟨i, -, rfl⟩ := List.mem_map.mp hsub
    exact ⟨_, rfl, rfl⟩
  refine ⟨?_, hloop, ?_⟩
  · intro h
    exact ((cleared_iff hrow (by decide)).mp h).period rfl
  · rintro ⟨bound, hbound⟩
    have := hbound bound bound (Nat.le_refl _) (Nat.le_refl _)
    rw [show ({ ResetEnv.calm 200 0 with rounds := bound } : ResetEnv) = .calm 200 bound from rfl,
      hloop] at this
    cases this

end NewApi
