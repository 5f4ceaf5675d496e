import NewApi.Model.Subscription

/-!
# Automatic resets

A subscription whose reset time is due is brought up to date by walking the boundaries of its plan
from the last reset, or from the start. `ResetMove` says what that can do to a row: keep it, write
down its first boundary, or renew the amount, which depends only on the boundary after the base
(`firstBoundary`).

`ResetDueSubscriptions` selects due rows, locks and resets each of them in a transaction of its own,
and counts every row it has locked.
-/

namespace NewApi

def Due (now reset : Int) : Prop := 0 < reset ∧ reset ≤ now

instance (now reset : Int) : Decidable (Due now reset) := inferInstanceAs (Decidable (_ ∧ _))

/-- The time from which a reset walks the boundaries. -/
def resetBase (sub : UserSubscription) : Int :=
  if sub.lastResetTime ≤ 0 then sub.startTime else sub.lastResetTime

/-- The boundary after a base for a subscription of a plan. -/
def boundaryAfter (nextReset : NextReset) (plan : SubscriptionPlan) (sub : UserSubscription)
    (base : Int) : Int := nextReset base plan sub.endTime

/-- The boundary after the base of a subscription. -/
def firstBoundary (nextReset : NextReset) (plan : SubscriptionPlan) (sub : UserSubscription) :
    Int :=
  boundaryAfter nextReset plan sub (resetBase sub)

/-! ## The walk over the boundaries -/

section

variable {next : Int → Int} {now : Int}

/-- The walk goes on from `first` through boundaries that have come to `last`. -/
inductive Walk (next : Int → Int) (now : Int) : Int → Int → Prop
  | last {b : Int} : Due now b → ¬ Due now (next b) → Walk next now b b
  | step {b last : Int} : Due now b → Walk next now (next b) last → Walk next now b last

variable {first last : Int} (h : Walk next now first last)

include h in
theorem Walk.due : Due now first := by
  cases h with
  | last h _ => exact h
  | step h _ => exact h

include h in
theorem Walk.due_last : Due now last := by
  induction h with
  | last h _ => exact h
  | step _ _ ih => exact ih

include h in
theorem Walk.not_due_next : ¬ Due now (next last) := by
  induction h with
  | last _ h => exact h
  | step _ _ ih => exact ih

theorem resetLoop_spec {rounds : Nat} {moved advanced : Bool} {base upcoming b u : Int}
    (h : resetLoop next now rounds moved base upcoming = some (advanced, b, u)) :
    (¬ Due now upcoming ∧ advanced = moved ∧ b = base ∧ u = upcoming) ∨
      (advanced = true ∧ u = next b ∧ Walk next now upcoming b) := by
  induction rounds generalizing moved base upcoming with
  | zero => cases h
  | succ rounds ih =>
    rw [resetLoop] at h
    split at h
    next hdue =>
      rcases ih h with ⟨hstop, rfl, rfl, rfl⟩ | ⟨rfl, rfl, hwalk⟩
      · exact .inr ⟨rfl, rfl, .last hdue hstop⟩
      · exact .inr ⟨rfl, rfl, .step hdue hwalk⟩
    next hdue =>
      cases h
      exact .inl ⟨hdue, rfl, rfl, rfl⟩

theorem resetLoop_ends (moved : Bool) (base : Int) {n : Nat} {upcoming : Int}
    (h : ¬ Due now (next^[n] upcoming)) {rounds : Nat} (hrounds : n < rounds) :
    (resetLoop next now rounds moved base upcoming).isSome := by
  induction n generalizing moved base upcoming rounds with
  | zero =>
    obtain ⟨rounds, rfl⟩ : ∃ r, rounds = r + 1 := ⟨rounds - 1, by omega⟩
    have hstop : ¬(0 < upcoming ∧ upcoming ≤ now) := h
    simp [resetLoop, hstop]
  | succ n ih =>
    obtain ⟨rounds, rfl⟩ : ∃ r, rounds = r + 1 := ⟨rounds - 1, by omega⟩
    rw [resetLoop]
    split
    · exact ih true upcoming h (by omega)
    · rfl

include h in
theorem Walk.exists_not_due : ∃ n, ¬ Due now (next^[n] first) := by
  induction h with
  | last _ h => exact ⟨1, h⟩
  | step _ _ ih =>
    obtain ⟨n, hn⟩ := ih
    exact ⟨n + 1, hn⟩

end

/-! ## What a reset does to a row -/

section

variable {nextReset : NextReset} {plan : SubscriptionPlan} {now : Int}
  {sub sub' : UserSubscription}

/-- The three outcomes of a reset. -/
inductive ResetMove (nextReset : NextReset) (plan : SubscriptionPlan) (now : Int)
    (sub : UserSubscription) : UserSubscription → Prop
  | kept : (0 < sub.nextResetTime ∧ now < sub.nextResetTime) ∨ plan.quotaResetPeriod = .never ∨
      ¬ Due now (firstBoundary nextReset plan sub) → ResetMove nextReset plan now sub sub
  | scheduled : sub.nextResetTime = 0 → plan.quotaResetPeriod ≠ .never →
      0 < firstBoundary nextReset plan sub → now < firstBoundary nextReset plan sub →
      ResetMove nextReset plan now sub { sub with
        nextResetTime := firstBoundary nextReset plan sub, lastResetTime := resetBase sub }
  | renewed {b : Int} : ¬(0 < sub.nextResetTime ∧ now < sub.nextResetTime) →
      plan.quotaResetPeriod ≠ .never →
      Walk (boundaryAfter nextReset plan sub) now (firstBoundary nextReset plan sub) b →
      ResetMove nextReset plan now sub { sub with
        amountUsed := 0, lastResetTime := b, nextResetTime := boundaryAfter nextReset plan sub b }

theorem maybeResetUserSubscription_eq (rounds : Nat) :
    maybeResetUserSubscription nextReset rounds plan now sub =
      if 0 < sub.nextResetTime ∧ now < sub.nextResetTime then some sub
      else if plan.quotaResetPeriod = .never then some sub
      else match resetLoop (boundaryAfter nextReset plan sub) now rounds false (resetBase sub)
          (firstBoundary nextReset plan sub) with
        | none => none
        | some (false, b, u) =>
          if sub.nextResetTime = 0 ∧ 0 < u then
            some { sub with nextResetTime := u, lastResetTime := b }
          else some sub
        | some (true, b, u) =>
          some { sub with amountUsed := 0, lastResetTime := b, nextResetTime := u } := rfl

theorem maybeResetUserSubscription_move {rounds : Nat}
    (h : maybeResetUserSubscription nextReset rounds plan now sub = some sub') :
    ResetMove nextReset plan now sub sub' := by
  rw [maybeResetUserSubscription_eq] at h
  split at h
  next hlater =>
    cases h
    exact .kept (.inl hlater)
  next hlater =>
  split at h
  next hnever =>
    cases h
    exact .kept (.inr (.inl hnever))
  next hperiod =>
  split at h
  · cases h
  next b u hloop =>
    rcases resetLoop_spec hloop with ⟨hdue, -, rfl, rfl⟩ | ⟨htrue, -⟩
    · split at h <;> cases h
      next hzero =>
        have hnow : now < firstBoundary nextReset plan sub := by
          by_contra hle
          exact hdue ⟨hzero.2, Int.not_lt.mp hle⟩
        exact .scheduled hzero.1 hperiod hzero.2 hnow
      · exact .kept (.inr (.inr hdue))
    · cases htrue
  next b u hloop =>
    rcases resetLoop_spec hloop with ⟨-, hfalse, -⟩ | ⟨-, rfl, hwalk⟩
    · cases hfalse
    · cases h
      exact .renewed hlater hperiod hwalk

theorem maybeResetUserSubscription_isSome {n rounds : Nat} (hrounds : n < rounds)
    (h : ¬ Due now ((boundaryAfter nextReset plan sub)^[n] (firstBoundary nextReset plan sub))) :
    (maybeResetUserSubscription nextReset rounds plan now sub).isSome := by
  rw [maybeResetUserSubscription_eq]
  split
  · rfl
  split
  · rfl
  have hloop := resetLoop_ends false (resetBase sub) h hrounds
  obtain ⟨⟨advanced, b, u⟩, hout⟩ := Option.isSome_iff_exists.mp hloop
  rw [hout]
  cases advanced
  · dsimp only
    split <;> rfl
  · rfl

end

/-- Whether a reset renews the amount of a row. -/
def renews (nextReset : NextReset) (rounds : Nat) (plan : SubscriptionPlan) (now : Int)
    (sub : UserSubscription) : Bool :=
  if 0 < sub.nextResetTime ∧ now < sub.nextResetTime then false
  else if plan.quotaResetPeriod = .never then false
  else match resetLoop (boundaryAfter nextReset plan sub) now rounds false (resetBase sub)
      (firstBoundary nextReset plan sub) with
    | some (true, _, _) => true
    | _ => false

section

variable {nextReset : NextReset} {rounds : Nat} {plan : SubscriptionPlan} {now : Int}
  {sub sub' : UserSubscription}
  (h : maybeResetUserSubscription nextReset rounds plan now sub = some sub')

include h in
/-- A reset that renews walks to a boundary, and any other one keeps the base. -/
theorem renews_spec :
    (renews nextReset rounds plan now sub = true ∧ ∃ b,
      Walk (boundaryAfter nextReset plan sub) now (firstBoundary nextReset plan sub) b ∧
      sub' = { sub with
        amountUsed := 0, lastResetTime := b
        nextResetTime := boundaryAfter nextReset plan sub b }) ∨
    (renews nextReset rounds plan now sub = false ∧ (sub' = sub ∨ sub' = { sub with
        nextResetTime := firstBoundary nextReset plan sub, lastResetTime := resetBase sub })) := by
  rw [maybeResetUserSubscription_eq] at h
  rw [renews]
  split at h
  next hlater =>
    cases h
    exact .inr ⟨if_pos hlater, .inl rfl⟩
  next hlater =>
  split at h
  next hnever =>
    cases h
    exact .inr ⟨by simp [hnever], .inl rfl⟩
  next hperiod =>
  rw [if_neg hlater, if_neg hperiod]
  split at h
  · cases h
  next b u hloop =>
    rw [hloop]
    refine .inr ⟨rfl, ?_⟩
    rcases resetLoop_spec hloop with ⟨-, -, rfl, rfl⟩ | ⟨hmoved, -⟩
    · split at h
      · exact .inr (Option.some.inj h).symm
      · exact .inl (Option.some.inj h).symm
    · cases hmoved
  next b u hloop =>
    rw [hloop]
    rcases resetLoop_spec hloop with ⟨-, hmoved, -⟩ | ⟨-, rfl, hwalk⟩
    · cases hmoved
    · exact .inl ⟨rfl, b, hwalk, (Option.some.inj h).symm⟩

include h in
theorem amountUsed_of_renews :
    sub'.amountUsed = if renews nextReset rounds plan now sub then 0 else sub.amountUsed := by
  rcases renews_spec h with ⟨hrenews, b, -, rfl⟩ | ⟨hrenews, rfl | rfl⟩ <;> simp [hrenews]

end

/-! ## Resetting the due rows -/

/-- What the environment decides about one pass over the due rows. -/
structure ResetEnv where
  /-- `GetDBTimestamp`. -/
  now : Int
  rounds : Nat
  query : Option String
  fault : Int → Option String

def ResetEnv.calm (now : Int) (rounds : Nat) : ResetEnv := ⟨now, rounds, none, fun _ => none⟩

/-- The transaction of one row: whether it counts, and the database. -/
def resetDueRow (nextReset : NextReset) (env : ResetEnv) (plan : SubscriptionPlan) (id : Int)
    (db : SubscriptionDb) : Option (Except String Bool × SubscriptionDb) :=
  match env.fault id with
  | some err => some (.error err, db)
  | none =>
    match db.subs.find id with
    | none => some (.ok false, db)
    | some locked =>
      if Due env.now locked.nextResetTime then
        match maybeResetUserSubscription nextReset env.rounds plan env.now locked with
        | none => none
        | some sub => some (.ok true, { db with subs := db.subs.save sub })
      else some (.ok false, db)

theorem resetDueRow_due {nextReset : NextReset} {env : ResetEnv} (plan : SubscriptionPlan)
    {locked : UserSubscription} {db : SubscriptionDb} (hfault : env.fault locked.id = none)
    (hfind : db.subs.find locked.id = some locked) (hdue : Due env.now locked.nextResetTime) :
    resetDueRow nextReset env plan locked.id db =
      (maybeResetUserSubscription nextReset env.rounds plan env.now locked).map fun sub =>
        (.ok true, { db with subs := db.subs.save sub }) := by
  rw [resetDueRow, hfault, hfind]
  simp only [if_pos hdue]
  cases maybeResetUserSubscription nextReset env.rounds plan env.now locked <;> rfl

/-- A row transaction changes nothing, or saves the row after its reset. -/
theorem resetDueRow_spec {nextReset : NextReset} {env : ResetEnv} {plan : SubscriptionPlan}
    {id : Int} {db db' : SubscriptionDb} {out : Except String Bool}
    (h : resetDueRow nextReset env plan id db = some (out, db')) :
    (out ≠ .ok true ∧ db' = db) ∨ (out = .ok true ∧ ∃ locked sub, db.subs.find id = some locked ∧
      maybeResetUserSubscription nextReset env.rounds plan env.now locked = some sub ∧
      db' = { db with subs := db.subs.save sub }) := by
  rw [resetDueRow] at h
  repeat' split at h
  all_goals cases h
  any_goals exact .inl ⟨by simp, rfl⟩
  next hfind _ _ sub hreset => exact .inr ⟨rfl, _, sub, hfind, hreset, rfl⟩

/-- The loop over the selected rows. A row whose plan is not found is passed
over, and a failed transaction ends the loop. -/
def resetDueRows (nextReset : NextReset) (env : ResetEnv) :
    List UserSubscription → Nat → SubscriptionDb → Option (Nat × Option String × SubscriptionDb)
  | [], count, db => some (count, none, db)
  | sub :: rest, count, db =>
    match db.plans.find sub.planId with
    | none => resetDueRows nextReset env rest count db
    | some plan =>
      match resetDueRow nextReset env plan sub.id db with
      | none => none
      | some (.error err, db) => some (count, some err, db)
      | some (.ok true, db) => resetDueRows nextReset env rest (count + 1) db
      | some (.ok false, db) => resetDueRows nextReset env rest count db

/-- A row that the select of the due rows takes. -/
def selected (now : Int) (sub : UserSubscription) : Bool :=
  Due now sub.nextResetTime ∧ sub.status = .active

variable (subs : Table UserSubscription.id)

/-- The first due rows, the one due longest in front. -/
def dueSubscriptions (now : Int) (limit : Nat) : List UserSubscription :=
  ((subs.rows.filter (selected now)).insertionSort
    fun a b => a.nextResetTime ≤ b.nextResetTime).take limit

/-- `ResetDueSubscriptions`. -/
def resetDueSubscriptions (nextReset : NextReset) (env : ResetEnv) (limit : Nat)
    (db : SubscriptionDb) : Option (Nat × Option String × SubscriptionDb) :=
  match env.query with
  | some err => some (0, some err, db)
  | none =>
    resetDueRows nextReset env
      (dueSubscriptions db.subs env.now (if limit = 0 then 200 else limit)) 0 db

theorem mem_dueSubscriptions {subs : Table UserSubscription.id} {now : Int} {limit : Nat}
    {sub : UserSubscription} (h : sub ∈ dueSubscriptions subs now limit) :
    sub ∈ subs.rows ∧ Due now sub.nextResetTime ∧ sub.status = .active := by
  have hmem := List.mem_of_mem_take h
  rw [List.mem_insertionSort, List.mem_filter, selected, decide_eq_true_eq] at hmem
  exact hmem

theorem nodup_dueSubscriptions (now : Int) (limit : Nat) :
    ((dueSubscriptions subs now limit).map UserSubscription.id).Nodup := by
  have hperm := List.perm_insertionSort
    (fun a b : UserSubscription => a.nextResetTime ≤ b.nextResetTime)
    (subs.rows.filter (selected now))
  have hsorted : (((subs.rows.filter (selected now)).insertionSort
      fun a b => a.nextResetTime ≤ b.nextResetTime).map UserSubscription.id).Nodup :=
    (hperm.map _).nodup_iff.mpr (subs.nodup.sublist (List.filter_sublist.map _))
  exact hsorted.sublist ((List.take_sublist _ _).map _)

end NewApi
