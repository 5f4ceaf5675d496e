import NewApi.Subscription.Resets

/-!
# The loop over the active subscriptions

What `consumeCandidates` does to a row: it renews some rows (`renewals`) and charges one at most
(`RowTaken`). Its answer comes from the record of the request.
-/

namespace NewApi

/-- The subscriptions that the loop over the candidates renews. -/
def renewals (nextReset : NextReset) (env : SubscriptionEnv) (amount : Int)
    (plans : Table SubscriptionPlan.id) : List UserSubscription → List Int
  | [] => []
  | candidate :: rest =>
    match plans.find candidate.planId with
    | none => []
    | some plan =>
      match maybeResetUserSubscription nextReset env.rounds plan env.now candidate with
      | none => []
      | some sub =>
        let here := if renews nextReset env.rounds plan env.now candidate then [sub.id] else []
        if full amount sub then here ++ renewals nextReset env amount plans rest else here

section

variable {nextReset : NextReset} {env : SubscriptionEnv} {missed : Bool} {requestId : String}
  {userId amount : Int} {db db' : SubscriptionDb} {result : SubscriptionPreConsumeResult}
  {candidate sub : UserSubscription} {rest candidates : List UserSubscription}

variable {plans : Table SubscriptionPlan.id}

theorem renewals_cons {plan : SubscriptionPlan} (hplan : plans.find candidate.planId = some plan)
    (hsub : maybeResetUserSubscription nextReset env.rounds plan env.now candidate = some sub) :
    renewals nextReset env amount plans (candidate :: rest) =
      (if renews nextReset env.rounds plan env.now candidate then [candidate.id] else []) ++
        if full amount sub then renewals nextReset env amount plans rest else [] := by
  have hid : sub.id = candidate.id := (maybeResetUserSubscription_spec hsub).2.1
  simp only [renewals, hplan, hsub, hid]
  cases full amount sub <;> simp

variable {id : Int}

theorem mem_renewals (h : id ∈ renewals nextReset env amount plans candidates) :
    id ∈ candidates.map UserSubscription.id := by
  induction candidates with
  | nil => simp [renewals] at h
  | cons candidate rest ih =>
    cases hplan : plans.find candidate.planId with
    | none => simp [renewals, hplan] at h
    | some plan =>
    cases hsub : maybeResetUserSubscription nextReset env.rounds plan env.now candidate with
    | none => simp [renewals, hplan, hsub] at h
    | some sub =>
      rw [renewals_cons hplan hsub, List.mem_append] at h
      rw [List.map_cons, List.mem_cons]
      rcases h with hhere | hrest
      · split at hhere
        · exact .inl (by simpa using hhere)
        · cases hhere
      · split at hrest
        · exact .inr (ih hrest)
        · cases hrest

/-- What the loop does to a row before it charges it: nothing, or a reset, which
renews the amount or does not. -/
inductive Touched (nextReset : NextReset) (env : SubscriptionEnv)
    (plans : Table SubscriptionPlan.id)
    (row : UserSubscription) : Bool → UserSubscription → Prop
  | untouched : Touched nextReset env plans row false row
  | reset {plan : SubscriptionPlan} {sub : UserSubscription} : plans.find row.planId = some plan →
      maybeResetUserSubscription nextReset env.rounds plan env.now row = some sub →
      Touched nextReset env plans row (renews nextReset env.rounds plan env.now row) sub

/-- The row of a subscription after the loop: touched, and charged when it is
the one that had room. -/
inductive RowTaken (nextReset : NextReset) (env : SubscriptionEnv)
    (plans : Table SubscriptionPlan.id) (amount : Int) (renewed : Bool) (row : UserSubscription) :
    Bool → UserSubscription → Prop
  | passed {sub : UserSubscription} : Touched nextReset env plans row renewed sub →
      RowTaken nextReset env plans amount renewed row false sub
  | charged {sub : UserSubscription} : Touched nextReset env plans row renewed sub →
      (0 < sub.amountTotal → amount ≤ sub.amountTotal - sub.amountUsed) →
      RowTaken nextReset env plans amount renewed row true (sub.charge amount)

theorem Touched.spec {row : UserSubscription} {renewed : Bool}
    (h : Touched nextReset env plans row renewed sub) :
    sub.amountTotal = row.amountTotal ∧ sub.amountUsed = if renewed then 0 else row.amountUsed := by
  cases h with
  | untouched => simp
  | reset _ hsub => exact ⟨(maybeResetUserSubscription_spec hsub).2.2, amountUsed_of_renews hsub⟩

variable (h : consumeCandidates nextReset env missed requestId userId amount candidates db =
  some (.ok result, db'))

include h in
theorem consumeCandidates_other (hother : id ∉ candidates.map UserSubscription.id) :
    id ≠ result.userSubscriptionId ∧ db'.subs.find id = db.subs.find id := by
  induction candidates generalizing db with
  | nil => simp [consumeCandidates] at h
  | cons candidate rest ih =>
    rw [List.map_cons, List.mem_cons, not_or] at hother
    obtain ⟨plan, sub, -, hsub, hid, hround⟩ := consumeCandidates_cons h
    have hne : sub.id ≠ id := fun he => hother.1 (he.symm.trans hid)
    have hsaved : (db.subs.save sub).find id = db.subs.find id := Table.find_save_of_ne hne
    rcases hround with ⟨-, hrest⟩ | ⟨-, hend⟩
    · obtain ⟨hresult, hfind⟩ := ih hrest hother.2
      exact ⟨hresult, hfind.trans hsaved⟩
    obtain ⟨hresult, hcases⟩ := chargeCandidate_ok hend
    refine ⟨fun he => hne (hresult.symm.trans he.symm), ?_⟩
    rcases hcases with ⟨-, -, -, hsubs, -⟩ | ⟨dup, -, -, rfl⟩
    · rw [hsubs, Table.find_save_of_ne (show (sub.charge amount).id ≠ id from hne)]
      exact hsaved
    · exact hsaved

include h in
/-- The loop moves every row in its own way, and charges the row it answers with
when there was no record. -/
theorem consumeCandidates_taken {row : UserSubscription}
    (hnodup : (candidates.map UserSubscription.id).Nodup)
    (hrows : ∀ c ∈ candidates, db.subs.find c.id = some c) (hrow : db.subs.find id = some row) :
    ∃ row', db'.subs.find id = some row' ∧ RowTaken nextReset env db.plans amount
      (id ∈ renewals nextReset env amount db.plans candidates) row
      (decide (id = result.userSubscriptionId) && (db.records.find requestId).isNone) row' := by
  induction candidates generalizing db with
  | nil => simp [consumeCandidates] at h
  | cons candidate rest ih =>
    have hcur := hrows candidate (by simp)
    rw [List.map_cons, List.nodup_cons] at hnodup
    obtain ⟨plan, sub, hplan, hsub, hid, hround⟩ := consumeCandidates_cons h
    rw [renewals_cons hplan hsub]
    by_cases hsame : id = candidate.id
    · -- The candidate itself: no later candidate has its id.
      subst hsame
      obtain rfl : candidate = row := Option.some.inj (hcur.symm.trans hrow)
      have htouched := Touched.reset hplan hsub
      have hsaved : (db.subs.save sub).find candidate.id = some sub := by
        rw [← hid]
        exact Table.find_save_self (by rw [hid]; exact hcur)
      have hlater : candidate.id ∉ renewals nextReset env amount db.plans rest :=
        fun hmem => hnodup.1 (mem_renewals hmem)
      have hhere : decide (candidate.id ∈
          (if renews nextReset env.rounds plan env.now candidate then [candidate.id] else []) ++
            if full amount sub then renewals nextReset env amount db.plans rest else []) =
          renews nextReset env.rounds plan env.now candidate := by
        cases renews nextReset env.rounds plan env.now candidate <;>
          cases full amount sub <;> simp [hlater]
      rw [hhere]
      rcases hround with ⟨-, hrest⟩ | ⟨hroom, hend⟩
      · obtain ⟨hresult, hfind⟩ := consumeCandidates_other hrest hnodup.1
        refine ⟨sub, hfind.trans hsaved, ?_⟩
        rw [decide_eq_false hresult, Bool.false_and]
        exact .passed htouched
      · obtain ⟨hresult, hcases⟩ := chargeCandidate_ok hend
        rw [decide_eq_true (hid.symm.trans hresult.symm), Bool.true_and]
        rcases hcases with ⟨hnone, -, -, hsubs, -⟩ | ⟨dup, hdup, -, rfl⟩
        · rw [show db.records.find requestId = none from hnone]
          refine ⟨sub.charge amount, ?_, .charged htouched fun hpos => ?_⟩
          · rw [hsubs, ← hid]
            have hstored : (db.subs.save sub).find (sub.charge amount).id = some sub :=
              (congrArg _ hid).trans hsaved
            exact Table.find_save_self hstored
          · simp only [full, decide_eq_false_iff_not] at hroom
            omega
        · rw [show db.records.find requestId = some dup from hdup]
          exact ⟨sub, hsaved, .passed htouched⟩
    · have hne : sub.id ≠ id := fun he => hsame (he.symm.trans hid)
      have hsaved : (db.subs.save sub).find id = some row := by
        rw [Table.find_save_of_ne hne]
        exact hrow
      have hhere : id ∉
          (if renews nextReset env.rounds plan env.now candidate then [candidate.id] else []) := by
        split
        · simpa using hsame
        · simp
      simp only [List.mem_append, hhere, false_or]
      rcases hround with ⟨hfull, hrest⟩ | ⟨hroom, hend⟩
      · have hnext : ∀ c ∈ rest, (db.subs.save sub).find c.id = some c := by
          intro c hc
          have hcne : sub.id ≠ c.id := fun he =>
            hnodup.1 (by rw [← hid, he]; exact List.mem_map_of_mem hc)
          rw [Table.find_save_of_ne hcne]
          exact hrows c (List.mem_cons_of_mem _ hc)
        simp only [hfull, if_true]
        exact @ih { db with subs := db.subs.save sub } hrest hnodup.2 hnext hsaved
      · obtain ⟨hresult, hcases⟩ := chargeCandidate_ok hend
        have hother : id ≠ result.userSubscriptionId := fun he => hne (hresult.symm.trans he.symm)
        simp only [hroom, Bool.false_eq_true, if_false, List.not_mem_nil, hother, decide_false,
          Bool.false_and]
        rcases hcases with ⟨-, -, -, hsubs, -⟩ | ⟨dup, -, -, rfl⟩
        · refine ⟨row, ?_, .passed .untouched⟩
          rw [hsubs, Table.find_save_of_ne (show (sub.charge amount).id ≠ id from hne)]
          exact hsaved
        · exact ⟨row, hsaved, .passed .untouched⟩

theorem preConsumeUserSubscription_taken (hfresh : db.records.find requestId = none)
    (h : preConsumeUserSubscription nextReset env requestId userId amount db =
      some (.ok result, db')) {row : UserSubscription} (hrow : db.subs.find id = some row) :
    ∃ row', db'.subs.find id = some row' ∧ RowTaken nextReset env db.plans amount
      (id ∈ renewals nextReset env amount db.plans (activeSubscriptions db.subs userId env.now)) row
      (id = result.userSubscriptionId) row' := by
  obtain ⟨-, -, hloop⟩ := preConsumeUserSubscription_fresh h hfresh
  have h := consumeCandidates_taken hloop (nodup_activeSubscriptions db.subs env.now)
    (fun c hc => find_activeSubscriptions hc) hrow
  simpa only [hfresh, Option.isNone_none, Bool.and_true] using h

/-- The used amount of a row after a charge: cleared when it was renewed, and
with the amount on it when it is the charged one. -/
structure RowCharged (amount : Int) (renewed charged : Bool) (row row' : UserSubscription) :
    Prop where
  total : row'.amountTotal = row.amountTotal
  used : (row'.amountUsed : Int) =
    (if renewed then 0 else (row.amountUsed : Int)) + if charged then amount else 0
  room : charged = true → 0 < row.amountTotal → (row'.amountUsed : Int) ≤ row.amountTotal

theorem RowTaken.row (hamount : 0 < amount) {row row' : UserSubscription} {renewed charged : Bool}
    (h : RowTaken nextReset env plans amount renewed row charged row') :
    RowCharged amount renewed charged row row' := by
  cases h with obtain ⟨htotal, hused⟩ := htouched.spec
  | passed htouched =>
    refine ⟨htotal, ?_, nofun⟩
    rw [hused]
    cases renewed <;> simp
  | @charged sub htouched hroom =>
    have hsum : ((sub.charge amount).amountUsed : Int) = sub.amountUsed + amount.toNat :=
      Int.natCast_add _ _
    refine ⟨htotal, ?_, ?_⟩
    · rw [hsum, hused]
      cases renewed <;> simp <;> omega
    · intro _ hpos
      have := hroom (htotal ▸ hpos)
      rw [hsum]
      omega

theorem preConsumeUserSubscription_row (hfresh : db.records.find requestId = none)
    (h : preConsumeUserSubscription nextReset env requestId userId amount db =
      some (.ok result, db')) {row : UserSubscription} (hrow : db.subs.find id = some row) :
    ∃ row', db'.subs.find id = some row' ∧ RowCharged amount
      (id ∈ renewals nextReset env amount db.plans (activeSubscriptions db.subs userId env.now))
      (id = result.userSubscriptionId) row row' := by
  obtain ⟨hamount, -, -⟩ := preConsumeUserSubscription_fresh h hfresh
  obtain ⟨row', hrow', htaken⟩ := preConsumeUserSubscription_taken hfresh h hrow
  exact ⟨row', hrow', htaken.row hamount⟩

/-! ## What the loop answers -/

include h in
/-- The record of a request after a loop that succeeds is the one that was there, or
a new one for the row that was charged. -/
theorem consumeCandidates_record :
    ∃ record, db'.records.find requestId = some record ∧ result.preConsumed = record.preConsumed ∧
      (db.records.find requestId = none →
        record = ⟨requestId, userId, result.userSubscriptionId, amount, .consumed⟩) ∧
      (∀ dup, db.records.find requestId = some dup → record = dup) ∧
      ∀ id, id ≠ requestId → db'.records.find id = db.records.find id := by
  induction candidates generalizing db with
  | nil => simp [consumeCandidates] at h
  | cons candidate rest ih =>
    obtain ⟨plan, sub, -, -, -, hround⟩ := consumeCandidates_cons h
    rcases hround with ⟨-, hrest⟩ | ⟨-, hend⟩
    · have hnext := ih hrest
      exact hnext
    obtain ⟨hresult, hcases⟩ := chargeCandidate_ok hend
    rcases hcases with ⟨hnone, hpre, -, -, hinsert⟩ | ⟨dup, hdup, hpre, rfl⟩
    · have hfind := Table.find_insert hinsert
      refine ⟨_, by rw [hfind, if_pos rfl], hpre, fun _ => by rw [hresult], ?_, ?_⟩
      · intro dup hdup
        cases hnone.symm.trans hdup
      · intro id hid
        rw [hfind, if_neg (fun he => hid he.symm)]
    · refine ⟨dup, hdup, hpre, ?_, ?_, fun _ _ => rfl⟩
      · intro hnone
        cases hnone.symm.trans hdup
      · intro dup' hdup'
        exact Option.some.inj (hdup.symm.trans hdup')

/-- Whether a candidate has room for an amount, after its reset. -/
def hasRoom (nextReset : NextReset) (env : SubscriptionEnv) (amount : Int)
    (plans : Table SubscriptionPlan.id) (candidate : UserSubscription) : Bool :=
  match plans.find candidate.planId with
  | none => false
  | some plan =>
    match maybeResetUserSubscription nextReset env.rounds plan env.now candidate with
    | none => false
    | some sub => !full amount sub

/-- No candidate in front of a subscription has room, and it has room itself unless
none has. -/
def roomFirstAt (nextReset : NextReset) (env : SubscriptionEnv) (amount : Int)
    (plans : Table SubscriptionPlan.id) (id : Int) : List UserSubscription → Bool
  | [] => true
  | candidate :: rest =>
    if hasRoom nextReset env amount plans candidate then candidate.id = id
    else roomFirstAt nextReset env amount plans id rest

include h in
theorem consumeCandidates_roomFirstAt
    (hroom : roomFirstAt nextReset env amount db.plans id candidates = true) :
    result.userSubscriptionId = id := by
  induction candidates generalizing db with
  | nil => simp [consumeCandidates] at h
  | cons candidate rest ih =>
    obtain ⟨plan, sub, hplan, hsub, hid, hround⟩ := consumeCandidates_cons h
    have hhas : hasRoom nextReset env amount db.plans candidate = !full amount sub := by
      simp only [hasRoom, hplan, hsub]
    rw [roomFirstAt, hhas] at hroom
    rcases hround with ⟨hfull, hrest⟩ | ⟨hfull, hend⟩
    · simp only [hfull, Bool.not_true, Bool.false_eq_true, if_false] at hroom
      exact ih hrest hroom
    · simp only [hfull, Bool.not_false, if_true, decide_eq_true_eq] at hroom
      exact (chargeCandidate_ok hend).1.trans (hid.trans hroom)

end

end NewApi
