import NewApi.App.Ledger

/-!
# One dispatch per logical request

A claim that reports `won` is the only one that may call the provider. Executions have
unique grants and logical tuples and keep both, so no second claim of the grant or of the
tuple wins, in whatever order the calls come and wherever they stop. Every later call on
the grant or the tuple finds the execution, and `Answers` says what it returns.
-/

namespace NewApi.App

open Checked Runs

/-- The execution that a call reports to have won. -/
def Call.won (db : Db) : Call → Option Execution
  | .claimTask grantID r taskID now =>
    match claimAppTaskExecution db grantID r taskID now with
    | .ok (e, true, _) => some e
    | _ => none
  | .claimResponse grantID r taskID now =>
    match claimAppResponseExecution db grantID r taskID now with
    | .ok (e, _, true, _) => some e
    | _ => none
  | _ => none

/-- The execution that a committed call won and that satisfies `p`. -/
def Attempt.wins (p : Execution → Bool) (db : Db) (a : Attempt) : Bool :=
  a.commits && (a.call.won db).any p

/-- The grant is the one of the execution or has its logical tuple. -/
def Claimed.sharedBy (e : Claimed) (grant : Grant) : Prop :=
  e.grantID = grant.grantID ∨ e.logical = grant.scope.logical

/-- The result of a captured or rejected response. -/
def Db.outcome (db : Db) (x : Execution) : Except String ResponseResult :=
  match db.results.find x.id with
  | some result => if x.status.isFinal then .ok result else .error "execution_outcome_unknown"
  | none => .error "execution_outcome_unknown"

/-- What the calls on the grant or the tuple of an execution return: the execution to a call
of its kind, grant and submission hash, unless it is a response without outcome, and the
conflict to the others. -/
structure Answers (db : Db) (e : Claimed) (x : Execution) : Prop where
  same : x.toClaimed = e
  outcome : x.status.isFinal → ∃ result, db.outcome x = .ok result
  task : ∀ grant, db.grants.find grant.grantID = some grant → e.sharedBy grant →
    ∀ r, r.within grant → ∀ taskID now,
      claimAppTaskExecution db grant.grantID r taskID now =
        if e.kind = .task ∧ e.submissionHash = r.submissionHash ∧ e.grantID = grant.grantID then
          .ok (x, false, db)
        else .error "idempotency_conflict"
  response : ∀ grant, db.grants.find grant.grantID = some grant → e.sharedBy grant →
    ∀ r, r.within grant → ∀ taskID now,
      claimAppResponseExecution db grant.grantID r taskID now =
        if e.kind = .response ∧ e.submissionHash = r.submissionHash ∧ e.grantID = grant.grantID then
          (db.outcome x).map fun result => (x, some result, false, db)
        else .error "idempotency_conflict"
  lookup : ∀ grant, db.grants.find grant.grantID = some grant → e.sharedBy grant →
    grant.grantID ≠ "" → ∀ hash, hash ≠ "" →
      lookupAppResponseExecution db grant.grantID hash =
        if e.kind = .response ∧ e.submissionHash = hash ∧ e.grantID = grant.grantID then
          (db.outcome x).map fun result => some (x, result)
        else .error "idempotency_conflict"

/-! ## The rows of a run -/

/-- Executions are known by their grant and by its logical tuple, and captured and rejected
ones have their result. -/
structure Known (db : Db) : Prop where
  logical : ∀ x ∈ db.executions.rows, ∃ grant,
    db.grants.find x.grantID = some grant ∧ x.logical = grant.scope.logical
  unique : ∀ x ∈ db.executions.rows, ∀ y ∈ db.executions.rows,
    x.logical = y.logical ∨ x.grantID = y.grantID → x = y
  results : ∀ x ∈ db.executions.rows, x.status.isFinal → (db.results.find x.id).isSome

variable {db db' : Db} {e e' x : Execution}

theorem exists_of_mem_save (hfind : db.executions.find e.id = some e)
    (hclaimed : e'.toClaimed = e.toClaimed) {y : Execution}
    (hy : y ∈ (db.executions.save e').rows) :
    ∃ x ∈ db.executions.rows, y.toClaimed = x.toClaimed ∧
      (y = e' ∧ x = e ∨ y = x ∧ x.id ≠ e.id) := by
  rcases Table.mem_save hy with rfl | ⟨hold, hne⟩
  · exact ⟨e, Table.find_mem hfind, hclaimed, .inl ⟨rfl, rfl⟩⟩
  · refine ⟨y, hold, rfl, .inr ⟨rfl, ?_⟩⟩
    rw [Execution.key, Execution.key, hclaimed] at hne
    exact hne

theorem Known.save (h : Known db) (hfind : db.executions.find e.id = some e)
    (hclaimed : e'.toClaimed = e.toClaimed) (hexecutions : db'.executions = db.executions.save e')
    (hgrants : db'.grants = db.grants)
    (hresults : ∀ id, (db.results.find id).isSome → (db'.results.find id).isSome)
    (hnew : e'.status.isFinal → e.status.isFinal ∨ (db'.results.find e.id).isSome) : Known db' := by
  refine ⟨?_, ?_, ?_⟩ <;> rw [hexecutions]
  · intro y hy
    obtain ⟨x, hx, hyx, -⟩ := exists_of_mem_save hfind hclaimed hy
    rw [hyx, hgrants]
    exact h.logical x hx
  · intro y hy z hz hshared
    obtain ⟨x, hx, hyx, hcase⟩ := exists_of_mem_save hfind hclaimed hy
    obtain ⟨w, hw, hzw, hcase'⟩ := exists_of_mem_save hfind hclaimed hz
    rw [hyx, hzw] at hshared
    obtain rfl := h.unique x hx w hw hshared
    rcases hcase with ⟨rfl, rfl⟩ | ⟨rfl, hne⟩ <;> rcases hcase' with ⟨rfl, hxe⟩ | ⟨rfl, hne'⟩
    · rfl
    · exact absurd rfl hne'
    · exact absurd (congrArg (·.id) hxe) hne
    · rfl
  · intro y hy hfinal
    obtain ⟨x, hx, hyx, hcase⟩ := exists_of_mem_save hfind hclaimed hy
    rw [hyx]
    rcases hcase with ⟨rfl, rfl⟩ | ⟨rfl, -⟩
    · rcases hnew hfinal with hold | hsome
      · exact hresults _ (h.results x hx hold)
      · exact hsome
    · exact hresults _ (h.results y hx hfinal)

theorem Known.change (h : Known db) (hc : Change db db') : Known db' := by
  cases hc with
  | aside leases tasks => exact ⟨h.logical, h.unique, h.results⟩
  | facts e e' leases tasks hfind hclaimed hstatus hbilling =>
    exact h.save hfind hclaimed rfl rfl (fun _ => id) fun hfinal => .inl (hstatus hfinal)
  | claim grant e paid executions leases hpaid hfresh hinsert =>
    have hsame : paid.grants = db.grants ∧ paid.results = db.results := by
      cases hpaid <;> exact ⟨rfl, rfl⟩
    refine ⟨?_, ?_, ?_⟩ <;> simp only [Table.rows_insert hinsert, hsame.1, hsame.2]
    · exact List.forall_mem_cons.mpr ⟨⟨grant, hfresh.found, hfresh.logical⟩, h.logical⟩
    · intro x hx y hy hshared
      rcases List.mem_cons.mp hx with rfl | hxs <;> rcases List.mem_cons.mp hy with rfl | hys
      · rfl
      · have hne := hfresh.unique y hys
        exact absurd hshared (not_or.mpr ⟨hne.1.symm, hne.2.symm⟩)
      · exact absurd hshared (not_or.mpr (hfresh.unique x hxs))
      · exact h.unique x hxs y hys hshared
    · refine List.forall_mem_cons.mpr ⟨fun hfinal => ?_, h.results⟩
      exact absurd hfinal hfresh.status
  | settle e e' paid db' hfind hclaimed hopen hbilling hpaid hclosed hresults =>
    rcases hresults with ⟨hsame, hstatus⟩ | ⟨r, hr, hinsert⟩
    · exact h.save hfind hclaimed hclosed.executions hclosed.grants
        (fun _ hsome => hsame ▸ hsome) fun hfinal => .inl (hstatus hfinal)
    refine h.save hfind hclaimed hclosed.executions hclosed.grants (fun id hsome => ?_) fun _ => ?_
    · rw [Table.find_insert hinsert]
      split
      · rfl
      · exact hsome
    · right
      rw [Table.find_insert hinsert, if_pos hr]
      rfl

/-- The claim of an execution is kept. -/
def Db.has (db : Db) (c : Claimed) : Prop := ∃ x, db.executions.find c.id = some x ∧ x.toClaimed = c

theorem Db.has.change {c : Claimed} (h : db.has c) (hc : Change db db') : db'.has c := by
  have hsave : ∀ {e e' : Execution}, db.executions.find e.id = some e →
      e'.toClaimed = e.toClaimed → db'.executions = db.executions.save e' → db'.has c := by
    intro e e' hfind hclaimed hexecutions
    obtain ⟨x, hx, rfl⟩ := h
    have hkey : e'.key = e.id := by rw [Execution.key, hclaimed]
    rw [Db.has, hexecutions]
    refine Table.exists_find_save hfind hkey hx ?_ fun _ => rfl
    rintro - rfl
    exact hclaimed
  cases hc with
  | aside leases tasks => exact h
  | facts e e' leases tasks hfind hclaimed hstatus hbilling => exact hsave hfind hclaimed rfl
  | claim grant e paid executions leases hpaid hfresh hinsert =>
    obtain ⟨x, hx, rfl⟩ := h
    exact ⟨x, Table.find_after_insert hinsert hx, rfl⟩
  | settle e e' paid db' hfind hclaimed hopen hbilling hpaid hclosed hresults =>
    exact hsave hfind hclaimed hclosed.executions

/-! ## Answers -/

section

variable (h : Known db) (hx : x ∈ db.executions.rows)

include h hx

/-- The one row that the query of a claim can find. -/
theorem Known.existing {grant : Grant}
    (hgrant : db.grants.find grant.grantID = some grant) (hshared : x.sharedBy grant) :
    db.existing grant = some x := by
  have htuple : ∀ y ∈ db.executions.rows, y.grantID = grant.grantID →
      y.logical = grant.scope.logical := by
    intro y hy hid
    obtain ⟨g, hg, hlogical⟩ := h.logical y hy
    rw [hid, hgrant] at hg
    cases hg
    exact hlogical
  have hlogical : ∀ y ∈ db.executions.rows, y.sharedBy grant → y.logical = grant.scope.logical :=
    fun y hy hshared => hshared.elim (htuple y hy) id
  cases hfound : db.existing grant with
  | none =>
    have hnone := List.find?_eq_none.mp hfound x hx
    exact absurd (decide_eq_true hshared.symm) hnone
  | some y =>
    have hy := List.mem_of_find?_eq_some hfound
    have hprop := List.find?_some hfound
    simp only [decide_eq_true_eq] at hprop
    have hsame := (hlogical y hy hprop.symm).trans (hlogical x hx hshared).symm
    rw [h.unique y hy x hx (.inl hsame)]

theorem Known.lookup {grant : Grant} (hgrant : db.grants.find grant.grantID = some grant)
    (hshared : x.sharedBy grant) (hash : String) : lookupAppResponse db grant hash =
      if x.kind = .response ∧ x.submissionHash = hash ∧ x.grantID = grant.grantID then
        (db.outcome x).map fun result => some (x, result)
      else .error "idempotency_conflict" := by
  simp only [lookupAppResponse, h.existing hx hgrant hshared, refuse_bind, ne_eq, ← not_and_or,
    ite_not, Db.outcome]
  split
  · cases hstatus : x.status with
    | captured | rejected | dispatching | acceptanceUnknown | accepted =>
      cases hresult : db.results.find x.id <;> rfl
  · rfl

theorem Known.answers : Answers db x.toClaimed x := by
  refine ⟨rfl, ?_, ?_, ?_, ?_⟩
  · intro hfinal
    obtain ⟨result, hfind⟩ := Option.isSome_iff_exists.mp (h.results x hx hfinal)
    exact ⟨result, by simp [Db.outcome, hfind, hfinal]⟩
  · intro grant hgrant hshared r hwithin taskID now
    simp only [claimAppTaskExecution, hgrant, found_bind, refuse_bind, hwithin, if_true,
      h.existing hx hgrant hshared, ne_eq, ← not_and_or, ite_not]
  · intro grant hgrant hshared r hwithin taskID now
    simp only [claimAppResponseExecution, hgrant, found_bind, refuse_bind, hwithin,
      not_true_eq_false, if_false, h.lookup hx hgrant hshared]
    by_cases hmatch : x.kind = .response ∧ x.submissionHash = r.submissionHash ∧
      x.grantID = grant.grantID
    · simp only [if_pos hmatch]
      cases db.outcome x <;> rfl
    · simp only [if_neg hmatch]
      rfl
  · intro grant hgrant hshared hid hash hhash
    simp only [lookupAppResponseExecution, refuse_bind, hid, hhash, or_self, if_false, hgrant,
      found_bind, h.lookup hx hgrant hshared]

end

/-! ## Every run -/

theorem won_ok {call : Call} (h : call.won db = some e) :
    ∃ db', call.perform db = .ok db' ∧ db'.has e.toClaimed ∧
      ∀ x ∈ db.executions.rows, x.logical ≠ e.logical ∧ x.grantID ≠ e.grantID := by
  have hwins : ∀ {grant kind hash db'}, Wins db grant kind hash e db' → db'.has e.toClaimed ∧
      ∀ x ∈ db.executions.rows, x.logical ≠ e.logical ∧ x.grantID ≠ e.grantID := by
    rintro grant kind hash _ ⟨paid, executions, leases, -, hfresh, hinsert, rfl, -⟩
    refine ⟨⟨e, ?_, rfl⟩, hfresh.unique⟩
    rw [Table.find_insert hinsert]
    exact if_pos rfl
  cases call with simp only [Call.won] at h
  | claimTask grantID r taskID now =>
    split at h
    next e' db' hclaim =>
      cases h
      rcases claimTask_ok hclaim with ⟨hwon, -⟩ | ⟨-, grant, hw⟩
      · cases hwon
      · exact ⟨db', by simp only [Call.perform, hclaim]; rfl, hwins hw⟩
    · cases h
  | claimResponse grantID r taskID now =>
    split at h
    next e' replay db' hclaim =>
      cases h
      rcases claimResponse_ok hclaim with ⟨hwon, -⟩ | ⟨-, grant, hw⟩
      · cases hwon
      · exact ⟨db', by simp only [Call.perform, hclaim]; rfl, hwins hw⟩
    · cases h
  | _ => cases h

theorem won_fresh {call : Call} (h : call.won db = some e) :
    ∀ x ∈ db.executions.rows, x.logical ≠ e.logical ∧ x.grantID ≠ e.grantID := by
  obtain ⟨-, -, -, hfresh⟩ := won_ok h
  exact hfresh

theorem won_has {a : Attempt} (hcommits : a.commits = true) (h : a.call.won db = some e) :
    (db.attempt a).has e.toClaimed := by
  obtain ⟨db', hperform, hhas, -⟩ := won_ok h
  simpa [Db.attempt, hperform, hcommits] using hhas

theorem wins_ok {p : Execution → Bool} {a : Attempt} (h : a.wins p db = true) :
    ∃ e, p e = true ∧ a.call.won db = some e ∧ (db.attempt a).has e.toClaimed := by
  simp only [Attempt.wins, Bool.and_eq_true, Option.any_eq_true] at h
  obtain ⟨hcommits, e, hwon, hp⟩ := h
  exact ⟨e, hp, hwon, won_has hcommits hwon⟩

theorem tally_wins {α : Type} [DecidableEq α] (f : Claimed → α) (v : α)
    (hfresh : ∀ {db : Db} {call : Call} {e : Execution}, call.won db = some e →
      ∀ x ∈ db.executions.rows, f x.toClaimed ≠ f e.toClaimed) (db : Db) (as : List Attempt) :
    tally Db.attempt (Attempt.wins fun e => f e.toClaimed = v) db as ≤ 1 := by
  -- the rank is 1 from the moment on at which an execution has the value
  have hrank : ∀ {db : Db} {c : Claimed}, db.has c → f c = v →
      db.executions.rows.any (fun x => f x.toClaimed = v) = true := by
    rintro db c ⟨x, hx, rfl⟩ hv
    exact List.any_eq_true.mpr ⟨x, Table.find_mem hx, decide_eq_true hv⟩
  let rank (db : Db) : Nat := (db.executions.rows.any fun x => f x.toClaimed = v).toNat
  have hmono : ∀ db a, rank db ≤ rank (Db.attempt db a) := by
    intro db a
    simp only [rank]
    cases hany : db.executions.rows.any (fun x => f x.toClaimed = v) with
    | false => exact Nat.zero_le _
    | true =>
      obtain ⟨x, hx, hv⟩ := List.any_eq_true.mp hany
      have hfind : db.executions.find x.id = some x := Table.find_of_mem hx
      have hhas : db.has x.toClaimed := ⟨x, hfind, rfl⟩
      rw [hrank (hhas.change (attempt_change db a)) (of_decide_eq_true hv)]
  have hlow : ∀ db a, Attempt.wins (fun e => f e.toClaimed = v) db a = true → rank db < 1 := by
    intro db a hwins
    obtain ⟨e, hv, hwon, -⟩ := wins_ok hwins
    rw [Nat.lt_one_iff, Bool.toNat_eq_zero, List.any_eq_false]
    intro x hx hxv
    exact hfresh hwon x hx ((of_decide_eq_true hxv).trans (of_decide_eq_true hv).symm)
  refine tally_le_one hmono hlow ?_ db as
  intro db a hwins
  obtain ⟨e, hv, -, hhas⟩ := wins_ok hwins
  simp only [rank]
  rw [hrank hhas (of_decide_eq_true hv)]
  exact le_refl 1

section

variable (mode : QuotaMode) (user : User) (subscriptions : Table Subscription.id)
  (plans : Table SubscriptionPlan.id) (channels : Table Channel.id) (grants : Table Grant.grantID)

theorem known_run (as : List Attempt) :
    Known (run Db.attempt (.start mode user subscriptions plans channels grants) as) := by
  refine run_invariant_of_step (fun db a h => h.change (attempt_change db a)) as ?_
  constructor <;> simp [Db.start, Table.empty]

/-- In every run at most one committed call wins for each grant and for each logical tuple.
After a win every call on the grant or the tuple is answered from the execution, and it
leaves the tables as they are. -/
theorem dispatched_once (as : List Attempt) :
    (∀ grantID, tally Db.attempt (Attempt.wins fun e => e.grantID = grantID)
      (.start mode user subscriptions plans channels grants) as ≤ 1) ∧
    (∀ logical, tally Db.attempt (Attempt.wins fun e => e.logical = logical)
      (.start mode user subscriptions plans channels grants) as ≤ 1) ∧
    ∀ before a after, as = before ++ a :: after → ∀ e, a.commits = true →
      a.call.won (run Db.attempt (.start mode user subscriptions plans channels grants) before) =
        some e →
      ∃ x, Answers (run Db.attempt (.start mode user subscriptions plans channels grants) as)
        e.toClaimed x := by
  refine ⟨fun grantID => ?_, fun logical => ?_, ?_⟩
  · exact tally_wins Claimed.grantID grantID (fun hwon x hx => (won_fresh hwon x hx).2) _ as
  · exact tally_wins Claimed.logical logical (fun hwon x hx => (won_fresh hwon x hx).1) _ as
  · rintro before a after rfl e hcommits hwon
    have hknown := known_run mode user subscriptions plans channels grants (before ++ a :: after)
    rw [run_append, run_cons] at hknown ⊢
    obtain ⟨x, hx, hsame⟩ := run_invariant_of_step
      (I := fun db : Db => db.has e.toClaimed) (fun db a h => h.change (attempt_change db a)) after
      (won_has hcommits hwon)
    exact ⟨x, hsame ▸ hknown.answers (Table.find_mem hx)⟩

end

end NewApi.App
