import NewApi.Task.Steps
import NewApi.Task.Updates

/-!
# What is given back

`RefundTaskQuota` and `RecalculateTaskQuota` take the quota from the copy in memory, move the
funds, and then store the new quota without looking at the row. The right to call them comes from
different guards, so two workers may give back the same quota.

The stored quota never exceeds what is still charged, as long as the quota in memory does not
exceed the stored one whenever funds are moved or a copy is stored, and funds are not moved
between the two steps of another call.
-/

namespace NewApi

namespace Tasks

open Runs

variable {cfg : PollConfig} {s : System}

/-- The quota in memory is not above the stored one when funds are moved or a
copy is stored, and nobody else is in the middle of a billing call. -/
def quotaSafe (s : System) : Action → Prop
  | .poll id outcome _ _ =>
    match s.workers id with
    | .polling copy => outcome.bulkFailure copy = none → s.row.status = copy.status →
        copy.quota ≤ s.row.quota
    | _ => True
  | .sweep id _ _ =>
    match s.workers id with
    | .sweeping copy => s.row.status = copy.status → copy.quota ≤ s.row.quota
    | _ => True
  | .bill id _ =>
    match s.workers id with
    | .billing _ copy (op :: _) => (billingTarget copy op).isSome →
        copy.quota ≤ s.row.quota ∧ ∀ j, (s.workers j).isStoring = false
    | _ => True
  | _ => True

def quotaStored : Action → Prop
  | .bill _ env => env.quotaOk = true
  | _ => True

/-- What is stored, or about to be stored, is still charged. -/
structure Covers (s : System) : Prop where
  storing : ∀ id poller copy ops, s.workers id = .storing poller copy ops →
    copy.quota + s.credited ≤ s.charged
  stored : (∀ j, (s.workers j).isStoring = false) → s.row.quota + s.credited ≤ s.charged

theorem credit_le (t : Task) (amount used : Nat) : credit t amount used ≤ amount := by
  rw [credit]
  split
  · exact Nat.min_le_left _ _
  · exact Nat.le_refl _

/-! ## Billing calls -/

variable {id : Nat} {a : Action}

/-- A worker moves between phases that are not in the middle of a billing call. -/
theorem Covers.withPhase (h : Covers s) {phase : Phase} (hbefore : (s.workers id).isStoring = false)
    (hafter : phase.isStoring = false) : Covers (s.withPhase id phase) := by
  refine ⟨?_, fun hnone => h.stored ?_⟩
  · intro j poller copy ops hj
    rcases eq_or_ne j id with rfl | hne
    · simp only [System.withPhase, Function.update_self] at hj
      rw [hj] at hafter
      cases hafter
    · simp only [System.withPhase, Function.update_of_ne hne] at hj
      exact h.storing j poller copy ops hj
  · intro j
    rcases eq_or_ne j id with rfl | hne
    · exact hbefore
    · have := hnone j
      simpa only [System.withPhase, Function.update_of_ne hne] using this

theorem Covers.fund (h : Covers s) {poller : Bool} {copy : Task} {ops : List BillingOp}
    (target used : Nat) (hquota : copy.quota ≤ s.row.quota)
    (hnone : ∀ j, (s.workers j).isStoring = false) :
    Covers ((s.adjustFunding copy target used).withPhase id
      (.storing poller { copy with quota := target } ops)) := by
  have hcharged := h.stored hnone
  have hcredit := credit_le copy (copy.quota - target) used
  refine ⟨?_, ?_⟩
  · intro j poller' copy' ops' hj
    rcases eq_or_ne j id with rfl | hne
    · simp only [System.withPhase, Function.update_self] at hj
      cases hj
      simp only [System.withPhase, System.adjustFunding]
      omega
    · simp only [System.withPhase, System.adjustFunding, Function.update_of_ne hne] at hj
      have := hnone j
      rw [hj] at this
      cases this
  · intro hnone'
    have := hnone' id
    simp only [System.withPhase, Function.update_self] at this
    cases this

theorem Covers.store (h : Covers s) {poller : Bool} {copy : Task} {ops : List BillingOp}
    (hphase : s.workers id = .storing poller copy ops) :
    Covers ({ s with row := s.row.updateQuota copy.quota }.withPhase id
      (.billing poller copy ops)) := by
  refine ⟨?_, fun _ => h.storing id poller copy ops hphase⟩
  intro j poller' copy' ops' hj
  rcases eq_or_ne j id with rfl | hne
  · simp only [System.withPhase, Function.update_self] at hj
    cases hj
  · simp only [System.withPhase, Function.update_of_ne hne] at hj
    exact h.storing j poller' copy' ops' hj

theorem covers_bill (h : Covers s) {env : BillEnv} (hsafe : quotaSafe s (.bill id env))
    (hstored : quotaStored (.bill id env)) : Covers (step cfg s (.bill id env)) := by
  simp only [step, billStep]
  split
  next poller copy hphase =>
    refine h.withPhase (isStoring_of_eq hphase rfl) ?_
    cases poller <;> rfl
  next poller copy op ops hphase =>
    simp only [quotaSafe, hphase] at hsafe
    have hbefore := isStoring_of_eq hphase rfl
    split
    · exact h.withPhase hbefore rfl
    next target htarget =>
    split
    · obtain ⟨hquota, hnone⟩ := hsafe (by rw [htarget]; rfl)
      exact h.fund target env.used hquota hnone
    · exact h.withPhase hbefore rfl
  next poller copy ops hphase =>
    rw [hstored]
    exact h.store hphase
  · exact h

/-! ## Other steps -/

variable (cfg)

theorem storing_iff (ha : ∀ id env, a ≠ .bill id env) (j : Nat) :
    (step cfg s a).workers j = s.workers j ∨
      ((s.workers j).isStoring = false ∧ ((step cfg s a).workers j).isStoring = false) := by
  have hmove := (step_moves cfg s a).worker j
  generalize (step cfg s a).workers j = phase at hmove ⊢
  cases hmove with
  | stay => exact .inl rfl
  | rest _ hphase => exact .inr ⟨hphase, rfl⟩
  | read hphase _ | readTimedOut hphase _ | poll hphase _ _ | sweep hphase _ | claim hphase
  | reload hphase => exact .inr ⟨isStoring_of_eq hphase rfl, rfl⟩
  | dispatch hphase hwrite =>
    refine .inr ⟨isStoring_of_eq hphase rfl, ?_⟩
    rcases (dispatchWrite_spec hwrite).2.2 with ⟨-, -, rfl⟩ | ⟨t, ops, -, -, rfl, -⟩ <;> rfl
  | again => exact absurd rfl (ha _ _)
  | next => exact absurd rfl (ha _ _)
  | fund => exact absurd rfl (ha _ _)
  | store => exact absurd rfl (ha _ _)

theorem quota_le (ha : ∀ id env, a ≠ .bill id env) (hsafe : quotaSafe s a) :
    (step cfg s a).row.quota ≤ s.row.quota := by
  have hwrite := (step_moves cfg s a).row
  generalize (step cfg s a).row = row at hwrite ⊢
  cases hwrite with
  | keep | bulk => exact Nat.le_refl _
  | poll hphase hbulk hfrom =>
    simp only [quotaSafe, hphase] at hsafe
    rw [(PollOutcome.update_passed _).quota]
    exact hsafe hbulk ((PollOutcome.update_passed _).fromStatus _ hfrom)
  | sweep hphase hfrom =>
    simp only [quotaSafe, hphase] at hsafe
    refine Nat.le_trans ?_ (hsafe hfrom)
    simp only [sweepTimedOutTask]
    split
    · exact Nat.zero_le _
    · exact Nat.le_refl _
  | claim hclaim => exact Nat.le_of_eq (claimDeferred_spec hclaim).2.2
  | dispatch _ hdispatch => exact Nat.le_of_eq (dispatchWrite_spec hdispatch).2.1
  | quota => exact absurd rfl (ha _ _)

variable {cfg}

theorem covers_step (h : Covers s) (hsafe : quotaSafe s a) (hstored : quotaStored a) :
    Covers (step cfg s a) := by
  by_cases ha : ∀ id env, a ≠ .bill id env
  · obtain ⟨hcharged, hcredited⟩ := (step_moves cfg s a).ledger ha
    have hquota := quota_le cfg ha hsafe
    refine ⟨?_, ?_⟩
    · intro j poller copy ops hj
      rw [hcharged, hcredited]
      rcases storing_iff cfg (s := s) ha j with hsame | ⟨-, hafter⟩
      · rw [hsame] at hj
        exact h.storing j poller copy ops hj
      · rw [hj] at hafter
        cases hafter
    · intro hnone
      have hbefore := h.stored fun j => by
        rcases storing_iff cfg (s := s) ha j with hsame | ⟨hbefore, -⟩
        · rw [← hsame]
          exact hnone j
        · exact hbefore
      omega
  · simp only [not_forall, not_not] at ha
    obtain ⟨id, env, rfl⟩ := ha
    exact covers_bill h hsafe hstored

theorem Covers.credited_le (h : Covers s) : s.credited ≤ s.charged := by
  by_cases hnone : ∀ j, (s.workers j).isStoring = false
  · have := h.stored hnone
    omega
  simp only [not_forall, Bool.not_eq_false] at hnone
  obtain ⟨j, hj⟩ := hnone
  cases hphase : s.workers j with
  | storing poller copy ops =>
    have := h.storing j poller copy ops hphase
    omega
  | _ => rw [hphase] at hj; cases hj

/-- Never more is given back than was charged, in every run that moves funds and
stores copies only with a quota that is not stale. -/
theorem credited_le_charged {s₀ : System} (h₀ : Initial s₀) (as : List Action)
    (hsafe : Along (step cfg) (fun s a => quotaStored a ∧ quotaSafe s a) s₀ as) :
    (run (step cfg) s₀ as).credited ≤ (run (step cfg) s₀ as).charged := by
  have hcovers : Covers s₀ := by
    refine ⟨?_, ?_⟩
    · intro id poller copy ops hid
      rw [h₀.idle id] at hid
      cases hid
    · intro _
      rw [h₀.charged, h₀.credited]
      exact Nat.le_refl _
  exact (run_invariant (I := Covers) (fun _ _ hs hc => covers_step hs hc.2 hc.1) hcovers
    hsafe).credited_le

def failed : PollOutcome :=
  .single (.response 200 "" (.ok ⟨⟨"FAILURE", "rejected", "", "", 0, 0, ""⟩, none⟩))

def calmBill : BillEnv := ⟨true, true, 0⟩

theorem credited_le_charged_failed :
    (run (step plainConfig) (untouched plainTask)
        [.read 0, .poll 0 failed 5 true, .bill 0 calmBill, .bill 0 calmBill]).credited ≤
      (run (step plainConfig) (untouched plainTask)
        [.read 0, .poll 0 failed 5 true, .bill 0 calmBill, .bill 0 calmBill]).charged :=
  credited_le_charged (untouched_initial plainTask) _
    ⟨⟨trivial, trivial⟩, ⟨trivial, fun _ _ => by decide⟩,
      ⟨rfl, fun _ => ⟨by decide, fun j => by cases j <;> rfl⟩⟩, ⟨rfl, trivial⟩, trivial⟩

/-- A deferred task that waits for its dispatcher. -/
def deferredTask : Task :=
  { plainTask with
    status := .notStart
    progress := "0%"
    executionMode := .deferred
    dispatchStatus := .pending
    privateData := { plainTask.privateData with deferredRequest := some "request" } }

/-- A dispatcher takes the task, and a sweeper ends and refunds it. Then the
submission of the dispatcher fails, and it refunds the task again. -/
def twice : List Action :=
  [.claim 0 "owner" 10 310 true, .reload 0 true, .readTimedOut 1 1900000000, .sweep 1 20 true,
    .bill 1 calmBill, .bill 1 calmBill,
    .dispatch 0 (.error ⟨400, true, "bad request", "invalid"⟩) 30 true, .bill 0 calmBill]

theorem refunded_twice :
    Initial (untouched deferredTask) ∧
      (run (step plainConfig) (untouched deferredTask) twice).charged = 100 ∧
      (run (step plainConfig) (untouched deferredTask) twice).credited = 200 :=
  ⟨untouched_initial deferredTask, by decide, by decide⟩

end Tasks

end NewApi
