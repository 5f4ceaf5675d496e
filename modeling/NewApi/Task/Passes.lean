import NewApi.Task.Steps
import NewApi.Task.Updates

/-!
# Passes that end a task

A pass that ends a task without success wins a full-row write and then refunds
the quota of its copy, which is what it has just stored. So the stored quota comes
back when the copy has it and the subscription, if one pays, has used as much. The
unguarded failures of a pass, for a task without an upstream id or with a missing
channel, write the status and refund nothing.
-/

namespace NewApi

namespace Tasks

open Runs

variable {cfg : PollConfig} {s : System} {id : Nat} {copy : Task}

/-- A polling pass or a sweep that comes to the copy of a worker, with a database
that answers. -/
inductive Pass (s : System) (id : Nat) (copy : Task) : Action → Prop
  | poll (outcome : PollOutcome) (now : Int) (hphase : s.workers id = .polling copy) :
      Pass s id copy (.poll id outcome now true)
  | sweep (now : Int) (hphase : s.workers id = .sweeping copy) : Pass s id copy (.sweep id now true)

def unguarded (copy : Task) : Action → Prop
  | .poll _ outcome _ _ => (outcome.bulkFailure copy).isSome = true
  | _ => False

/-- No usage is reported for the completed task. -/
def noUsage (cfg : PollConfig) : Action → Prop
  | .poll _ outcome _ _ => cfg.pricing.noAdjustment ∧ outcome.noTokens
  | _ => True

/-- The two steps of a billing call that goes through. -/
def billed (id used : Nat) : List Action := List.replicate 2 (.bill id ⟨true, true, used⟩)

theorem credit_zero (t : Task) (used : Nat) : credit t 0 used = 0 := by
  rw [credit]
  split
  · exact Nat.zero_min used
  · rfl

/-- The quota of the copy gives back the stored one: they are the same, and a subscription
has used that much, or the copy has more and the update stops at the used amount. -/
def givesBack (row copy : Task) (used : Nat) : Prop :=
  (copy.quota = row.quota ∧ (copy.isSubscription = true → row.quota ≤ used)) ∨
    (copy.isSubscription = true ∧ used = row.quota ∧ row.quota ≤ copy.quota)

theorem credit_eq_iff (row copy : Task) (used : Nat) :
    credit copy copy.quota used = row.quota ↔ givesBack row copy used := by
  rw [credit, givesBack]
  cases copy.isSubscription with
  | true => simp only [if_true, true_implies, true_and]; omega
  | false => rw [if_neg (by simp)]; simp

variable {poller : Bool}

theorem run_refund (cfg : PollConfig) {t : Task} (used : Nat) (happ : t.isAppManaged = false)
    (hphase : s.workers id = .billing poller t (refundOps t)) (hrow : s.row = t) :
    (run (step cfg) s (billed id used)).row.quota = 0 ∧
      (run (step cfg) s (billed id used)).credited = s.credited + credit t t.quota used := by
  by_cases hzero : t.quota = 0
  · rw [refundOps, if_neg (not_not.mpr hzero)] at hphase
    -- There is nothing to do, and the worker leaves the call.
    have hfirst : step cfg s (.bill id ⟨true, true, used⟩) =
        s.withPhase id (if poller then .polling t else .idle) := by
      simp only [step, billStep, hphase]
    have hsecond : step cfg (s.withPhase id (if poller then .polling t else .idle))
        (.bill id ⟨true, true, used⟩) = s.withPhase id (if poller then .polling t else .idle) := by
      cases poller <;> simp [step, billStep, System.withPhase]
    simp only [billed, List.replicate, run_cons, run_nil, hfirst, hsecond]
    rw [hzero, credit_zero]
    exact ⟨by rw [System.withPhase, hrow]; exact hzero, rfl⟩
  · rw [refundOps, if_pos hzero] at hphase
    have htarget : billingTarget t .refund = some 0 := by
      simp [billingTarget, happ, hzero]
    simp [billed, List.replicate, run_cons, run_nil, step, billStep, hphase, htarget,
      System.withPhase, System.adjustFunding, Task.updateQuota]

theorem applyUpdate_moved {u : PollUpdate}
    (hmoved : (s.applyUpdate id poller true u).row.status ≠ s.row.status) :
    u.fromStatus = some s.row.status ∧ (s.applyUpdate id poller true u).row = u.copy ∧
      (s.applyUpdate id poller true u).workers id = .billing poller u.copy u.won ∧
      (s.applyUpdate id poller true u).credited = s.credited := by
  have hfrom : u.fromStatus = some s.row.status := by
    by_contra hother
    refine hmoved ?_
    rw [System.applyUpdate]
    split
    · rfl
    next fromStatus hfrom =>
      have hne : s.row.status ≠ fromStatus := fun hsame => hother (hsame ▸ hfrom)
      simp [Task.updateWithStatus, hne, System.withPhase]
  refine ⟨hfrom, ?_, ?_, ?_⟩ <;>
    simp [System.applyUpdate, hfrom, Task.updateWithStatus, System.withPhase]

theorem guarded_refunded {u : PollUpdate} (used : Nat) (hupdate : Update copy u)
    (hrefunds : Refunds copy u) (happ : copy.isAppManaged = false)
    (hmoved : (s.applyUpdate id poller true u).row.status ≠ s.row.status)
    (hlost : (s.applyUpdate id poller true u).row.status.lost) :
    (run (step cfg) (s.applyUpdate id poller true u) (billed id used)).row.quota = 0 ∧
      (run (step cfg) (s.applyUpdate id poller true u) (billed id used)).credited =
        s.credited + credit copy copy.quota used := by
  obtain ⟨hfrom, hrow, hphase, hcredited⟩ := applyUpdate_moved hmoved
  have hstatus := hupdate.fromStatus _ hfrom
  rw [hrow] at hmoved hlost
  have hwon := hrefunds hlost (by rw [← hstatus]; exact hmoved.symm) (by rw [hfrom]; simp)
  rw [hwon] at hphase
  have happ' : u.copy.isAppManaged = false := by
    rw [Task.isAppManaged, hupdate.executionMode]
    exact happ
  have hrun := run_refund cfg used happ' hphase hrow
  have hcredit : credit u.copy u.copy.quota used = credit copy copy.quota used := by
    rw [credit, credit, hupdate.subscription, hupdate.quota]
  rw [hcredit, hcredited] at hrun
  exact hrun

theorem unguarded_kept (cfg : PollConfig) (now : Int) (used : Nat) {outcome : PollOutcome}
    {reason : Option String}
    (hphase : s.workers id = .polling copy) (hbulk : outcome.bulkFailure copy = some reason) :
    (run (step cfg) (step cfg s (.poll id outcome now true)) (billed id used)).row.quota =
        s.row.quota ∧
      (run (step cfg) (step cfg s (.poll id outcome now true)) (billed id used)).credited =
        s.credited := by
  have hstep : step cfg s (.poll id outcome now true) =
      { s with row := s.row.bulkFail reason }.withPhase id .idle := by
    simp only [step, pollStep, hphase, hbulk, if_true]
  have hbill : ∀ t : System, t.workers id = .idle →
      step cfg t (.bill id ⟨true, true, used⟩) = t := by
    intro t ht
    simp only [step, billStep, ht]
  have hidle : ({ s with row := s.row.bulkFail reason }.withPhase id .idle).workers id = .idle := by
    simp only [System.withPhase, Function.update_self]
  rw [hstep]
  simp only [billed, List.replicate, run_cons, run_nil, hbill _ hidle]
  exact ⟨rfl, rfl⟩

theorem guarded_iff {a : Action} {t : System} {used : Nat} (hguard : ¬unguarded copy a)
    (h : t.row.quota = 0 ∧ t.credited = s.credited + credit copy copy.quota used) :
    (t.row.quota = 0 ∧ t.credited = s.credited + s.row.quota) ↔
      (unguarded copy a ∧ s.row.quota = 0) ∨ (¬unguarded copy a ∧ givesBack s.row copy used) := by
  rw [h.1, h.2, Nat.add_left_cancel_iff, credit_eq_iff]
  simp [hguard]

/-- A pass that ends a task without success gives the stored quota back and clears it,
exactly when it did so under a guard with a copy that gives it back, or there was nothing
to give back. -/
theorem lost_task_refunded {a : Action} (hpass : Pass s id copy a)
    (happ : copy.isAppManaged = false) (hlegacy : copy.isLegacy = false) (husage : noUsage cfg a)
    (hmoved : (step cfg s a).row.status ≠ s.row.status) (hlost : (step cfg s a).row.status.lost)
    (used : Nat) :
    ((run (step cfg) (step cfg s a) (billed id used)).row.quota = 0 ∧
      (run (step cfg) (step cfg s a) (billed id used)).credited = s.credited + s.row.quota) ↔
      (unguarded copy a ∧ s.row.quota = 0) ∨ (¬unguarded copy a ∧ givesBack s.row copy used) := by
  cases hpass with
  | poll outcome now hphase =>
    cases hbulk : outcome.bulkFailure copy with
    | some reason =>
      obtain ⟨hquota, hcredited⟩ := unguarded_kept cfg now used hphase hbulk
      rw [hquota, hcredited, unguarded, hbulk]
      constructor
      · exact fun h => .inl ⟨rfl, h.1⟩
      · rintro (⟨-, hzero⟩ | ⟨hguard, -⟩)
        · rw [hzero]
          exact ⟨rfl, rfl⟩
        · exact absurd rfl hguard
    | none =>
      have hstep : step cfg s (.poll id outcome now true) =
          s.applyUpdate id true true (outcome.update cfg now copy) := by
        simp only [step, pollStep, hphase, hbulk]
      have hguard : ¬unguarded copy (.poll id outcome now true) := by
        rw [unguarded, hbulk]
        intro h; cases h
      rw [hstep] at hmoved hlost ⊢
      exact guarded_iff hguard (guarded_refunded used outcome.update_passed.toUpdate
        (outcome.update_passed.refunds husage.1 husage.2) happ hmoved hlost)
  | sweep now hphase =>
    have hstep : step cfg s (.sweep id now true) =
        s.applyUpdate id false true (sweepTimedOutTask cfg now copy) := by
      simp only [step, sweepStep, hphase]
    have hquota : (sweepTimedOutTask cfg now copy).copy.quota = copy.quota := by
      simp only [sweepTimedOutTask, hlegacy, Bool.false_eq_true, if_false]
    have hupdate : Update copy (sweepTimedOutTask cfg now copy) :=
      ⟨fun _ h => (Option.some.inj h).symm, hquota, rfl, rfl⟩
    have hrefunds : Refunds copy (sweepTimedOutTask cfg now copy) := by
      intro _ _ _
      simp only [sweepTimedOutTask, hlegacy, refundOps, Bool.false_eq_true, if_false, true_and]
    rw [hstep] at hmoved hlost ⊢
    exact guarded_iff (fun h => h) (guarded_refunded used hupdate hrefunds happ hmoved hlost)

def readOnce : System := run (step plainConfig) (untouched plainTask) [.read 0]

def notFound : PollOutcome := .single (.response 404 "" (.error ""))

theorem lost_task_refunded_notFound :
    (step plainConfig readOnce (.poll 0 notFound 5 true)).row.status.lost ∧
      (((run (step plainConfig) (step plainConfig readOnce (.poll 0 notFound 5 true))
            (billed 0 0)).row.quota = 0 ∧
          (run (step plainConfig) (step plainConfig readOnce (.poll 0 notFound 5 true))
            (billed 0 0)).credited = readOnce.credited + readOnce.row.quota) ↔
        (unguarded plainTask (.poll 0 notFound 5 true) ∧ readOnce.row.quota = 0) ∨
          (¬unguarded plainTask (.poll 0 notFound 5 true) ∧
            givesBack readOnce.row plainTask 0)) :=
  ⟨.inl rfl, lost_task_refunded (.poll notFound 5 rfl) rfl (by decide)
    ⟨fun _ _ => Int.le_refl 0, trivial⟩ (by decide) (.inl rfl) 0⟩

/-- The channel of the task is missing. The task fails, and its quota of 100 is
neither given back nor cleared. -/
theorem lost_task_charged :
    (run (step plainConfig) readOnce
        (.poll 0 (.channelMissing false 7) 5 true :: billed 0 0)).row.status = .failure ∧
      (run (step plainConfig) readOnce
        (.poll 0 (.channelMissing false 7) 5 true :: billed 0 0)).row.quota = 100 ∧
      (run (step plainConfig) readOnce
        (.poll 0 (.channelMissing false 7) 5 true :: billed 0 0)).credited = 0 :=
  ⟨by decide, by decide, by decide⟩

end Tasks

end NewApi
