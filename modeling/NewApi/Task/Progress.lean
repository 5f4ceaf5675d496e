import NewApi.Task.Steps
import NewApi.Task.Updates

/-!
# Tasks that stay in sight

The queries for unfinished tasks look at the status and at the progress, which is
text from the upstream on several paths. A task that is not terminal and has a
progress of 100% is polled no more and times out no more.

The row and every copy in memory keep the two in step, as long as no answer
reports 100% for a task that it calls unfinished.
-/

namespace NewApi

/-- A result that is there at once does not report 100% for a task that it calls
unfinished. -/
def TaskSubmitResult.honest (result : TaskSubmitResult) : Prop :=
  ∀ info ∈ result.immediate, (TaskStatus.ofText info.status).terminal = false →
    info.progress ≠ "100%"

theorem applyDeferredTaskResult_visible {cfg : PollConfig} {now : Int} {copy : Task}
    {result : TaskSubmitResult} (h : result.honest) :
    (applyDeferredTaskResult cfg now copy result).Visible := by
  intro hopen
  rw [applyDeferredTaskResult] at hopen ⊢
  cases himmediate : result.immediate with
  | none =>
    show "10%" ≠ "100%"
    decide
  | some info =>
    rw [himmediate] at hopen
    have hstatus : (TaskStatus.ofText info.status).terminal = false := hopen
    have hended : ¬(TaskStatus.ofText info.status = .success ∨
        TaskStatus.ofText info.status = .failure) := by
      rintro (hs | hs) <;> rw [hs] at hstatus <;> cases hstatus
    simp only [applyImmediate, hended, if_false]
    split
    · decide
    · exact h info (by rw [himmediate]; rfl) hstatus

namespace Tasks

open Runs

variable {cfg : PollConfig} {s : System}

/-- The answers are honest about unfinished tasks. -/
def progressSafe (s : System) : Action → Prop
  | .poll id outcome _ _ =>
    match s.workers id with
    | .polling copy => outcome.bulkFailure copy = none → outcome.honest copy
    | _ => True
  | .dispatch _ (.ok result) _ _ => result.honest
  | _ => True

def Phase.copy : Phase → Option Task
  | .idle | .claimed _ => none
  | .polling copy | .sweeping copy | .dispatching _ copy | .billing _ copy _ | .storing _ copy _ =>
    some copy

/-- The row and every copy are in step. -/
structure InSight (s : System) : Prop where
  row : s.row.Visible
  copies : ∀ j copy, (s.workers j).copy = some copy → copy.Visible

theorem visible_of_eq {t t' : Task} (hstatus : t'.status = t.status)
    (hprogress : t'.progress = t.progress) (h : t.Visible) : t'.Visible := by
  rw [Task.Visible, hstatus, hprogress]
  exact h

theorem visible_failed {t : Task} (h : t.status = .failure) : t.Visible := by
  intro hopen
  rw [h] at hopen
  cases hopen

theorem dispatch_visible {owner : String} {copy row row' : Task} {now : Int} {phase : Phase}
    {outcome : Except TaskError TaskSubmitResult}
    (h : dispatchWrite cfg owner copy now row outcome = some (row', phase)) (hrow : row.Visible)
    (hhonest : ∀ result, outcome = .ok result → result.honest) :
    row'.Visible ∧ ∀ t, phase.copy = some t → t.Visible := by
  rcases (dispatchWrite_spec h).2.2 with ⟨hstatus, hprogress, rfl⟩ |
    ⟨t, ops, hstatus, hprogress, rfl, ht⟩
  · exact ⟨visible_of_eq hstatus hprogress hrow, fun _ hnone => by cases hnone⟩
  have hvisible : t.Visible := by
    rcases ht with ⟨reason, rfl⟩ | ⟨result, hok, rfl⟩
    · exact visible_failed rfl
    · exact applyDeferredTaskResult_visible (hhonest result hok)
  exact ⟨visible_of_eq hstatus hprogress hvisible, fun _ hsome => by cases hsome; exact hvisible⟩

variable {a : Action}

theorem inSight_row (h : InSight s) (hsafe : progressSafe s a) : (step cfg s a).row.Visible := by
  have hwrite := (step_moves cfg s a).row
  generalize (step cfg s a).row = row at hwrite ⊢
  cases hwrite with
  | keep => exact h.row
  | poll hphase hbulk _ =>
    simp only [progressSafe, hphase] at hsafe
    exact (PollOutcome.update_passed _).visible (h.copies _ _ (by rw [hphase]; rfl)) (hsafe hbulk)
  | sweep | bulk => exact visible_failed rfl
  | claim hclaim =>
    obtain ⟨hstatus, hprogress, -⟩ := claimDeferred_spec hclaim
    exact visible_of_eq hstatus hprogress h.row
  | dispatch hphase hdispatch =>
    refine (dispatch_visible hdispatch h.row ?_).1
    intro result hok
    subst hok
    exact hsafe
  | quota => exact h.row

theorem inSight_copy (h : InSight s) (hsafe : progressSafe s a) (j : Nat) :
    ∀ copy, ((step cfg s a).workers j).copy = some copy → copy.Visible := by
  have hmove := (step_moves cfg s a).worker j
  generalize (step cfg s a).workers j = phase at hmove ⊢
  have hold : ∀ {phase : Phase} {copy : Task}, s.workers j = phase → phase.copy = some copy →
      copy.Visible := fun hphase hcopy => h.copies j _ (by rw [hphase]; exact hcopy)
  intro t ht
  cases hmove with
  | stay => exact h.copies j t ht
  | rest => cases ht
  | claim => cases ht
  | read | readTimedOut | reload => cases ht; exact h.row
  | poll hphase hbulk ops =>
    cases ht
    simp only [progressSafe, hphase] at hsafe
    exact (PollOutcome.update_passed _).visible (hold hphase rfl) (hsafe hbulk)
  | sweep => cases ht; exact visible_failed rfl
  | dispatch hphase hdispatch =>
    refine (dispatch_visible hdispatch h.row ?_).2 t ht
    intro result hok
    subst hok
    exact hsafe
  | again hphase | next hphase | store hphase => cases ht; exact hold hphase rfl
  | fund hphase _ =>
    have hvisible := hold hphase rfl
    cases ht
    exact visible_of_eq rfl rfl hvisible

theorem inSight_step (h : InSight s) (hsafe : progressSafe s a) : InSight (step cfg s a) :=
  ⟨inSight_row h hsafe, inSight_copy h hsafe⟩

/-- An unfinished task stays in sight of both queries, in every run whose answers
are honest. -/
theorem unfinished_visible {s₀ : System} (h₀ : Initial s₀) (hrow : s₀.row.Visible)
    (as : List Action) (hsafe : Along (step cfg) progressSafe s₀ as)
    (hopen : (run (step cfg) s₀ as).row.status.terminal = false) :
    (run (step cfg) s₀ as).row.progress ≠ "100%" ∧
      ((run (step cfg) s₀ as).row.isAppManaged = false →
        ((run (step cfg) s₀ as).row.executionMode ≠ .deferred ∨
          (run (step cfg) s₀ as).row.dispatchStatus = .dispatched →
            (run (step cfg) s₀ as).row.unfinishedSync = true) ∧
        ∀ cutoff, (run (step cfg) s₀ as).row.submitTime < cutoff →
          (run (step cfg) s₀ as).row.timedOut cutoff = true) := by
  have hsight : InSight (run (step cfg) s₀ as) := by
    refine run_invariant (I := InSight) (fun _ _ hs hc => inSight_step hs hc) ⟨hrow, ?_⟩ hsafe
    intro j copy hj
    rw [h₀.idle j] at hj
    cases hj
  have hprogress := hsight.row hopen
  refine ⟨hprogress, ?_⟩
  intro happ
  have hunfinished : (run (step cfg) s₀ as).row.unfinished = true := by
    simp [Task.unfinished, hprogress, happ, hopen]
  exact ⟨fun hmode => by simp [Task.unfinishedSync, hunfinished, hmode],
    fun cutoff hlt => by simp [Task.timedOut, hunfinished, hlt]⟩

/-- The upstream reports progress on a running task. -/
def running (progress : String) : PollOutcome :=
  .single (.response 200 "" (.ok ⟨⟨"IN_PROGRESS", "", "", progress, 0, 0, ""⟩, none⟩))

theorem unfinished_visible_half :
    (run (step plainConfig) (untouched plainTask)
        [.read 0, .poll 0 (running "50%") 5 true]).row.status = .inProgress ∧
      (run (step plainConfig) (untouched plainTask)
        [.read 0, .poll 0 (running "50%") 5 true]).row.progress ≠ "100%" :=
  ⟨by decide, (unfinished_visible (untouched_initial plainTask) (fun _ => by decide)
    [.read 0, .poll 0 (running "50%") 5 true]
    ⟨trivial, fun _ _ => by decide, trivial⟩ (by decide)).1⟩

/-- The upstream calls the task running and reports 100%. Neither query finds the
task again. -/
theorem unfinished_hidden :
    (run (step plainConfig) (untouched plainTask)
        [.read 0, .poll 0 (running "100%") 5 true]).row.status = .inProgress ∧
      (run (step plainConfig) (untouched plainTask)
        [.read 0, .poll 0 (running "100%") 5 true]).row.unfinishedSync = false ∧
      (run (step plainConfig) (untouched plainTask)
        [.read 0, .poll 0 (running "100%") 5 true]).row.timedOut 2000000000 = false :=
  ⟨by decide, by decide, by decide⟩

end Tasks

end NewApi
