import NewApi.Task.Steps
import NewApi.Task.Updates

/-!
# Terminal states

A task that is over stays over as long as every write to its status knows that it is not. Three
writes do not know:

* the unguarded failure of a pass, for a task without an upstream id or with a missing channel;
* the writes of a dispatcher, which compare its lease. A sweeper that ends the task stores the
  lease again as it read it;
* a pass that comes to the same copy a second time, after it has ended the task in memory.
-/

namespace NewApi

namespace Tasks

open Runs

variable {cfg : PollConfig} {s : System}

/-- An unguarded write and a write under a lease come before the end of the task,
and a pass does not come back to a copy that is over. -/
def statusSafe (s : System) : Action → Prop
  | .poll id outcome _ _ =>
    match s.workers id with
    | .polling copy =>
      if (outcome.bulkFailure copy).isSome then s.row.status.terminal = false
      else copy.status.terminal = false
    | _ => True
  | .dispatch id _ _ _ =>
    match s.workers id with
    | .dispatching owner _ => s.row.dispatchedBy owner = true → s.row.status.terminal = false
    | _ => True
  | _ => True

def SweepsOpen (s : System) : Prop :=
  ∀ id copy, s.workers id = .sweeping copy → copy.status.terminal = false

theorem sweepsOpen_step (h : SweepsOpen s) (a : Action) : SweepsOpen (step cfg s a) := by
  intro j copy hcopy
  have hmove := (step_moves cfg s a).worker j
  rw [hcopy] at hmove
  generalize hp : Phase.sweeping copy = phase at hmove
  cases hmove with
  | stay => exact h j copy hp.symm
  | readTimedOut _ hselected =>
    cases hp
    simp only [Task.timedOut, Task.unfinished, Bool.and_eq_true, Bool.not_eq_true',
      decide_eq_true_eq] at hselected
    exact hselected.1.2
  | dispatch hphase hwrite =>
    rcases (dispatchWrite_spec hwrite).2.2 with ⟨-, -, hidle⟩ | ⟨t, ops, -, -, hbilling, -⟩
    · rw [hidle] at hp; cases hp
    · rw [hbilling] at hp; cases hp
  | _ => cases hp

theorem status_step (hsweep : SweepsOpen s) {a : Action} (hsafe : statusSafe s a)
    (hterm : s.row.status.terminal = true) : (step cfg s a).row.status = s.row.status := by
  have hwrite := (step_moves cfg s a).row
  generalize (step cfg s a).row = row at hwrite ⊢
  cases hwrite with
  | keep => rfl
  | poll hphase hbulk hfrom =>
    have hsame := (PollOutcome.update_passed _).fromStatus _ hfrom
    simp only [statusSafe, hphase, hbulk, Option.isSome_none, Bool.false_eq_true, if_false]
      at hsafe
    rw [hsame, hsafe] at hterm
    cases hterm
  | sweep hphase hfrom =>
    rw [hfrom, hsweep _ _ hphase] at hterm
    cases hterm
  | bulk hphase hbulk =>
    simp only [statusSafe, hphase, hbulk, Option.isSome_some, if_true] at hsafe
    cases hsafe.symm.trans hterm
  | claim hclaim => exact (claimDeferred_spec hclaim).1
  | dispatch hphase hdispatch =>
    simp only [statusSafe, hphase] at hsafe
    rw [hsafe (dispatchWrite_spec hdispatch).1] at hterm
    cases hterm
  | quota => rfl

/-- Once a task is over its status never changes, in every run whose unguarded
writes and writes under a lease all come before. -/
theorem terminal_absorbing {s₀ : System} (h₀ : Initial s₀) (as bs : List Action)
    (hsafe : Along (step cfg) statusSafe s₀ (as ++ bs))
    (hterm : (run (step cfg) s₀ as).row.status.terminal = true) :
    (run (step cfg) s₀ (as ++ bs)).row.status = (run (step cfg) s₀ as).row.status := by
  have hsweep : SweepsOpen (run (step cfg) s₀ as) :=
    run_invariant_of_step (I := SweepsOpen) (fun _ a hs => sweepsOpen_step hs a) as
      fun id copy hcopy => by rw [h₀.idle id] at hcopy; cases hcopy
  rw [run_append]
  refine (run_invariant (I := fun t => SweepsOpen t ∧ t.row.status.terminal = true ∧
    t.row.status = (run (step cfg) s₀ as).row.status) ?_ ⟨hsweep, hterm, rfl⟩
    (along_append.mp hsafe).2).2.2
  intro t a ht hc
  obtain ⟨hopen, hover, hsame⟩ := ht
  have hstep : (step cfg t a).row.status = t.row.status := status_step hopen hc hover
  exact ⟨sweepsOpen_step hopen a, hstep ▸ hover, hstep.trans hsame⟩

def answered (status url : String) : PollOutcome :=
  .single (.response 200 "" (.ok ⟨⟨status, "", url, "", 0, 0, ""⟩, none⟩))

/-- Two pollers have read the task, and the second one stores its success first. -/
def raced : List Action :=
  [.read 0, .read 1, .poll 1 (answered "SUCCESS" "https://result") 5 true]

/-- The failure that the other poller comes with is not stored. -/
theorem terminal_absorbing_success :
    (run (step plainConfig) (untouched plainTask) raced).row.status.terminal = true ∧
      (run (step plainConfig) (untouched plainTask)
          (raced ++ [.poll 0 (answered "FAILURE" "") 6 true, .bill 1 ⟨true, true, 0⟩])).row.status =
        (run (step plainConfig) (untouched plainTask) raced).row.status :=
  ⟨by decide, terminal_absorbing (untouched_initial plainTask) _ _
    ⟨trivial, trivial, rfl, rfl, trivial, trivial⟩ (by decide)⟩

/-- The other poller finds that the channel is missing and fails the task. -/
theorem terminal_overwritten :
    Initial (untouched plainTask) ∧
      (run (step plainConfig) (untouched plainTask) raced).row.status = .success ∧
      (run (step plainConfig) (untouched plainTask)
        (raced ++ [.poll 0 (.channelMissing false 7) 6 true])).row.status = .failure :=
  ⟨untouched_initial plainTask, by decide, by decide⟩

end Tasks

end NewApi
