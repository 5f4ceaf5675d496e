import NewApi.Task.System

/-!
# What a step does

The writes to the row (`RowWrite`) and the moves of a worker (`PhaseMove`), one
constructor for each kind. Every result about runs goes through these two
relations and does not look at the steps again.
-/

namespace NewApi

namespace Tasks

variable {cfg : PollConfig} {s : System}

/-- What a step leaves in the row. -/
inductive RowWrite (cfg : PollConfig) (s : System) : Action → Task → Prop
  | keep (a : Action) : RowWrite cfg s a s.row
  | poll {id : Nat} {copy : Task} {outcome : PollOutcome} {now : Int}
      (hphase : s.workers id = .polling copy) (hbulk : outcome.bulkFailure copy = none)
      (hfrom : (outcome.update cfg now copy).fromStatus = some s.row.status) :
      RowWrite cfg s (.poll id outcome now true) (outcome.update cfg now copy).copy
  | sweep {id : Nat} {copy : Task} {now : Int} (hphase : s.workers id = .sweeping copy)
      (hfrom : s.row.status = copy.status) :
      RowWrite cfg s (.sweep id now true) (sweepTimedOutTask cfg now copy).copy
  | bulk {id : Nat} {copy : Task} {outcome : PollOutcome} {now : Int} {reason : Option String}
      (hphase : s.workers id = .polling copy) (hbulk : outcome.bulkFailure copy = some reason) :
      RowWrite cfg s (.poll id outcome now true) (s.row.bulkFail reason)
  | claim {id : Nat} {owner : String} {now lockUntil : Int} {row : Task}
      (hclaim : s.row.claimDeferred owner now lockUntil = some row) :
      RowWrite cfg s (.claim id owner now lockUntil true) row
  | dispatch {id : Nat} {owner : String} {copy row : Task} {phase : Phase}
      {outcome : Except TaskError TaskSubmitResult} {now : Int}
      (hphase : s.workers id = .dispatching owner copy)
      (hwrite : dispatchWrite cfg owner copy now s.row outcome = some (row, phase)) :
      RowWrite cfg s (.dispatch id outcome now true) row
  | quota {id : Nat} {poller : Bool} {copy : Task} {ops : List BillingOp} {env : BillEnv}
      (hphase : s.workers id = .storing poller copy ops) :
      RowWrite cfg s (.bill id env) (s.row.updateQuota copy.quota)

/-- Where a step leaves a worker. -/
inductive PhaseMove (cfg : PollConfig) (s : System) : Action → Nat → Phase → Prop
  | stay (a : Action) (j : Nat) : PhaseMove cfg s a j (s.workers j)
  | rest (a : Action) {j : Nat} (hphase : (s.workers j).isStoring = false) :
      PhaseMove cfg s a j .idle
  | read {id : Nat} (hphase : s.workers id = .idle) (hselected : s.row.unfinishedSync = true) :
      PhaseMove cfg s (.read id) id (.polling s.row)
  | readTimedOut {id : Nat} {cutoff : Int} (hphase : s.workers id = .idle)
      (hselected : s.row.timedOut cutoff = true) :
      PhaseMove cfg s (.readTimedOut id cutoff) id (.sweeping s.row)
  | poll {id : Nat} {copy : Task} {outcome : PollOutcome} {now : Int} {dbOk : Bool}
      (hphase : s.workers id = .polling copy) (hbulk : outcome.bulkFailure copy = none)
      (ops : List BillingOp) :
      PhaseMove cfg s (.poll id outcome now dbOk) id
        (.billing true (outcome.update cfg now copy).copy ops)
  | sweep {id : Nat} {copy : Task} {now : Int} {dbOk : Bool}
      (hphase : s.workers id = .sweeping copy) (ops : List BillingOp) :
      PhaseMove cfg s (.sweep id now dbOk) id
        (.billing false (sweepTimedOutTask cfg now copy).copy ops)
  | claim {id : Nat} {owner : String} {now lockUntil : Int} {dbOk : Bool}
      (hphase : s.workers id = .idle) :
      PhaseMove cfg s (.claim id owner now lockUntil dbOk) id (.claimed owner)
  | reload {id : Nat} {owner : String} {dbOk : Bool} (hphase : s.workers id = .claimed owner) :
      PhaseMove cfg s (.reload id dbOk) id (.dispatching owner s.row)
  | dispatch {id : Nat} {owner : String} {copy row : Task} {phase : Phase}
      {outcome : Except TaskError TaskSubmitResult} {now : Int} {dbOk : Bool}
      (hphase : s.workers id = .dispatching owner copy)
      (hwrite : dispatchWrite cfg owner copy now s.row outcome = some (row, phase)) :
      PhaseMove cfg s (.dispatch id outcome now dbOk) id phase
  | again {id : Nat} {copy : Task} {env : BillEnv}
      (hphase : s.workers id = .billing true copy []) :
      PhaseMove cfg s (.bill id env) id (.polling copy)
  | next {id : Nat} {poller : Bool} {copy : Task} {op : BillingOp} {ops : List BillingOp}
      {env : BillEnv} (hphase : s.workers id = .billing poller copy (op :: ops)) :
      PhaseMove cfg s (.bill id env) id (.billing poller copy ops)
  | fund {id : Nat} {poller : Bool} {copy : Task} {op : BillingOp} {ops : List BillingOp}
      {env : BillEnv} {target : Nat} (hphase : s.workers id = .billing poller copy (op :: ops))
      (htarget : billingTarget copy op = some target) :
      PhaseMove cfg s (.bill id env) id (.storing poller { copy with quota := target } ops)
  | store {id : Nat} {poller : Bool} {copy : Task} {ops : List BillingOp} {env : BillEnv}
      (hphase : s.workers id = .storing poller copy ops) :
      PhaseMove cfg s (.bill id env) id (.billing poller copy ops)

/-! ## One step -/

/-- A step writes the row and moves its worker and, unless it bills, leaves the ledger. -/
structure Moves (cfg : PollConfig) (s : System) (a : Action) (t : System) : Prop where
  row : RowWrite cfg s a t.row
  worker : ∀ j, PhaseMove cfg s a j (t.workers j)
  ledger : (∀ id env, a ≠ .bill id env) → t.charged = s.charged ∧ t.credited = s.credited

variable {a : Action} {t : System} {id : Nat} {phase : Phase}

theorem Moves.same : Moves cfg s a s := ⟨.keep a, .stay a, fun _ => ⟨rfl, rfl⟩⟩

theorem Moves.withPhase (h : PhaseMove cfg s a id phase)
    (hrow : RowWrite cfg s a t.row := by exact .keep _) (ht : t.workers = s.workers := by rfl)
    (hledger : (∀ id env, a ≠ .bill id env) → t.charged = s.charged ∧
      t.credited = s.credited := by exact fun _ => ⟨rfl, rfl⟩) :
    Moves cfg s a (t.withPhase id phase) := by
  refine ⟨hrow, fun j => ?_, hledger⟩
  rcases eq_or_ne j id with rfl | hj
  · simpa only [System.withPhase, Function.update_self] using h
  · simp only [System.withPhase, Function.update_of_ne hj, ht]
    exact .stay a j

theorem applyUpdate_moves {poller dbOk : Bool} {u : PollUpdate}
    (hphase : ∀ ops, PhaseMove cfg s a id (.billing poller u.copy ops))
    (hrow : dbOk = true → u.fromStatus = some s.row.status → RowWrite cfg s a u.copy) :
    Moves cfg s a (s.applyUpdate id poller dbOk u) := by
  rw [System.applyUpdate]
  cases hfrom : u.fromStatus with
  | none => exact .withPhase (hphase _)
  | some fromStatus =>
    cases dbOk with
    | false => exact .withPhase (hphase _)
    | true =>
      by_cases hstatus : s.row.status = fromStatus
      · simp only [if_true, Task.updateWithStatus, hstatus]
        exact .withPhase (hphase _) (hrow rfl (hfrom.trans (by rw [hstatus])))
      · simp only [if_true, Task.updateWithStatus, hstatus, if_false]
        exact .withPhase (hphase _)

theorem isStoring_of_eq {j : Nat} (h : s.workers j = phase) (hphase : phase.isStoring = false) :
    (s.workers j).isStoring = false := by rw [h, hphase]

theorem step_moves (cfg : PollConfig) (s : System) (a : Action) : Moves cfg s a (step cfg s a) := by
  cases a with simp only [step]
  | read id =>
    split
    next hphase =>
      split
      next hselected => exact .withPhase (.read hphase hselected)
      · exact .same
    · exact .same
  | readTimedOut id cutoff =>
    split
    next hphase =>
      split
      next hselected => exact .withPhase (.readTimedOut hphase hselected)
      · exact .same
    · exact .same
  | poll id outcome now dbOk =>
    simp only [pollStep]
    split
    case h_2 => exact .same
    next copy hphase =>
    split
    next reason hbulk =>
      refine .withPhase (.rest _ (isStoring_of_eq hphase rfl)) ?_
      cases dbOk with
      | false => exact .keep _
      | true => exact .bulk hphase hbulk
    next hbulk =>
      refine applyUpdate_moves (.poll hphase hbulk) fun hok hfrom => ?_
      subst hok
      exact .poll hphase hbulk hfrom
  | sweep id now dbOk =>
    simp only [sweepStep]
    split
    case h_2 => exact .same
    next copy hphase =>
    refine applyUpdate_moves (.sweep hphase) fun hok hfrom => ?_
    subst hok
    exact .sweep hphase (Option.some.inj hfrom).symm
  | claim id owner now lockUntil dbOk =>
    simp only [claimStep]
    split
    case h_2 => exact .same
    next hphase =>
    split
    next row hclaim =>
      cases dbOk with
      | false => cases hclaim
      | true => exact .withPhase (.claim hphase) (.claim hclaim)
    · exact .same
  | reload id dbOk =>
    simp only [reloadStep]
    split
    next owner hphase =>
      split
      · exact .withPhase (.reload hphase)
      · exact .withPhase (.rest _ (isStoring_of_eq hphase rfl))
    · exact .same
  | dispatch id outcome now dbOk =>
    simp only [dispatchStep]
    split
    case h_2 => exact .same
    next owner copy hphase =>
    split
    next row phase hwrite =>
      cases dbOk with
      | false => cases hwrite
      | true => exact .withPhase (.dispatch hphase hwrite) (.dispatch hphase hwrite)
    · exact .withPhase (.rest _ (isStoring_of_eq hphase rfl))
  | bill id env =>
    simp only [billStep]
    split
    next poller copy hphase =>
      cases poller with
      | false => exact .withPhase (.rest _ (isStoring_of_eq hphase rfl))
      | true => exact .withPhase (.again hphase)
    next hphase =>
      split
      · exact .withPhase (.next hphase)
      next htarget =>
      split
      · exact .withPhase (.fund hphase htarget) (.keep _) rfl fun h => absurd rfl (h id env)
      · exact .withPhase (.next hphase)
    next hphase =>
      refine .withPhase (.store hphase) ?_
      cases hok : env.quotaOk with
      | false => exact .keep _
      | true => exact .quota hphase
    · exact .same
  | leave id =>
    split
    next hphase => exact .withPhase (.rest _ (isStoring_of_eq hphase rfl))
    · exact .same

/-! ## The writes of a dispatcher -/

/-- A dispatcher writes under its lease, and never the quota. It leaves the
status and the progress alone, or takes them from what it has made of its copy. -/
theorem dispatchWrite_spec {owner : String} {copy row row' : Task} {now : Int}
    {outcome : Except TaskError TaskSubmitResult}
    (h : dispatchWrite cfg owner copy now row outcome = some (row', phase)) :
    row.dispatchedBy owner = true ∧ row'.quota = row.quota ∧
      ((row'.status = row.status ∧ row'.progress = row.progress ∧ phase = .idle) ∨
        ∃ t ops, row'.status = t.status ∧ row'.progress = t.progress ∧
          phase = .billing false t ops ∧
          ((∃ reason, t = copy.failedDeferred reason now) ∨
            ∃ result, outcome = .ok result ∧ t = applyDeferredTaskResult cfg now copy result)) := by
  cases outcome with
  | error error =>
    rw [dispatchWrite] at h
    dsimp only at h
    split at h
    · rw [Task.requeueDeferred] at h
      split at h
      next howned => cases h; exact ⟨howned, rfl, .inl ⟨rfl, rfl, rfl⟩⟩
      · cases h
    · rw [Task.failDeferred] at h
      split at h
      next howned =>
        cases h
        exact ⟨howned, rfl, .inr ⟨copy.failedDeferred (deferredTaskFailureReason error) now, _,
          rfl, rfl, rfl, .inl ⟨_, rfl⟩⟩⟩
      · cases h
  | ok result =>
    rw [dispatchWrite, Task.completeDeferred] at h
    split at h
    next howned =>
      cases h
      exact ⟨howned, rfl, .inr ⟨applyDeferredTaskResult cfg now copy result, _, rfl, rfl, rfl,
        .inr ⟨result, rfl, rfl⟩⟩⟩
    · cases h

theorem claimDeferred_spec {owner : String} {now lockUntil : Int} {row row' : Task}
    (h : row.claimDeferred owner now lockUntil = some row') :
    row'.status = row.status ∧ row'.progress = row.progress ∧ row'.quota = row.quota := by
  rw [Task.claimDeferred] at h
  split at h
  · cases h; exact ⟨rfl, rfl, rfl⟩
  · cases h

end Tasks

end NewApi
