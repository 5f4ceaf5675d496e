import NewApi.SystemTask.Tasks

/-!
# Active rows

What holds of system tasks in every run. A statement moves a row only forward
(`SystemTask.Moves`), and a row that leaves the active statuses gives up its
`active_key`. So a type has one active row (`Sound.active_unique`), and a row that is
finished stays as it is.

A lock row names a task of its own type, so the runner that passes the check of the
lease is the one in the lock row of the type (`Sound.lease_unique`).
-/

namespace NewApi

open Runs

/-! ## What a statement does to a row -/

/-- A row goes forward, under a statement that `starts` it or not. -/
inductive SystemTask.Moves (starts : Prop) (t t' : SystemTask) : Prop
  | keep (hname : t'.name = t.name) (hstatus : t'.status = t.status)
      (hkey : t'.activeKey = t.activeKey)
  | start (hstarts : starts) (hname : t'.name = t.name) (hpending : t.status = .pending)
      (hrunning : t'.status = .running) (hkey : t'.activeKey = t.activeKey)
  | finish (hname : t'.name = t.name) (hrunning : t.status = .running)
      (hfinal : t'.status.active = false) (hkey : t'.activeKey = none)

namespace SystemTask.Moves

variable {starts : Prop} {t t' : SystemTask}

theorem refl (t : SystemTask) : Moves starts t t := .keep rfl rfl rfl

section

variable (h : Moves starts t t')

include h

theorem name_eq : t'.name = t.name := by
  cases h with
  | keep hname | start _ hname | finish hname => exact hname

theorem id_eq : t'.id = t.id := congrArg TaskName.id h.name_eq

theorem taskID_eq : t'.taskID = t.taskID := congrArg TaskName.taskID h.name_eq

theorem type_eq : t'.type = t.type := congrArg TaskName.type h.name_eq

theorem key_of_some {k : String} (hk : t'.activeKey = some k) : t.activeKey = some k := by
  cases h with
  | keep _ _ hkey | start _ _ _ _ hkey => rw [← hkey, hk]
  | finish _ _ _ hkey =>
    cases hk.symm.trans hkey

theorem active (hactive : t'.status.active = true) :
    t.status.active = true ∧ t'.activeKey = t.activeKey := by
  cases h with
  | keep _ hstatus hkey =>
    rw [← hstatus]
    exact ⟨hactive, hkey⟩
  | start _ _ hpending _ hkey =>
    rw [hpending]
    exact ⟨rfl, hkey⟩
  | finish _ _ hfinal _ =>
    cases hactive.symm.trans hfinal

theorem status_of_final (hfinal : t.status.active = false) : t'.status = t.status := by
  cases h with
  | keep _ hstatus _ => exact hstatus
  | start _ _ hpending _ _ =>
    rw [hpending] at hfinal
    cases hfinal
  | finish _ hrunning _ _ =>
    rw [hrunning] at hfinal
    cases hfinal

theorem pending (hpending : t'.status = .pending) : t.status = .pending := by
  cases h with
  | keep _ hstatus _ => exact hstatus.symm.trans hpending
  | start _ _ _ hrunning _ => exact absurd (hrunning.symm.trans hpending) (by decide)
  | finish _ _ hfinal _ =>
    rw [hpending] at hfinal
    cases hfinal

theorem running (hrunning : t'.status = .running) : t.status = .running ∨ starts := by
  cases h with
  | keep _ hstatus _ => exact .inl (hstatus.symm.trans hrunning)
  | start hstarts => exact .inr hstarts
  | finish _ hrunning' => exact .inl hrunning'

end

end SystemTask.Moves

theorem TaskOutcome.status_final (o : TaskOutcome) : o.status.active = false := by
  cases o <;> rfl

namespace TaskSystem

variable {s : TaskSystem} {starts : Prop}

theorem mark_moves (s : TaskSystem) (taskID : String) {t' : SystemTask}
    (h : t' ∈ (s.markSystemTaskLeaseExpired taskID).tasks.rows) :
    ∃ t ∈ s.tasks.rows, SystemTask.Moves starts t t' := by
  rcases Table.mem_updateWhere (h := h) with ⟨hold, -⟩ | ⟨t, ht, hcond, rfl⟩
  · exact ⟨t', hold, .refl t'⟩
  have hrunning : t.status = .running := by
    simp only [Bool.and_eq_true, decide_eq_true_eq] at hcond
    exact hcond.2
  exact ⟨t, ht, .finish rfl hrunning rfl rfl⟩

theorem leased_running {taskID lockedBy : String} {now : Int} {t : SystemTask}
    (h : s.leased taskID lockedBy now t = true) : t.status = .running := by
  simp only [leased, Bool.and_eq_true, decide_eq_true_eq] at h
  exact h.1.1.2

end TaskSystem

/-! ## Names -/

/-- The record of a claim is a row that was created. -/
structure TaskSystem.Knows (s : TaskSystem) (c : TaskClaim) (task : SystemTask) : Prop where
  issued : task.name ∈ s.issued
  id : task.id = c.id
  type : task.type = c.type
  now : c.now ≤ s.clock

def TaskSystem.Issued (s : TaskSystem) (taskID : String) : Prop := ∃ n ∈ s.issued, n.taskID = taskID

def TaskStage.Sound (s : TaskSystem) : TaskStage → Prop
  | .findPending c => c.now ≤ s.clock
  | .createLock c task | .readLock c task | .takeLock c task _ | .markExpired c task _
  | .setRunning c task | .release c task _ => s.Knows c task
  | .selectStale now | .markStale now _ _ | .deleteStale now _ _ => now ≤ s.clock
  | .releaseFinished taskID _ => s.Issued taskID
  | _ => True

/-- The statement that sets a row running. -/
def TaskStage.starts : TaskStage → Prop
  | .setRunning _ _ => True
  | _ => False

theorem TaskStage.Sound.mono {s s' : TaskSystem} (hclock : s.clock ≤ s'.clock)
    (hissued : ∀ n ∈ s.issued, n ∈ s'.issued) {stage : TaskStage} (h : stage.Sound s) :
    stage.Sound s' := by
  have hknows : ∀ {c task}, s.Knows c task → s'.Knows c task := fun hk =>
    ⟨hissued _ hk.issued, hk.id, hk.type, hk.now.trans hclock⟩
  cases stage with
  | findPending c | selectStale now | markStale now lock rest | deleteStale now lock rest =>
    exact le_trans h hclock
  | createLock c task | readLock c task | takeLock c task existing
  | markExpired c task expiredTaskID | setRunning c task | release c task result => exact hknows h
  | releaseFinished taskID lockedBy =>
    obtain ⟨n, hn, heq⟩ := h
    exact ⟨n, hissued n hn, heq⟩
  | _ => trivial

namespace TaskSystem

variable {s : TaskSystem} {starts : Prop}

/-- What holds of the rows, the locks and the calls in every run. -/
structure Sound (s : TaskSystem) : Prop where
  active : ∀ t ∈ s.tasks.rows, t.status.active = true → t.activeKey = some t.type
  key_unique : ∀ t ∈ s.tasks.rows, ∀ t' ∈ s.tasks.rows, ∀ k, t.activeKey = some k →
    t'.activeKey = some k → t = t'
  id_le : ∀ n ∈ s.issued, n.id ≤ s.issued.length
  id_unique : ∀ n ∈ s.issued, ∀ n' ∈ s.issued, n.id = n'.id → n = n'
  taskID_unique : ∀ n ∈ s.issued, ∀ n' ∈ s.issued, n.taskID = n'.taskID → n = n'
  rows : ∀ t ∈ s.tasks.rows, t.name ∈ s.issued
  locks : ∀ l ∈ s.locks.rows, ∃ n ∈ s.issued, n.taskID = l.taskID ∧ n.type = l.type
  calls : ∀ c ∈ s.calls.rows, c.stage.Sound s

theorem Sound.active_unique (h : s.Sound) {t t' : SystemTask} (ht : t ∈ s.tasks.rows)
    (ht' : t' ∈ s.tasks.rows) (hactive : t.status.active = true)
    (hactive' : t'.status.active = true) (htype : t.type = t'.type) : t = t' := by
  refine h.key_unique t ht t' ht' t.type (h.active t ht hactive) ?_
  rw [htype]
  exact h.active t' ht' hactive'

theorem Sound.name_unique (h : s.Sound) {t : SystemTask} {n : TaskName} (ht : t ∈ s.tasks.rows)
    (hn : n ∈ s.issued) (hid : t.taskID = n.taskID) : t.name = n :=
  h.taskID_unique t.name (h.rows t ht) n hn hid

/-- The check of the lease by `UpdateSystemTaskState` and `FinishSystemTask`, or by
`RenewSystemTaskLock`. -/
def PassesLease (s : TaskSystem) (type runnerID : String) : Prop :=
  (∃ t ∈ s.tasks.rows, t.type = type ∧ s.leased t.taskID runnerID s.clock t = true) ∨
    ∃ l ∈ s.locks.rows, l.type = type ∧ l.lockedBy = runnerID ∧ s.clock ≤ l.lockedUntil

variable {type : String} {s' : TaskSystem}

theorem Sound.lease_lock (h : s.Sound) {runnerID : String} (hpass : s.PassesLease type runnerID) :
    ∃ l ∈ s.locks.rows, l.type = type ∧ l.lockedBy = runnerID := by
  rcases hpass with ⟨t, ht, rfl, hleased⟩ | ⟨l, hl, htype, hrunner, -⟩
  · simp only [leased, Bool.and_eq_true, decide_eq_true_eq, List.any_eq_true] at hleased
    obtain ⟨-, l, hl, ⟨htask, hrunner⟩, -⟩ := hleased
    obtain ⟨n, hn, hid, htype⟩ := h.locks l hl
    have hname := h.name_unique ht hn (htask.symm.trans hid.symm)
    refine ⟨l, hl, ?_, hrunner⟩
    rw [← htype, ← hname]
    rfl
  · exact ⟨l, hl, htype, hrunner⟩

theorem Sound.lease_unique (h : s.Sound) {runnerID runnerID' : String}
    (hpass : s.PassesLease type runnerID) (hpass' : s.PassesLease type runnerID') :
    runnerID = runnerID' := by
  obtain ⟨l, hl, rfl, rfl⟩ := h.lease_lock hpass
  obtain ⟨l', hl', htype, rfl⟩ := h.lease_lock hpass'
  rw [Table.eq_of_mem hl hl' htype.symm]

/-! ## Steps -/

/-- A row is created. -/
structure Created (s s' : TaskSystem) (task : SystemTask) : Prop where
  pending : task.status = .pending
  key : task.activeKey = some task.type
  id : task.id = s.issued.length + 1
  taskID : ∀ n ∈ s.issued, n.taskID ≠ task.taskID
  free : ∀ t ∈ s.tasks.rows, t.activeKey ≠ some task.type
  tasks : s'.tasks.rows = task :: s.tasks.rows
  issued : s'.issued = task.name :: s.issued
  locks : s'.locks = s.locks
  calls : s'.calls = s.calls
  clock : s'.clock = s.clock

theorem createSystemTask_created {taskID payload state : String}
    (h : s.createSystemTask taskID type payload state = some s') : ∃ task, s.Created s' task := by
  unfold createSystemTask at h
  split at h
  · cases h
  next hfresh =>
  split at h
  · cases h
  next hfree =>
  obtain ⟨tasks, hinsert, rfl⟩ := Option.map_eq_some_iff.mp h
  refine ⟨_, rfl, rfl, rfl, ?_, ?_, Table.rows_insert hinsert, rfl, rfl, rfl, rfl⟩
  · exact fun n hn heq => hfresh (List.mem_map.mpr ⟨n, hn, heq⟩)
  · intro t ht hkey
    exact hfree (List.any_eq_true.mpr ⟨t, ht, by simpa using hkey⟩)

theorem step_creates {P : TaskSystem → Prop} (hsame : P s)
    (hmade : ∀ {s' task}, s.Created s' task → P s') (taskID type : String) :
    (∀ payload state, P (s.step (.create taskID type payload state))) ∧
      P (s.step (.ensure taskID type)) := by
  have hcreates : ∀ payload state, P ((s.createSystemTask taskID type payload state).getD s) := by
    intro payload state
    cases hcreate : s.createSystemTask taskID type payload state with
    | none => exact hsame
    | some s' =>
      obtain ⟨task, hcreated⟩ := createSystemTask_created hcreate
      exact hmade hcreated
  refine ⟨hcreates, ?_⟩
  simp only [step, ensureSystemTaskTx]
  split
  next s' hok =>
    split at hok
    · split at hok
      · cases hok
      · cases hok
        exact hcreates "" ""
    · cases hok
  · exact hsame

theorem unique_cons {α β : Type} {f : α → β} {x : α} {l : List α} (hx : ∀ y ∈ l, f y ≠ f x)
    (h : ∀ y ∈ l, ∀ z ∈ l, f y = f z → y = z) : ∀ y ∈ x :: l, ∀ z ∈ x :: l, f y = f z → y = z := by
  intro y hy z hz heq
  rcases List.mem_cons.mp hy with rfl | hold <;> rcases List.mem_cons.mp hz with rfl | hold'
  · rfl
  · exact absurd heq.symm (hx z hold')
  · exact absurd heq (hx y hold)
  · exact h y hold z hold' heq

theorem Created.sound {task : SystemTask} (hc : s.Created s' task) (h : s.Sound) : s'.Sound := by
  have hmono : ∀ n ∈ s.issued, n ∈ s'.issued := by
    intro n hn
    rw [hc.issued]
    exact List.mem_cons_of_mem _ hn
  have hid : ∀ n ∈ s.issued, n.id ≠ task.id := by
    intro n hn heq
    have := h.id_le n hn
    rw [heq, hc.id] at this
    omega
  refine ⟨?_, ?_, ?_, ?_, ?_, ?_, ?_, ?_⟩
  · rw [hc.tasks]
    exact List.forall_mem_cons.mpr ⟨fun _ => hc.key, h.active⟩
  · intro t ht t' ht' k hk hk'
    rw [hc.tasks] at ht ht'
    rcases List.mem_cons.mp ht with rfl | hold <;> rcases List.mem_cons.mp ht' with rfl | hold'
    · rfl
    · rw [hc.key] at hk
      rw [← hk] at hk'
      exact absurd hk' (hc.free t' hold')
    · rw [hc.key] at hk'
      rw [← hk'] at hk
      exact absurd hk (hc.free t hold)
    · exact h.key_unique t hold t' hold' k hk hk'
  · intro n hn
    rw [hc.issued] at hn ⊢
    rw [List.length_cons]
    rcases List.mem_cons.mp hn with rfl | hold
    · exact hc.id.le
    · exact (h.id_le n hold).trans (Nat.le_succ _)
  · rw [hc.issued]
    exact unique_cons hid h.id_unique
  · rw [hc.issued]
    exact unique_cons hc.taskID h.taskID_unique
  · rw [hc.tasks]
    refine List.forall_mem_cons.mpr ⟨?_, fun t hold => hmono _ (h.rows t hold)⟩
    rw [hc.issued]
    exact List.mem_cons_self
  · intro l hl
    rw [hc.locks] at hl
    obtain ⟨n, hn, hnamed⟩ := h.locks l hl
    exact ⟨n, hmono n hn, hnamed⟩
  · intro c hcall
    rw [hc.calls] at hcall
    exact (h.calls c hcall).mono hc.clock.ge hmono

variable {stage : TaskStage}

theorem fail_sound (h : stage.Sound s) : stage.fail.Sound s := by
  cases stage with
  | createLock c task | markExpired c task expiredTaskID | setRunning c task => exact h
  | _ => trivial

theorem staleLoop_sound {now : Int} (h : now ≤ s.clock) (locks : List SystemTaskLock) :
    (staleLoop now locks).Sound s := by
  cases locks with
  | nil => trivial
  | cons lock rest => exact h

/-- What a statement does to the rows and the locks. -/
structure Stated (starts : Prop) (s s' : TaskSystem) : Prop where
  moves : ∀ t' ∈ s'.tasks.rows, ∃ t ∈ s.tasks.rows, SystemTask.Moves starts t t'
  locks : ∀ l' ∈ s'.locks.rows, ∃ n ∈ s.issued, n.taskID = l'.taskID ∧ n.type = l'.type
  clock : s'.clock = s.clock
  issued : s'.issued = s.issued

theorem Stated.of_locks {locks : Table SystemTaskLock.type}
    (h : ∀ l ∈ locks.rows, ∃ n ∈ s.issued, n.taskID = l.taskID ∧ n.type = l.type) :
    Stated starts s { s with locks := locks } :=
  ⟨fun t ht => ⟨t, ht, .refl t⟩, h, rfl, rfl⟩

section

variable (h : s.Sound)

include h

theorem Stated.refl : Stated starts s s := of_locks h.locks

theorem Stated.of_tasks {tasks : Table SystemTask.id}
    (hmoves : ∀ t' ∈ tasks.rows, ∃ t ∈ s.tasks.rows, SystemTask.Moves starts t t') :
    Stated starts s { s with tasks := tasks } :=
  ⟨hmoves, h.locks, rfl, rfl⟩

theorem Stated.of_delete (p : SystemTaskLock → Bool) :
    Stated starts s { s with locks := s.locks.deleteWhere p } :=
  of_locks fun l hl => h.locks l (Table.mem_deleteWhere.mp hl).1

/-- What a statement of a call does, and what the call knows at the next one. -/
theorem advance_stated (hstage : stage.Sound s) :
    Stated stage.starts s (s.advance stage).1 ∧ (s.advance stage).2.Sound s := by
  have hidle : ∀ {starts : Prop} {next : TaskStage}, next.Sound s →
      Stated starts s s ∧ next.Sound s := fun hnext => ⟨.refl h, hnext⟩
  cases stage with simp only [advance]
  | findPending c =>
    split
    next task hfind =>
      split
      next hcond =>
        exact hidle ⟨h.rows task (Table.find_mem hfind), Table.find_key hfind, hcond.1, hstage⟩
      · exact hidle trivial
    · exact hidle trivial
  | createLock c task =>
    split
    next locks hinsert =>
      refine ⟨.of_locks (Table.forall_insert hinsert ?_ h.locks), hstage⟩
      exact ⟨task.name, hstage.issued, rfl, hstage.type⟩
    · exact hidle hstage
  | readLock c task =>
    split
    · split
      · exact hidle trivial
      · exact hidle hstage
    · exact hidle trivial
  | takeLock c task existing =>
    split
    · split
      · refine ⟨.of_locks (Table.forall_save ?_ fun l hl _ => h.locks l hl), ?_⟩
        · exact ⟨task.name, hstage.issued, rfl, hstage.type⟩
        · split <;> exact hstage
      · exact hidle trivial
    · exact hidle trivial
  | markExpired c task expiredTaskID =>
    exact ⟨.of_tasks h fun t' ht' => s.mark_moves expiredTaskID ht', hstage⟩
  | setRunning c task =>
    split
    next row hfind =>
      split
      next hcond =>
        refine ⟨.of_tasks h (Table.forall_save ?_ fun t ht _ => ⟨t, ht, .refl t⟩), trivial⟩
        exact ⟨row, Table.find_mem hfind, .start trivial rfl hcond.2 rfl rfl⟩
      · exact hidle hstage
    · exact hidle hstage
  | release c task result | releaseFinished taskID lockedBy => exact ⟨.of_delete h _, trivial⟩
  | readBack c | confirmState taskID lockedBy now | selectLatest filter =>
    split <;> exact hidle trivial
  | updateState taskID lockedBy state now =>
    split
    · refine ⟨.of_tasks h fun t' ht' => ?_, trivial⟩
      rcases Table.mem_updateWhere (h := ht') with ⟨hold, -⟩ | ⟨t, ht, -, rfl⟩
      · exact ⟨t', hold, .refl t'⟩
      · exact ⟨t, ht, .keep rfl rfl rfl⟩
    · exact hidle trivial
  | renew taskID lockedBy lockUntil now =>
    refine ⟨.of_locks fun l' hl' => ?_, by split <;> trivial⟩
    rcases Table.mem_updateWhere (h := hl') with ⟨hold, -⟩ | ⟨l, hl, -, rfl⟩
    · exact h.locks l' hold
    · exact h.locks l hl
  | finish taskID lockedBy outcome result error now =>
    split
    next hany =>
      refine ⟨.of_tasks h fun t' ht' => ?_, ?_⟩
      · rcases Table.mem_updateWhere (h := ht') with ⟨hold, -⟩ | ⟨t, ht, hleased, rfl⟩
        · exact ⟨t', hold, .refl t'⟩
        · exact ⟨t, ht, .finish rfl (leased_running hleased) outcome.status_final rfl⟩
      · obtain ⟨t, ht, hleased⟩ := List.any_eq_true.mp hany
        simp only [leased, Bool.and_eq_true, decide_eq_true_eq] at hleased
        exact ⟨t.name, h.rows t ht, hleased.1.1.1⟩
    · exact hidle trivial
  | selectStale now => exact hidle (staleLoop_sound hstage _)
  | markStale now lock rest =>
    exact ⟨.of_tasks h fun t' ht' => s.mark_moves lock.taskID ht', hstage⟩
  | deleteStale now lock rest => exact ⟨.of_delete h _, staleLoop_sound hstage rest⟩
  | deleteHistory filter latestIDs =>
    exact ⟨.of_tasks h fun t ht => ⟨t, (Table.mem_deleteWhere.mp ht).1, .refl t⟩, trivial⟩
  | returned result => exact hidle trivial

end

theorem Stated.sound (hs' : Stated starts s s') (h : s.Sound) (calls : Table TaskCall.id)
    (hcalls : ∀ c ∈ calls.rows, c.stage.Sound s) : Sound { s' with calls := calls } := by
  have hissued : ∀ n, n ∈ s'.issued ↔ n ∈ s.issued := by
    intro n
    rw [hs'.issued]
  refine ⟨?_, ?_, ?_, ?_, ?_, ?_, ?_, ?_⟩
  · intro t' ht' hactive
    obtain ⟨t, ht, hmoves⟩ := hs'.moves t' ht'
    obtain ⟨hactive', hkey⟩ := hmoves.active hactive
    rw [hkey, hmoves.type_eq]
    exact h.active t ht hactive'
  · intro t₁ ht₁ t₂ ht₂ k hk₁ hk₂
    obtain ⟨u₁, hu₁, hmoves₁⟩ := hs'.moves t₁ ht₁
    obtain ⟨u₂, hu₂, hmoves₂⟩ := hs'.moves t₂ ht₂
    have heq := h.key_unique u₁ hu₁ u₂ hu₂ k (hmoves₁.key_of_some hk₁) (hmoves₂.key_of_some hk₂)
    refine Table.eq_of_mem ht₁ ht₂ ?_
    rw [hmoves₁.id_eq, hmoves₂.id_eq, heq]
  · intro n hn
    show n.id ≤ s'.issued.length
    rw [hs'.issued]
    exact h.id_le n ((hissued n).mp hn)
  · intro n hn n' hn'
    exact h.id_unique n ((hissued n).mp hn) n' ((hissued n').mp hn')
  · intro n hn n' hn'
    exact h.taskID_unique n ((hissued n).mp hn) n' ((hissued n').mp hn')
  · intro t' ht'
    obtain ⟨t, ht, hmoves⟩ := hs'.moves t' ht'
    rw [hmoves.name_eq]
    exact (hissued _).mpr (h.rows t ht)
  · intro l' hl'
    obtain ⟨n, hn, hnamed⟩ := hs'.locks l' hl'
    exact ⟨n, (hissued n).mpr hn, hnamed⟩
  · intro c hc
    have hclock : s.clock ≤ s'.clock := hs'.clock.ge
    exact @TaskStage.Sound.mono s { s' with calls := calls } hclock
      (fun n hn => (hissued n).mpr hn) _ (hcalls c hc)

theorem job_sound (s : TaskSystem) (job : TaskJob) : (job.stage s.clock).Sound s := by
  cases job with
  | claim id type runnerID lockUntil | expireStale => exact le_refl _
  | _ => trivial

theorem Sound.statement (h : s.Sound) (hstage : stage.Sound s) (succeeds : Bool) :
    let next := if succeeds then s.advance stage else (s, stage.fail)
    Stated stage.starts s next.1 ∧ next.2.Sound s := by
  cases succeeds with
  | true => exact advance_stated h hstage
  | false => exact ⟨.refl h, fail_sound hstage⟩

theorem Sound.step (h : s.Sound) (a : TaskAction) : (s.step a).Sound := by
  have hcreates := step_creates (P := Sound) h fun hc => hc.sound h
  cases a with
  | wait time =>
    have hclock : s.clock ≤ (s.step (.wait time)).clock := by
      show s.clock ≤ s.clock + time
      omega
    exact ⟨h.active, h.key_unique, h.id_le, h.id_unique, h.taskID_unique, h.rows, h.locks,
      fun c hc => @TaskStage.Sound.mono s (s.step (.wait time)) hclock (fun n hn => hn) _
        (h.calls c hc)⟩
  | create taskID type payload state => exact (hcreates taskID type).1 payload state
  | ensure taskID type => exact (hcreates taskID type).2
  | call id job =>
    simp only [TaskSystem.step]
    split
    next calls hinsert =>
      refine (@Stated.refl s False h).sound h calls ?_
      exact Table.forall_insert hinsert (s.job_sound job) h.calls
    · exact h
  | step id succeeds =>
    simp only [TaskSystem.step]
    split
    next call hfind =>
      obtain ⟨hstated, hnext⟩ := h.statement (h.calls call (Table.find_mem hfind)) succeeds
      refine hstated.sound h _ ?_
      exact Table.forall_save hnext fun c hold _ => h.calls c hold
    · exact h

theorem start_sound (clock : Int) (countsChanged : Bool) : (start clock countsChanged).Sound := by
  refine ⟨?_, ?_, ?_, ?_, ?_, ?_, ?_, ?_⟩ <;> intro x hx <;> exact absurd hx List.not_mem_nil

/-- A finished row keeps its status, or is deleted. -/
def FinalKept (s s' : TaskSystem) : Prop :=
  ∀ t ∈ s.tasks.rows, t.status.active = false → ∀ t' ∈ s'.tasks.rows, t'.id = t.id →
    t'.status = t.status

theorem Stated.final_kept (hs' : Stated starts s s') : s.FinalKept s' := by
  intro t ht hfinal t' ht' hid
  obtain ⟨u, hu, hmoves⟩ := hs'.moves t' ht'
  obtain rfl : u = t := Table.eq_of_mem hu ht (hmoves.id_eq.symm.trans hid)
  exact hmoves.status_of_final hfinal

theorem Created.final_kept {task : SystemTask} (hc : s.Created s' task) (h : s.Sound) :
    s.FinalKept s' := by
  intro t ht _ t' ht' hid
  rw [hc.tasks] at ht'
  rcases List.mem_cons.mp ht' with rfl | hold
  · have hle := h.id_le t.name (h.rows t ht)
    have hnew := hc.id
    rw [hid] at hnew
    have : t.id ≤ s.issued.length := hle
    omega
  · rw [Table.eq_of_mem hold ht hid]

theorem Sound.final_kept (h : s.Sound) (a : TaskAction) : s.FinalKept (s.step a) := by
  have hsame : s.FinalKept s := fun t ht _ t' ht' hid => by rw [Table.eq_of_mem ht' ht hid]
  have hcreates := step_creates (P := s.FinalKept) hsame fun hc => hc.final_kept h
  cases a with
  | wait time => exact hsame
  | create taskID type payload state => exact (hcreates taskID type).1 payload state
  | ensure taskID type => exact (hcreates taskID type).2
  | call id job =>
    simp only [TaskSystem.step]
    split <;> exact hsame
  | step id succeeds =>
    simp only [TaskSystem.step]
    split
    next call hfind =>
      exact (h.statement (h.calls call (Table.find_mem hfind)) succeeds).1.final_kept
    · exact hsame

end TaskSystem

end NewApi
