import NewApi.SystemTask.Active

/-!
# Leases of system tasks

A running row should be the task in the lock row of its type: the cleaner finds a task through its
lock only. This is true as long as a claim sets its row running, or gives its lock back, before
the lease it took is over, and a renewal writes a lease that is not over yet, for a task that is
not pending any more (`Timely`). Then a claim that holds a lock holds it alone (`Held`,
`Leased.single`). `Orderly` says what a statement leaves to the other calls, and every part of
the invariant follows from it.

A claim that is late sets a row running whose lock the cleaner has deleted, and then no call ever
ends this task or starts another one of its type.
-/

namespace NewApi

open Runs

namespace TaskSystem

variable {s s' : TaskSystem}

/-! ## The invariant -/

variable (s)

/-- The locks of the running rows with a property last until `n`. -/
def Watched (p : TaskName → Prop) (n : Int) : Prop :=
  ∀ t ∈ s.tasks.rows, t.status = .running → p t.name →
    ∃ l, s.locks.find t.type = some l ∧ n ≤ l.lockedUntil

def Owns (c : TaskClaim) (task : SystemTask) : Prop :=
  ∃ l, s.locks.find c.type = some l ∧ l.taskID = task.taskID ∧ l.lockedBy = c.runnerID ∧
    l.lockedUntil = c.lockUntil

/-- A claim whose lease is not over: the row is not running, and as long as it is
pending, the lock is the one of the claim. -/
def Held (c : TaskClaim) (task : SystemTask) : Prop :=
  s.clock ≤ c.lockUntil → ∀ t ∈ s.tasks.rows, t.taskID = task.taskID →
    t.status ≠ .running ∧ (t.status = .pending → s.Owns c task)

def Ended (taskID : String) : Prop :=
  ∀ t ∈ s.tasks.rows, t.taskID = taskID → t.status.active = false

end TaskSystem

/-- The claim of a call that has taken its lock. -/
def TaskStage.holds : TaskStage → Option (TaskClaim × SystemTask)
  | .markExpired c task _ | .setRunning c task | .release c task _ => some (c, task)
  | _ => none

def TaskStage.Leased (s : TaskSystem) : TaskStage → Prop
  | .createLock c _ | .readLock c _ | .takeLock c _ _ => s.Watched (fun n => n.type = c.type) c.now
  | .markExpired c task _ | .setRunning c task | .release c task _ => s.Held c task
  | .releaseFinished taskID _ => s.Ended taskID
  | .deleteStale now lock _ => s.Watched (fun n => n.taskID = lock.taskID) now
  | _ => True

namespace TaskSystem

variable {s s' : TaskSystem}

/-- A row that is running has the lock of its type. -/
def Locked (s : TaskSystem) : Prop :=
  ∀ t ∈ s.tasks.rows, t.status = .running → ∃ l, s.locks.find t.type = some l ∧ l.taskID = t.taskID

/-- The call holds the lock of a task, and its lease is not over. -/
def Holder (s : TaskSystem) (call : TaskCall) (taskID : String) : Prop :=
  ∃ c task, call.stage.holds = some (c, task) ∧ task.taskID = taskID ∧ s.clock ≤ c.lockUntil

def Pending (s : TaskSystem) (taskID : String) : Prop :=
  ∃ t ∈ s.tasks.rows, t.taskID = taskID ∧ t.status = .pending

/-- What holds in every timely run. -/
structure Leased (s : TaskSystem) : Prop where
  locked : s.Locked
  calls : ∀ c ∈ s.calls.rows, c.stage.Leased s
  single : ∀ c ∈ s.calls.rows, ∀ c' ∈ s.calls.rows, ∀ taskID, s.Holder c taskID →
    s.Holder c' taskID → s.Pending taskID → c = c'

/-- What a statement leaves to the other calls. -/
structure Orderly (s : TaskSystem) (other : TaskCall → Prop) (s' : TaskSystem) : Prop where
  clock : s.clock ≤ s'.clock
  rows : ∀ t' ∈ s'.tasks.rows, (∃ t ∈ s.tasks.rows, ∃ starts, SystemTask.Moves starts t t') ∨
    (t'.status = .pending ∧ ∀ n ∈ s.issued, n.taskID ≠ t'.taskID)
  /-- A row that is running was running, or it has a lock that is not over and no other
  holder. -/
  running : ∀ t' ∈ s'.tasks.rows, t'.status = .running →
    (∃ t ∈ s.tasks.rows, t.status = .running ∧ t.name = t'.name) ∨
      ((∃ l, s'.locks.find t'.type = some l ∧ l.taskID = t'.taskID ∧ s.clock ≤ l.lockedUntil) ∧
        ∀ c ∈ s.calls.rows, other c → ¬s.Holder c t'.taskID)
  /-- The lock of a running row stays, and its end does not come nearer than now. -/
  kept : ∀ t ∈ s.tasks.rows, t.status = .running → ∀ l, s.locks.find t.type = some l →
    l.taskID = t.taskID → ∃ l', s'.locks.find t.type = some l' ∧ l'.taskID = l.taskID ∧
      (l.lockedUntil ≤ l'.lockedUntil ∨ s.clock ≤ l'.lockedUntil)
  owned : ∀ call ∈ s.calls.rows, other call → ∀ c task, call.stage.holds = some (c, task) →
    s.clock ≤ c.lockUntil → s.Pending task.taskID → s.Owns c task → s'.Owns c task

/-! ## What follows for the other calls -/

section Orderly

variable {other : TaskCall → Prop} (ho : s.Orderly other s')

include ho

theorem Orderly.locked (h : s.Locked) : s'.Locked := by
  intro t' ht' hrunning
  rcases ho.running t' ht' hrunning with ⟨t, ht, hrun, hname⟩ | ⟨⟨l, hfind, hid, -⟩, -⟩
  · obtain ⟨l, hfind, hid⟩ := h t ht hrun
    obtain ⟨l', hfind', hid', -⟩ := ho.kept t ht hrun l hfind hid
    refine ⟨l', ?_, ?_⟩
    · rw [show t'.type = t.type from congrArg TaskName.type hname.symm]
      exact hfind'
    · rw [hid', hid]
      exact congrArg TaskName.taskID hname
  · exact ⟨l, hfind, hid⟩

theorem Orderly.watched (hlocked : s.Locked) {p : TaskName → Prop} {n : Int} (hn : n ≤ s.clock)
    (h : s.Watched p n) : s'.Watched p n := by
  intro t' ht' hrunning hp
  rcases ho.running t' ht' hrunning with ⟨t, ht, hrun, hname⟩ | ⟨⟨l, hfind, -, huntil⟩, -⟩
  · obtain ⟨l, hfind, huntil⟩ := h t ht hrun (hname ▸ hp)
    obtain ⟨l₁, hfind₁, hid⟩ := hlocked t ht hrun
    obtain rfl : l = l₁ := Option.some.inj (hfind.symm.trans hfind₁)
    obtain ⟨l', hfind', -, hlater⟩ := ho.kept t ht hrun l hfind hid
    refine ⟨l', ?_, ?_⟩
    · rw [show t'.type = t.type from congrArg TaskName.type hname.symm]
      exact hfind'
    · rcases hlater with hle | hle
      · exact huntil.trans hle
      · exact hn.trans hle
  · exact ⟨l, hfind, hn.trans huntil⟩

variable {taskID : String} {call : TaskCall}

theorem Orderly.pending (hissued : s.Issued taskID) (h : s'.Pending taskID) : s.Pending taskID := by
  obtain ⟨t', ht', rfl, hpending⟩ := h
  rcases ho.rows t' ht' with ⟨t, ht, _, hmoves⟩ | ⟨-, hfresh⟩
  · exact ⟨t, ht, hmoves.taskID_eq.symm, hmoves.pending hpending⟩
  · obtain ⟨n, hn, heq⟩ := hissued
    exact absurd heq (hfresh n hn)

theorem Orderly.ended (hissued : s.Issued taskID) (h : s.Ended taskID) : s'.Ended taskID := by
  intro t' ht' hid
  rcases ho.rows t' ht' with ⟨t, ht, _, hmoves⟩ | ⟨-, hfresh⟩
  · have hfinal := h t ht (hmoves.taskID_eq.symm.trans hid)
    rw [hmoves.status_of_final hfinal]
    exact hfinal
  · obtain ⟨n, hn, heq⟩ := hissued
    exact absurd (heq.trans hid.symm) (hfresh n hn)

theorem Orderly.held (hcall : call ∈ s.calls.rows) (hother : other call)
    {c : TaskClaim} {task : SystemTask} (hholds : call.stage.holds = some (c, task))
    (hissued : s.Issued task.taskID) (h : s.Held c task) : s'.Held c task := by
  intro hclock' t' ht' hid
  have hclock : s.clock ≤ c.lockUntil := ho.clock.trans hclock'
  refine ⟨?_, ?_⟩
  · intro hrunning
    rcases ho.running t' ht' hrunning with ⟨t, ht, hrun, hname⟩ | ⟨-, hnone⟩
    · have hid' : t.taskID = task.taskID := (congrArg TaskName.taskID hname).trans hid
      exact (h hclock t ht hid').1 hrun
    · exact hnone call hcall hother ⟨c, task, hholds, hid.symm, hclock⟩
  · intro hpending
    have hbefore : s.Pending task.taskID := ho.pending hissued ⟨t', ht', hid, hpending⟩
    obtain ⟨t, ht, hid', hpending'⟩ := hbefore
    exact ho.owned call hcall hother c task hholds hclock ⟨t, ht, hid', hpending'⟩
      ((h hclock t ht hid').2 hpending')

theorem Orderly.stage (hlocked : s.Locked) (hcall : call ∈ s.calls.rows)
    (hother : other call) (hsound : call.stage.Sound s) (h : call.stage.Leased s) :
    call.stage.Leased s' := by
  have hheld : ∀ {c task}, call.stage.holds = some (c, task) → s.Knows c task → s.Held c task →
      s'.Held c task := fun hholds hknows =>
    ho.held hcall hother hholds ⟨_, hknows.issued, rfl⟩
  cases hstage : call.stage with
  | createLock c task | readLock c task | takeLock c task existing =>
    rw [hstage] at hsound h
    exact ho.watched (p := fun n => n.type = c.type) hlocked hsound.now h
  | markExpired c task expiredTaskID | setRunning c task | release c task result =>
    rw [hstage] at hsound h hheld
    exact hheld rfl hsound h
  | releaseFinished taskID lockedBy =>
    rw [hstage] at hsound h
    exact ho.ended hsound h
  | deleteStale now lock rest =>
    rw [hstage] at hsound h
    exact ho.watched (p := fun n => n.taskID = lock.taskID) hlocked hsound h
  | _ => trivial

theorem Orderly.holder (h : s'.Holder call taskID) : s.Holder call taskID := by
  obtain ⟨c, task, hholds, hid, hclock⟩ := h
  exact ⟨c, task, hholds, hid, ho.clock.trans hclock⟩

end Orderly

variable {stage : TaskStage} {task : SystemTask} {call : TaskCall} {taskID : String} {id : Nat}

theorem leased_calls (calls : Table TaskCall.id) (h : stage.Leased s) :
    stage.Leased { s with calls := calls } := by
  cases stage <;> exact h

theorem holds_stage {c : TaskClaim}
    (h : stage.holds = some (c, task)) : (stage.Sound s → s.Knows c task) ∧
      (stage.Leased s → s.Held c task) := by
  cases stage with
  | markExpired c' task' expiredTaskID | setRunning c' task' | release c' task' result =>
    cases h
    exact ⟨id, id⟩
  | _ => cases h

theorem Sound.holder_issued (h : s.Sound) (hcall : call ∈ s.calls.rows)
    (hholder : s.Holder call taskID) : s.Issued taskID := by
  obtain ⟨c, task, hholds, rfl, -⟩ := hholder
  exact ⟨task.name, ((holds_stage hholds).1 (h.calls call hcall)).issued, rfl⟩

theorem Leased.of_calls (h : s.Leased) (hs : s.Sound) {other : TaskCall → Prop}
    (ho : s.Orderly other s') {calls : Table TaskCall.id}
    (hcalls : ∀ c ∈ calls.rows, (c ∈ s.calls.rows ∧ other c) ∨ (c.stage.Leased s' ∧
      ∀ taskID, s'.Holder c taskID → s'.Pending taskID →
        ∀ c' ∈ calls.rows, s'.Holder c' taskID → c = c')) :
    Leased { s' with calls := calls } := by
  refine ⟨ho.locked h.locked, ?_, ?_⟩
  · intro c hc
    rcases hcalls c hc with ⟨hold, hother⟩ | ⟨hleased, -⟩
    · exact leased_calls _ (ho.stage h.locked hold hother (hs.calls c hold) (h.calls c hold))
    · exact leased_calls _ hleased
  · intro c hc c' hc' taskID hholder hholder' hpending
    rcases hcalls c hc with ⟨hold, -⟩ | ⟨-, hsingle⟩
    · rcases hcalls c' hc' with ⟨hold', -⟩ | ⟨-, hsingle⟩
      · have hbefore := ho.holder hholder
        exact h.single c hold c' hold' taskID hbefore (ho.holder hholder')
          (ho.pending (hs.holder_issued hold hbefore) hpending)
      · exact (hsingle taskID hholder' hpending c hc hholder).symm
    · exact hsingle taskID hholder hpending c' hc' hholder'

theorem Leased.stepped (h : s.Leased) (hs : s.Sound)
    (hfind : s.calls.find id = some call) (ho : s.Orderly (fun c => c.id ≠ id) s')
    (hstage : stage.Leased s') (hnew : ∀ taskID, s.Holder ⟨id, stage⟩ taskID → s.Pending taskID →
      s.Holder call taskID ∨ ∀ c ∈ s.calls.rows, c.id ≠ id → ¬s.Holder c taskID) :
    Leased { s' with calls := s.calls.save ⟨id, stage⟩ } := by
  refine h.of_calls hs ho fun c hc => ?_
  rcases Table.mem_save hc with rfl | hold
  · refine .inr ⟨hstage, fun taskID hholder hpending c' hc' hholder' => ?_⟩
    rcases Table.mem_save hc' with rfl | ⟨hold, hne⟩
    · rfl
    have hbefore := ho.holder hholder'
    have hpending' := ho.pending (hs.holder_issued hold hbefore) hpending
    rcases hnew taskID (ho.holder hholder) hpending' with hown | hnone
    · have heq := h.single c' hold call (Table.find_mem hfind) taskID hbefore hown hpending'
      exact absurd ((congrArg TaskCall.id heq).trans (Table.find_key hfind)) hne
    · exact absurd hbefore (hnone c' hold hne)
  · exact .inl hold

/-! ## Orderly statements -/

theorem Orderly.of_stated {other : TaskCall → Prop} (hst : Stated False s s')
    (hlocks : s'.locks = s.locks) : s.Orderly other s' where
  clock := hst.clock.ge
  rows t' ht' := by
    obtain ⟨t, ht, hmoves⟩ := hst.moves t' ht'
    exact .inl ⟨t, ht, _, hmoves⟩
  running t' ht' hrunning := by
    obtain ⟨t, ht, hmoves⟩ := hst.moves t' ht'
    exact .inl ⟨t, ht, (hmoves.running hrunning).resolve_right id, hmoves.name_eq.symm⟩
  kept t ht hrunning l hfind hid := ⟨l, hlocks ▸ hfind, rfl, .inl (le_refl _)⟩
  owned call hcall hother c task hholds hclock hpending howns := by
    rw [Owns, hlocks]
    exact howns

theorem Orderly.of_locks {other : TaskCall → Prop} {locks : Table SystemTaskLock.type}
    (hkept : ∀ t ∈ s.tasks.rows, t.status = .running → ∀ l, s.locks.find t.type = some l →
      l.taskID = t.taskID → ∃ l', locks.find t.type = some l' ∧ l'.taskID = l.taskID ∧
        (l.lockedUntil ≤ l'.lockedUntil ∨ s.clock ≤ l'.lockedUntil))
    (howned : ∀ call ∈ s.calls.rows, other call → ∀ c task, call.stage.holds = some (c, task) →
      s.clock ≤ c.lockUntil → s.Pending task.taskID → ∀ l, s.locks.find c.type = some l →
        l.taskID = task.taskID → l.lockedUntil = c.lockUntil → locks.find c.type = some l) :
    s.Orderly other { s with locks := locks } where
  clock := le_refl _
  rows t ht := .inl ⟨t, ht, True, .refl t⟩
  running t ht hrunning := .inl ⟨t, ht, hrunning, rfl⟩
  kept := hkept
  owned call hcall hother c task hholds hclock hpending howns := by
    obtain ⟨l, hfind, hid, hrunner, huntil⟩ := howns
    exact ⟨l, howned call hcall hother c task hholds hclock hpending l hfind hid huntil, hid,
      hrunner, huntil⟩

theorem Orderly.refl (s : TaskSystem) (other : TaskCall → Prop) : s.Orderly other s :=
  show s.Orderly other { s with locks := s.locks } from
    of_locks (fun _ _ _ l hl _ => ⟨l, hl, rfl, .inl (le_refl _)⟩) fun _ _ _ _ _ _ _ _ _ hl _ _ => hl

theorem wait_orderly (s : TaskSystem) (time : Nat) :
    s.Orderly (fun _ => True) (s.step (.wait time)) :=
  { Orderly.refl s _ with
    clock := by
      show s.clock ≤ s.clock + time
      omega }

theorem mark_ended (s : TaskSystem) {t : SystemTask}
    (ht : t ∈ (s.markSystemTaskLeaseExpired taskID).tasks.rows) (hid : t.taskID = taskID) :
    t.status ≠ .running := by
  intro hrunning
  rcases Table.mem_updateWhere (h := ht) with ⟨-, hcond⟩ | ⟨u, -, -, rfl⟩
  · simp [hid, hrunning] at hcond
  · cases hrunning

theorem Leased.holder_lock (h : s.Leased) (hs : s.Sound)
    (hcall : call ∈ s.calls.rows) (hissued : task.name ∈ s.issued)
    (hholder : s.Holder call task.taskID) (hpending : s.Pending task.taskID) :
    ∃ l, s.locks.find task.type = some l ∧ s.clock ≤ l.lockedUntil := by
  obtain ⟨c, task', hholds, hid, hclock⟩ := hholder
  obtain ⟨t, ht, htask, hpend⟩ := hpending
  have hknows := (holds_stage hholds).1 (hs.calls call hcall)
  have hheld := (holds_stage hholds).2 (h.calls call hcall)
  obtain ⟨l, hfind, -, -, huntil⟩ := (hheld hclock t ht (htask.trans hid.symm)).2 hpend
  have hname : task'.name = task.name := hs.taskID_unique _ hknows.issued _ hissued hid
  refine ⟨l, ?_, huntil.symm ▸ hclock⟩
  rw [show task.type = c.type from (congrArg TaskName.type hname).symm.trans hknows.type]
  exact hfind

theorem not_holder (hnone : stage.holds = none) : ¬s.Holder ⟨id, stage⟩ taskID := by
  rintro ⟨c, task, hholds, -⟩
  rw [show TaskCall.stage ⟨id, stage⟩ = stage from rfl, hnone] at hholds
  cases hholds

/-- A claim gets its lock: the old one, if any, is over, and no row of the type is
running. -/
theorem Leased.acquired (h : s.Leased) (hs : s.Sound)
    (hfind : s.calls.find id = some call) {c : TaskClaim}
    (hknows : s.Knows c task) {locks : Table SystemTaskLock.type}
    (hlocks : ∀ type, locks.find type =
      if c.type = type then some (c.lock task) else s.locks.find type)
    (hold : ∀ l, s.locks.find c.type = some l → l.lockedUntil < s.clock)
    (hidle : ∀ t ∈ s.tasks.rows, t.status = .running → t.type ≠ c.type)
    (hholds : stage.holds = some (c, task))
    (hstage : Held { s with locks := locks } c task → stage.Leased { s with locks := locks }) :
    Leased { s with locks := locks, calls := s.calls.save ⟨id, stage⟩ } := by
  have ho : s.Orderly (fun call => call.id ≠ id) { s with locks := locks } := by
    refine Orderly.of_locks ?_ ?_
    · intro t ht hrunning l hl hid
      refine ⟨l, ?_, rfl, .inl (le_refl _)⟩
      rw [hlocks, if_neg (hidle t ht hrunning).symm]
      exact hl
    · intro call' hcall' hother c' task' hholds' hclock hpending l hl hid huntil
      rw [hlocks]
      split
      next htype =>
        have := hold l (htype ▸ hl)
        omega
      · exact hl
  refine h.stepped hs hfind ho (hstage ?_) ?_
  · intro hclock t ht hid
    refine ⟨?_, fun _ => ⟨c.lock task, ?_, rfl, rfl, rfl⟩⟩
    · intro hrunning
      have hname := hs.name_unique ht hknows.issued hid
      exact hidle t ht hrunning ((congrArg TaskName.type hname).trans hknows.type)
    · show locks.find c.type = some (c.lock task)
      rw [hlocks, if_pos rfl]
  · intro taskID hholder hpending
    right
    intro call' hcall' _ hholder'
    obtain ⟨c', task', hholds', rfl, -⟩ := hholder
    obtain ⟨rfl, rfl⟩ := Prod.mk.inj (Option.some.inj (hholds.symm.trans hholds'))
    obtain ⟨l, hl, hclock⟩ := h.holder_lock hs hcall' hknows.issued hholder' hpending
    rw [hknows.type] at hl
    have := hold l hl
    omega

end TaskSystem

/-- A statement of a claim comes before the lease of the claim is over, and a renewal
before the lease that it writes, for a task that is not pending. -/
def TaskStage.Timely (s : TaskSystem) : TaskStage → Prop
  | .setRunning c _ | .release c _ _ => s.clock ≤ c.lockUntil
  | .renew taskID _ lockUntil _ => s.clock ≤ lockUntil ∧ ¬s.Pending taskID
  | _ => True

namespace TaskSystem

variable {s s' : TaskSystem} {id : Nat} {task : SystemTask} {taskID : String} {now : Int}
  {rest : List SystemTaskLock} {stage : TaskStage} {l : SystemTaskLock}
  (h : s.Leased) (hs : s.Sound)

include h hs in
theorem Leased.started {c : TaskClaim}
    (hfind : s.calls.find id = some ⟨id, .setRunning c task⟩) (htimely : s.clock ≤ c.lockUntil) :
    Leased { (s.advance (.setRunning c task)).1 with
      calls := s.calls.save ⟨id, (s.advance (.setRunning c task)).2⟩ } := by
  have hmem := Table.find_mem hfind
  have hknows : s.Knows c task := hs.calls _ hmem
  have hheld : s.Held c task := h.calls _ hmem
  have hsame : Leased { s with calls := s.calls.save ⟨id, .release c task .notClaimed⟩ } := by
    refine h.stepped hs hfind (.refl s _) hheld ?_
    intro taskID hholder _
    left
    exact hholder
  simp only [advance]
  split
  next row hrow =>
    split
    next hcond =>
      have hrowmem := Table.find_mem hrow
      have hname : row.name = task.name := by
        refine hs.id_unique _ (hs.rows row hrowmem) _ hknows.issued ?_
        exact (Table.find_key hrow).trans hknows.id.symm
      have hid : row.taskID = task.taskID := congrArg TaskName.taskID hname
      obtain ⟨l, hl, hltask, -, hluntil⟩ := (hheld htimely row hrowmem hid).2 hcond.2
      refine h.stepped hs hfind ?_ trivial fun taskID hholder => absurd hholder (not_holder rfl)
      refine ⟨le_refl _, ?_, ?_, fun t ht _ l' hl' _ => ⟨l', hl', rfl, .inl (le_refl _)⟩,
        fun _ _ _ _ _ _ _ _ howns => howns⟩
      · intro t' ht'
        left
        rcases Table.mem_save ht' with rfl | ⟨hold, -⟩
        · exact ⟨row, hrowmem, True, .start trivial rfl hcond.2 rfl rfl⟩
        · exact ⟨t', hold, True, .refl t'⟩
      · intro t' ht' hrunning
        rcases Table.mem_save ht' with rfl | ⟨hold, -⟩
        · right
          refine ⟨⟨l, ?_, hltask.trans hid.symm, hluntil.symm ▸ htimely⟩, ?_⟩
          · show s.locks.find row.type = some l
            rw [hcond.1]
            exact hl
          · -- the claim itself is the only holder
            intro call hcall hother hholder
            have hpending : s.Pending row.taskID := ⟨row, hrowmem, rfl, hcond.2⟩
            have hown : s.Holder ⟨id, .setRunning c task⟩ row.taskID :=
              ⟨c, task, rfl, hid.symm, htimely⟩
            exact hother (congrArg TaskCall.id
              (h.single call hcall _ hmem row.taskID hholder hown hpending))
        · exact .inl ⟨t', hold, hrunning, rfl⟩
    · exact hsame
  · exact hsame

/-- Locks are deleted, none of a running row and none of another holder. -/
theorem Orderly.of_delete {other : TaskCall → Prop} {p : SystemTaskLock → Bool}
    (hidle : ∀ l, p l = true → ∀ t ∈ s.tasks.rows, t.status = .running →
      s.locks.find t.type = some l → l.taskID ≠ t.taskID)
    (hfree : ∀ l, p l = true → ∀ call ∈ s.calls.rows, other call → s.Holder call l.taskID →
      s.Pending l.taskID → l.lockedUntil < s.clock) :
    s.Orderly other { s with locks := s.locks.deleteWhere p } := by
  refine .of_locks ?_ ?_
  · intro t ht hrunning l hl hid
    cases hp : p l with
    | true => exact absurd hid (hidle l hp t ht hrunning hl)
    | false => exact ⟨l, by simp [Table.find_deleteWhere, hl, hp], rfl, .inl (le_refl _)⟩
  · intro call hcall hother c task hholds hclock hpending l hl hid huntil
    cases hp : p l with
    | true =>
      have := hfree l hp call hcall hother ⟨c, task, hholds, hid.symm, hclock⟩
        (hid.symm ▸ hpending)
      omega
    | false => simp [Table.find_deleteWhere, hl, hp]

theorem release_orderly (h : s.Leased) {c : TaskClaim}
    {result : TaskResult} (hfind : s.calls.find id = some ⟨id, .release c task result⟩)
    (htimely : s.clock ≤ c.lockUntil) :
    s.Orderly (fun call => call.id ≠ id) (s.releaseSystemTaskLock task.taskID c.runnerID) := by
  have hmem := Table.find_mem hfind
  have hheld : s.Held c task := h.calls _ hmem
  refine .of_delete ?_ ?_
  · intro l hp t ht hrunning _ hid
    simp only [Bool.and_eq_true, decide_eq_true_eq] at hp
    exact (hheld htimely t ht (hid.symm.trans hp.1)).1 hrunning
  · intro l hp call hcall hother hholder hpending
    simp only [Bool.and_eq_true, decide_eq_true_eq] at hp
    have hown : s.Holder ⟨id, .release c task result⟩ l.taskID := ⟨c, task, rfl, hp.1.symm, htimely⟩
    exact absurd (congrArg TaskCall.id (h.single call hcall _ hmem l.taskID hholder hown hpending))
      hother

theorem releaseFinished_orderly (hended : s.Ended taskID) (lockedBy : String)
    (other : TaskCall → Prop) : s.Orderly other (s.releaseSystemTaskLock taskID lockedBy) := by
  refine .of_delete ?_ ?_
  · intro l hp t ht hrunning _ hid
    simp only [Bool.and_eq_true, decide_eq_true_eq] at hp
    have hfinal := hended t ht (hid.symm.trans hp.1)
    rw [hrunning] at hfinal
    cases hfinal
  · rintro l hp call hcall hother hholder ⟨t, ht, hid, hpending⟩
    simp only [Bool.and_eq_true, decide_eq_true_eq] at hp
    have hfinal := hended t ht (hid.trans hp.1)
    rw [hpending] at hfinal
    cases hfinal

theorem deleteStale_orderly {lock : SystemTaskLock}
    (hwatched : s.Watched (fun n => n.taskID = lock.taskID) now) (hnow : now ≤ s.clock)
    (other : TaskCall → Prop) : s.Orderly other (s.advance (.deleteStale now lock rest)).1 := by
  refine .of_delete ?_ ?_
  · intro l hp t ht hrunning hl hid
    simp only [Bool.and_eq_true, decide_eq_true_eq] at hp
    obtain ⟨l', hl', huntil⟩ := hwatched t ht hrunning (hid.symm.trans hp.1.1.2)
    obtain rfl : l = l' := Option.some.inj (hl.symm.trans hl')
    have := hp.2
    omega
  · intro l hp call hcall hother hholder hpending
    simp only [Bool.and_eq_true, decide_eq_true_eq] at hp
    have := hp.2
    omega

theorem renew_orderly {lockedBy : String} {lockUntil : Int}
    (htimely : s.clock ≤ lockUntil) (hpending : ¬s.Pending taskID) (other : TaskCall → Prop) :
    s.Orderly other (s.advance (.renew taskID lockedBy lockUntil now)).1 := by
  refine .of_locks ?_ ?_
  · intro t ht hrunning l hl hid
    rw [Table.updateWhere, Table.find_update, hl]
    refine ⟨_, rfl, ?_⟩
    dsimp only
    split
    · exact ⟨rfl, .inr htimely⟩
    · exact ⟨rfl, .inl (le_refl _)⟩
  · intro call hcall hother c task hholds hclock hpend l hl hid huntil
    rw [Table.updateWhere, Table.find_update, hl, Option.map_some]
    split
    next hheld =>
      simp only [Bool.and_eq_true, decide_eq_true_eq] at hheld
      exact absurd (hid.symm.trans hheld.1.1 ▸ hpend) hpending
    · rfl

theorem finish_ended (hs : s.Sound) {lockedBy result error : String} {outcome : TaskOutcome}
    (hany : s.tasks.rows.any (s.leased taskID lockedBy now) = true) :
    (s.advance (.finish taskID lockedBy outcome result error now)).1.Ended taskID := by
  intro t' ht' hid
  simp only [advance, if_pos hany] at ht'
  obtain ⟨t₀, ht₀, hleased⟩ := List.any_eq_true.mp hany
  have hid₀ : t₀.taskID = taskID := by
    simp only [leased, Bool.and_eq_true, decide_eq_true_eq] at hleased
    exact hleased.1.1.1
  rcases Table.mem_updateWhere (h := ht') with ⟨hold, hnot⟩ | ⟨t, -, -, rfl⟩
  · have hname := hs.name_unique hold (hs.rows t₀ ht₀) (hid.trans hid₀.symm)
    have heq : t' = t₀ := Table.eq_of_mem hold ht₀ (congrArg TaskName.id hname)
    rw [heq, hleased] at hnot
    cases hnot
  · exact outcome.status_final

/-! ## Timely runs -/

include h hs in
theorem Leased.passed {call : TaskCall} (hfind : s.calls.find id = some call)
    (ho : s.Orderly (fun c => c.id ≠ id) s' := by exact .refl _ _)
    (hstage : stage.Leased s' := by trivial) (hnone : stage.holds = none := by rfl) :
    Leased { s' with calls := s.calls.save ⟨id, stage⟩ } :=
  h.stepped hs hfind ho hstage fun _ hholder => absurd hholder (not_holder hnone)

theorem staleLoop_passes (now : Int) (locks : List SystemTaskLock) :
    (staleLoop now locks).holds = none ∧ (staleLoop now locks).Leased s := by
  cases locks with
  | nil | cons lock rest => exact ⟨rfl, trivial⟩

include h hs in
theorem Leased.advance (hfind : s.calls.find id = some ⟨id, stage⟩) (htimely : stage.Timely s) :
    Leased { (s.advance stage).1 with calls := s.calls.save ⟨id, (s.advance stage).2⟩ } := by
  have hmem := Table.find_mem hfind
  have hsound : stage.Sound s := hs.calls _ hmem
  have hleased : stage.Leased s := h.calls _ hmem
  have hstated := (advance_stated hs hsound).1
  cases stage with
  | findPending c =>
    simp only [TaskSystem.advance]
    split
    next task htask =>
      split
      next hcond =>
        refine h.passed hs hfind (.refl s _) ?_
        -- the row is pending, so no row of its type is running
        intro t ht hrunning htype
        have heq : t = task := hs.active_unique ht (Table.find_mem htask)
          (by rw [hrunning]; rfl) (by rw [hcond.2]; rfl) (htype.trans hcond.1.symm)
        rw [heq, hcond.2] at hrunning
        cases hrunning
      · exact h.passed hs hfind
    · exact h.passed hs hfind
  | createLock c task =>
    simp only [TaskSystem.advance]
    split
    next locks hinsert =>
      have hnone : s.locks.find c.type = none := Table.find_of_insert hinsert
      refine h.acquired hs hfind hsound (fun type => Table.find_insert hinsert type) ?_ ?_ rfl
        fun hheld => hheld
      · intro l hl
        cases hnone.symm.trans hl
      · intro t ht hrunning htype
        obtain ⟨l, hl, -⟩ := h.locked t ht hrunning
        rw [htype, hnone] at hl
        cases hl
    · exact h.passed hs hfind (.refl s _) hleased
  | readLock c task =>
    simp only [TaskSystem.advance]
    split
    · split
      · exact h.passed hs hfind
      · exact h.passed hs hfind (.refl s _) hleased
    · exact h.passed hs hfind
  | takeLock c task existing =>
    simp only [TaskSystem.advance]
    split
    next lock hlock =>
      split
      next hcond =>
        have hsaved : ∀ type, (s.locks.save (c.lock task)).find type =
            if c.type = type then some (c.lock task) else s.locks.find type :=
          Table.find_save_at hlock rfl
        have hold : ∀ l, s.locks.find c.type = some l → l.lockedUntil < s.clock := by
          intro l hl
          obtain rfl := Option.some.inj (hlock.symm.trans hl)
          exact hcond.1.trans_le hsound.now
        have hidle : ∀ t ∈ s.tasks.rows, t.status = .running → t.type ≠ c.type := by
          intro t ht hrunning htype
          obtain ⟨l, hl, huntil⟩ := hleased t ht hrunning htype
          rw [htype, hlock] at hl
          cases hl
          exact absurd hcond.1 (not_lt.mpr huntil)
        split <;> exact h.acquired hs hfind hsound hsaved hold hidle rfl fun hheld => hheld
      · exact h.passed hs hfind
    · exact h.passed hs hfind
  | markExpired c task expiredTaskID =>
    have ho : s.Orderly (fun _ => True) (s.markSystemTaskLeaseExpired expiredTaskID) :=
      .of_stated hstated rfl
    have hheld := ho.held hmem trivial rfl ⟨_, hsound.issued, rfl⟩ hleased
    exact h.stepped hs hfind (.of_stated hstated rfl) hheld fun _ hholder _ => .inl hholder
  | setRunning c task => exact h.started hs hfind htimely
  | release c task result =>
    exact h.passed hs hfind (release_orderly h hfind htimely)
  | readBack c | confirmState taskID lockedBy now | selectLatest filter =>
    simp only [TaskSystem.advance]
    split <;> exact h.passed hs hfind
  | updateState taskID lockedBy state now =>
    simp only [TaskSystem.advance] at hstated ⊢
    split
    next hany =>
      rw [if_pos hany] at hstated
      exact h.passed hs hfind (.of_stated hstated rfl)
    · exact h.passed hs hfind
  | renew taskID lockedBy lockUntil now =>
    have ho := @renew_orderly s taskID now lockedBy lockUntil htimely.1 htimely.2
      fun c => c.id ≠ id
    simp only [TaskSystem.advance] at ho ⊢
    split <;> exact h.passed hs hfind ho
  | finish taskID lockedBy outcome result error now =>
    have hended := @finish_ended s taskID now hs lockedBy result error outcome
    simp only [TaskSystem.advance] at hended hstated ⊢
    split
    next hany =>
      rw [if_pos hany] at hended hstated
      exact h.passed hs hfind (.of_stated hstated rfl) (hended hany)
    · exact h.passed hs hfind
  | releaseFinished taskID lockedBy =>
    exact h.passed hs hfind (releaseFinished_orderly hleased lockedBy _)
  | selectStale now =>
    exact h.passed hs hfind (.refl s _) (staleLoop_passes now _).2
      (staleLoop_passes (s := s) now _).1
  | markStale now lock rest =>
    refine h.passed hs hfind (.of_stated hstated rfl) ?_
    intro t ht hrunning hid
    exact absurd hrunning (s.mark_ended ht hid)
  | deleteStale now lock rest =>
    exact h.passed hs hfind (deleteStale_orderly hleased hsound _)
      (staleLoop_passes now rest).2 (staleLoop_passes (s := s) now rest).1
  | deleteHistory filter latestIDs =>
    exact h.passed hs hfind (.of_stated hstated rfl)
  | returned result => exact h.passed hs hfind

theorem fail_passes (h : stage.Leased s) :
    stage.fail.Leased s ∧ (stage.fail.holds = stage.holds ∨ stage.fail.holds = none) := by
  cases stage with
  | createLock c task | markExpired c task expiredTaskID | setRunning c task => exact ⟨h, .inl rfl⟩
  | _ => exact ⟨trivial, .inr rfl⟩

theorem Orderly.leased (ho : s.Orderly (fun _ => True) s') (hcalls : s'.calls = s.calls)
    (h : s.Leased) (hs : s.Sound) : s'.Leased :=
  show Leased { s' with calls := s'.calls } from
    h.of_calls hs ho fun _ hc => .inl ⟨hcalls ▸ hc, trivial⟩

theorem Created.orderly (hc : s.Created s' task) : s.Orderly (fun _ => True) s' where
  clock := hc.clock.ge
  rows t' ht' := by
    rw [hc.tasks] at ht'
    rcases List.mem_cons.mp ht' with rfl | hold
    · exact .inr ⟨hc.pending, hc.taskID⟩
    · exact .inl ⟨t', hold, True, .refl t'⟩
  running t' ht' hrunning := by
    rw [hc.tasks] at ht'
    rcases List.mem_cons.mp ht' with rfl | hold
    · cases hc.pending.symm.trans hrunning
    · exact .inl ⟨t', hold, hrunning, rfl⟩
  kept t ht hrunning l hl hid := by
    rw [hc.locks]
    exact ⟨l, hl, rfl, .inl (le_refl _)⟩
  owned call hcall hother c task' hholds hclock hpending howns := by
    rw [Owns, hc.locks]
    exact howns

def Timely (s : TaskSystem) : TaskAction → Prop
  | .step id _ => ∀ call, s.calls.find id = some call → call.stage.Timely s
  | _ => True

theorem Timely.of_find {succeeds : Bool} {call : TaskCall}
    (hfind : s.calls.find id = some call) (h : call.stage.Timely s) :
    s.Timely (.step id succeeds) := by
  intro call' hfind'
  rw [← Option.some.inj (hfind.symm.trans hfind')]
  exact h

include h hs in
theorem Leased.step (a : TaskAction) (ha : s.Timely a) : (s.step a).Leased := by
  have hcreates := step_creates (P := Leased) h fun hc => hc.orderly.leased hc.calls h hs
  cases a with
  | wait time => exact (s.wait_orderly time).leased rfl h hs
  | create taskID type payload state => exact (hcreates taskID type).1 payload state
  | ensure taskID type => exact (hcreates taskID type).2
  | call id job =>
    simp only [TaskSystem.step]
    split
    next calls hinsert =>
      have hnone : (job.stage s.clock).holds = none := by cases job <;> rfl
      refine h.of_calls hs (.refl s fun _ => True) (Table.forall_insert hinsert ?_ ?_)
      · refine .inr ⟨?_, fun _ hholder => absurd hholder (not_holder hnone)⟩
        cases job <;> exact trivial
      · exact fun c hold => .inl ⟨hold, trivial⟩
    · exact h
  | step id succeeds =>
    simp only [TaskSystem.step]
    split
    next call hfind =>
      obtain ⟨id', stage⟩ := call
      obtain rfl : id' = id := Table.find_key hfind
      cases succeeds with
      | true => exact h.advance hs hfind (ha _ hfind)
      | false =>
        obtain ⟨hleased, hholds⟩ := fail_passes (h.calls _ (Table.find_mem hfind))
        refine h.stepped hs hfind (.refl s _) hleased ?_
        rintro taskID ⟨c, task, hholds', hid, hlive⟩ _
        left
        rcases hholds with hsame | hnone
        · exact ⟨c, task, hsame.symm.trans hholds', hid, hlive⟩
        · have hcontra : none = some (c, task) := hnone.symm.trans hholds'
          cases hcontra
    · exact h

theorem start_leased (clock : Int) (countsChanged : Bool) : (start clock countsChanged).Leased := by
  refine ⟨?_, ?_, ?_⟩ <;> intro x hx <;> exact absurd hx List.not_mem_nil

/-! ## The cleaner -/

def alone (id n : Nat) : List TaskAction := List.replicate n (.step id true)

/-- A task whose lock is over, while the cleaner has some locks left to visit. -/
structure Stale (s : TaskSystem) (taskRow : Nat) (l : SystemTaskLock)
    (rest : List SystemTaskLock) : Prop where
  row : ∃ t, s.tasks.find taskRow = some t ∧ t.taskID = l.taskID ∧
    ((t.status = .running ∧ l ∈ rest) ∨ (t.status = .failed ∧ t.activeKey = none))
  lock : s.locks.find l.type = none ∨ (s.locks.find l.type = some l ∧ l ∈ rest)

theorem mark_find (s : TaskSystem) (taskID : String) {k : Nat} {t : SystemTask}
    (ht : s.tasks.find k = some t) :
    ∃ t', (s.markSystemTaskLeaseExpired taskID).tasks.find k = some t' ∧ t'.taskID = t.taskID ∧
      ((t'.status = .failed ∧ t'.activeKey = none) ∨
        (t' = t ∧ ¬(t.taskID = taskID ∧ t.status = .running))) := by
  unfold markSystemTaskLeaseExpired Table.updateWhere
  rw [Table.find_update, ht]
  refine ⟨_, rfl, ?_⟩
  dsimp only
  split
  · exact ⟨rfl, .inl ⟨rfl, rfl⟩⟩
  next hcond =>
    simp only [Bool.and_eq_true, decide_eq_true_eq] at hcond
    exact ⟨rfl, .inr ⟨rfl, hcond⟩⟩

theorem Stale.visit {taskRow : Nat} {lock : SystemTaskLock} (h : s.Stale taskRow l (lock :: rest))
    (hover : l.lockedUntil < now) (hfind : s.calls.find id = some ⟨id, .markStale now lock rest⟩) :
    (run step s (alone id 2)).Stale taskRow l rest ∧
      (run step s (alone id 2)).calls.find id = some ⟨id, staleLoop now rest⟩ := by
  have hbefore : s.calls.find (⟨id, .deleteStale now lock rest⟩ : TaskCall).id =
      some ⟨id, .markStale now lock rest⟩ := hfind
  have hsaved := Table.find_save_self hbefore
  have hrun : run step s (alone id 2) =
      { (s.markSystemTaskLeaseExpired lock.taskID) with
        locks := s.locks.deleteWhere fun l =>
          l.type = lock.type && l.taskID = lock.taskID && l.lockedBy = lock.lockedBy &&
            l.lockedUntil < now
        calls := (s.calls.save ⟨id, .deleteStale now lock rest⟩).save
          ⟨id, staleLoop now rest⟩ } := by
    simp only [alone, List.replicate, run_cons, run_nil, step, hfind, advance, if_true]
    rw [hsaved]
    rfl
  rw [hrun]
  refine ⟨⟨?_, ?_⟩, Table.find_save_self hsaved⟩
  · obtain ⟨t, ht, hid, hstatus⟩ := h.row
    obtain ⟨t', ht', hid', hstatus'⟩ := s.mark_find lock.taskID ht
    refine ⟨t', ht', hid'.trans hid, ?_⟩
    rcases hstatus' with hfailed | ⟨rfl, hother⟩
    · exact .inr hfailed
    rcases hstatus with ⟨hrunning, hmem⟩ | hfailed
    · left
      refine ⟨hrunning, ?_⟩
      rcases List.mem_cons.mp hmem with rfl | hrest
      · exact absurd ⟨hid, hrunning⟩ hother
      · exact hrest
    · exact .inr hfailed
  · show (s.locks.deleteWhere _).find l.type = none ∨
      ((s.locks.deleteWhere _).find l.type = some l ∧ l ∈ rest)
    rw [Table.find_deleteWhere]
    rcases h.lock with hnone | ⟨hsome, hmem⟩
    · left
      rw [hnone]
      rfl
    rw [hsome, Option.filter_some]
    split
    next hkept =>
      right
      refine ⟨rfl, ?_⟩
      rcases List.mem_cons.mp hmem with rfl | hrest
      · simp [hover] at hkept
      · exact hrest
    · exact .inl rfl

theorem Stale.drained {taskRow : Nat} (h : s.Stale taskRow l rest) (hover : l.lockedUntil < now)
    (hfind : s.calls.find id = some ⟨id, staleLoop now rest⟩) :
    ∃ n, (run step s (alone id n)).Stale taskRow l [] := by
  induction rest generalizing s with
  | nil => exact ⟨0, h⟩
  | cons lock rest ih =>
    obtain ⟨hvisit, hnext⟩ := h.visit hover hfind
    obtain ⟨n, hend⟩ := ih hvisit hnext
    refine ⟨2 + n, ?_⟩
    rw [alone, List.replicate_add, run_append]
    exact hend

/-- A call of `ExpireStaleSystemTaskLocks` that nobody disturbs. -/
def cleaning (id n : Nat) : List TaskAction := .call id .expireStale :: alone id n

/-- The cleaner fails a running task whose lock is over, and deletes the lock. -/
theorem expired_task_failed {t : SystemTask} (ht : t ∈ s.tasks.rows)
    (hrunning : t.status = .running) (hl : s.locks.find t.type = some l) (hid : l.taskID = t.taskID)
    (hover : l.lockedUntil < s.clock) (hnew : s.calls.find id = none) :
    ∃ n t', (run step s (cleaning id n)).tasks.find t.id = some t' ∧ t'.status = .failed ∧
      t'.activeKey = none ∧ (run step s (cleaning id n)).locks.find t.type = none := by
  have hfree : s.calls.find (⟨id, .selectStale s.clock⟩ : TaskCall).id = none := hnew
  obtain ⟨calls, hinsert⟩ := Option.isSome_iff_exists.mp (Table.insert_isSome hfree)
  have hcall : s.step (.call id .expireStale) = { s with calls := calls } := by
    simp only [step, TaskJob.stage, hinsert]
  have hfind : calls.find id = some ⟨id, .selectStale s.clock⟩ := by
    rw [Table.find_insert hinsert, if_pos rfl]
  have hselect : ({ s with calls := calls } : TaskSystem).step (.step id true) =
      { s with calls := calls.save ⟨id, staleLoop s.clock (s.staleLocks s.clock)⟩ } := by
    simp only [step, hfind, advance, if_true]
    rfl
  have htype : l.type = t.type := Table.find_key hl
  have hmem : l ∈ s.staleLocks s.clock :=
    List.mem_filter.mpr ⟨Table.find_mem hl, by simpa using hover⟩
  have hstale : Stale { s with calls := calls.save ⟨id, staleLoop s.clock (s.staleLocks s.clock)⟩ }
      t.id l (s.staleLocks s.clock) := by
    refine ⟨⟨t, Table.find_of_mem ht, hid.symm, .inl ⟨hrunning, hmem⟩⟩, .inr ⟨?_, hmem⟩⟩
    show s.locks.find l.type = some l
    rw [htype]
    exact hl
  obtain ⟨n, hend⟩ := hstale.drained hover (Table.find_save_self hfind)
  obtain ⟨t', ht', -, hstatus⟩ := hend.row
  have hlock := hend.lock
  refine ⟨1 + n, t', ?_⟩
  have hrun : run step s (cleaning id (1 + n)) =
      run step { s with calls := calls.save ⟨id, staleLoop s.clock (s.staleLocks s.clock)⟩ }
        (alone id n) := by
    rw [cleaning, run_cons, hcall, alone, List.replicate_add, run_append]
    show run step (({ s with calls := calls } : TaskSystem).step (.step id true)) _ = _
    rw [hselect, alone]
  rw [hrun, ← htype]
  rcases hstatus with ⟨-, hnil⟩ | ⟨hfailed, hkey⟩
  · cases hnil
  rcases hlock with hnone | ⟨-, hnil⟩
  · exact ⟨ht', hfailed, hkey, hnone⟩
  · cases hnil

end TaskSystem

/-! ## Runs -/

/-- A type has one active row, a finished row stays finished, and one runner passes the
check of the lease. In a timely run every running row has the lock of its type, so that
the cleaner fails it and frees the type once the lease is over. -/
theorem system_tasks_leased (clock : Int) (countsChanged : Bool) (as : List TaskAction) :
    let s := run TaskSystem.step (.start clock countsChanged) as
    (∀ t ∈ s.tasks.rows, ∀ t' ∈ s.tasks.rows, t.status.active = true → t'.status.active = true →
        t.type = t'.type → t = t') ∧
      Along TaskSystem.step (fun s a => s.FinalKept (s.step a)) (.start clock countsChanged) as ∧
      (∀ type runnerID runnerID', s.PassesLease type runnerID → s.PassesLease type runnerID' →
        runnerID = runnerID') ∧
      (Along TaskSystem.step TaskSystem.Timely (.start clock countsChanged) as →
        ∀ t ∈ s.tasks.rows, t.status = .running → ∃ l, s.locks.find t.type = some l ∧
          l.taskID = t.taskID ∧ (l.lockedUntil < s.clock → ∀ id, s.calls.find id = none →
            ∃ n t', let s' := run TaskSystem.step s (TaskSystem.cleaning id n)
              s'.tasks.find t.id = some t' ∧ t'.status = .failed ∧ t'.activeKey = none ∧
                s'.locks.find t.type = none)) := by
  have hstart := TaskSystem.start_sound clock countsChanged
  have hsound : (run TaskSystem.step (.start clock countsChanged) as).Sound :=
    run_invariant_of_step (fun s a (h : s.Sound) => h.step a) as hstart
  refine ⟨fun t ht t' ht' => hsound.active_unique ht ht', ?_,
    fun type runnerID runnerID' => hsound.lease_unique, ?_⟩
  · exact along_of_invariant (fun s a (h : s.Sound) _ => ⟨h.step a, h.final_kept a⟩) hstart
      (along_of_forall (fun _ _ => trivial) _ as)
  · intro htimely t ht hrunning
    have hleased : (run TaskSystem.step (.start clock countsChanged) as).Sound ∧
        (run TaskSystem.step (.start clock countsChanged) as).Leased :=
      run_invariant (I := fun s : TaskSystem => s.Sound ∧ s.Leased)
        (fun s a h ha => ⟨h.1.step a, h.2.step h.1 a ha⟩)
        ⟨hstart, TaskSystem.start_leased clock countsChanged⟩ htimely
    obtain ⟨l, hl, hid⟩ := hleased.2.locked t ht hrunning
    exact ⟨l, hl, hid, fun hover id hnew =>
      TaskSystem.expired_task_failed ht hrunning hl hid hover hnew⟩

def claimedTask (steps : Nat) : List TaskAction :=
  .create "systask_1" "log_cleanup" "" "" :: .call 1 (.claim 1 "log_cleanup" "node-a" 60) ::
    TaskSystem.alone 1 steps

def stoppedRunner : List TaskAction := claimedTask 4 ++ [.wait 61]

def taskEnd (as : List TaskAction) : TaskSystem := run TaskSystem.step (.start 0 false) as

theorem stoppedRunner_cleaned :
    ((taskEnd stoppedRunner).tasks.find 1).map SystemTask.status = some .running ∧
      ∃ n t', (run TaskSystem.step (taskEnd stoppedRunner) (TaskSystem.cleaning 2 n)).tasks.find 1 =
        some t' ∧ t'.status = .failed := by
  refine ⟨rfl, ?_⟩
  have htimely : Along TaskSystem.step TaskSystem.Timely (.start 0 false) stoppedRunner :=
    ⟨trivial, trivial, .of_find rfl trivial, .of_find rfl trivial,
      .of_find rfl (show (0 : Int) ≤ 60 by decide), .of_find rfl trivial, trivial, trivial⟩
  obtain ⟨l, hl, -, hcleaned⟩ := (system_tasks_leased 0 false stoppedRunner).2.2.2 htimely
    ⟨1, "systask_1", "log_cleanup", .running, some "log_cleanup", "", "", "", "", "node-a", 0⟩
    (by decide) rfl
  have hlock : some ⟨"log_cleanup", "systask_1", "node-a", 60, 0⟩ = some l := hl
  cases hlock
  obtain ⟨n, t', hfind, hfailed, -, -⟩ := hcleaned (show (60 : Int) < 61 by decide) 2 rfl
  exact ⟨n, t', hfind, hfailed⟩

/-- The node is late: the cleaner finds the lock of the pending row and deletes it, and
then the row is set running. -/
def lateClaim : List TaskAction :=
  claimedTask 2 ++ .wait 61 :: TaskSystem.cleaning 2 3 ++ TaskSystem.alone 1 2

/-- The row is running without a lock. A cleaner that comes later does not find it, and no
task of its type can be created. -/
theorem late_claim_blocks :
    ((taskEnd lateClaim).tasks.find 1).map SystemTask.status = some .running ∧
      (taskEnd lateClaim).locks.rows = [] ∧
      (taskEnd (lateClaim ++ .wait 3600 :: TaskSystem.cleaning 3 1 ++
        [.create "systask_2" "log_cleanup" "" ""])).tasks.rows.map SystemTask.status =
          [.running] :=
  ⟨rfl, rfl, rfl⟩

end NewApi
