import NewApi.Stream.Recovery

/-!
# What a reconciler does

From the claim of the first reconciler on, the worker has lost the lease for good and the committed
sequence stands still, at `C`. A reconciler removes a frame at `C + 1` that is not terminal, and
puts a terminal one there if there is none. At the end it seals the terminal frame at `T`, which is
`C` or `C + 1`, and moves the committed sequence to `T`. `RecEffect` describes the steps before.
-/

namespace NewApi

namespace Recovery

variable {cfg : Config}

/-! ## The row -/

/-- The worker is the owner of the active row. -/
def Held (cfg : Config) (row : StreamExecution) : Prop :=
  row.active = true ∧ row.lockedBy = cfg.worker

/-- An update that leaves the attempt and its frames alone, and does not bring
the worker back. -/
structure RowStill (cfg : Config) (row row' : StreamExecution) : Prop where
  publicAttempt : row'.publicAttempt = row.publicAttempt
  attemptCount : row'.attemptCount = row.attemptCount
  committedSequence : row'.committedSequence = row.committedSequence
  terminalSequence : row'.terminalSequence = row.terminalSequence
  active : row'.active = true → row.active = true
  held : Held cfg row' → Held cfg row

theorem RowStill.refl (row : StreamExecution) : RowStill cfg row row := ⟨rfl, rfl, rfl, rfl, id, id⟩

theorem updateRow_cases (update : StreamExecution → Option StreamExecution)
    (row : StreamExecution) :
    updateRow update row = (false, row) ∨
      ∃ row', update row = some row' ∧ updateRow update row = (true, row') := by
  rw [updateRow]
  cases update row with
  | none => exact .inl rfl
  | some row' => exact .inr ⟨row', rfl, rfl⟩

theorem Fault.call_cases {σ ρ : Type*} (fault : Fault) (op : σ → ρ × σ) (s : σ) :
    fault.call op s = (some (op s).1, (op s).2) ∨ fault.call op s = (Option.none, s) ∨
      fault.call op s = (Option.none, (op s).2) := by
  cases fault with
  | none => exact .inl rfl
  | lost => exact .inr (.inl rfl)
  | unheard => exact .inr (.inr rfl)

theorem Fault.update_cases (fault : Fault) (update : StreamExecution → Option StreamExecution)
    (row : StreamExecution) :
    fault.call (updateRow update) row = (some false, row) ∨
      fault.call (updateRow update) row = (Option.none, row) ∨
      ∃ row', update row = some row' ∧
        (fault.call (updateRow update) row = (some true, row') ∨
          fault.call (updateRow update) row = (Option.none, row')) := by
  have hcall := fault.call_cases (updateRow update) row
  rcases updateRow_cases update row with hu | ⟨row', hup, hu⟩ <;> rw [hu] at hcall
  · exact hcall.imp id fun he => .inl (he.elim id id)
  rcases hcall with he | he | he
  · exact .inr (.inr ⟨row', hup, .inl he⟩)
  · exact .inr (.inl he)
  · exact .inr (.inr ⟨row', hup, .inr he⟩)

variable {row : StreamExecution} {now : Int} {attempt : Nat}

theorem held_of_leased (h : row.leased cfg.worker now = true) : Held cfg row := by
  simp only [StreamExecution.leased, Bool.and_eq_true, decide_eq_true_eq] at h
  exact ⟨h.1, h.2.1⟩

variable {row' c : StreamExecution} {p : ReconcilerPhase} {lockUntil : Int} {runner error : String}
  {terminal : Nat} {status : StreamExecutionStatus}

theorem renewLease_still
    (h : row.renewLease cfg.worker now lockUntil = some row') : RowStill cfg row row' := by
  rw [StreamExecution.renewLease] at h
  split at h
  · cases h
    exact ⟨rfl, rfl, rfl, rfl, id, id⟩
  · cases h

theorem cancelOwned_still {userId tokenId : Int}
    (h : row.cancelOwned userId tokenId = some row') : RowStill cfg row row' := by
  rw [StreamExecution.cancelOwned] at h
  split at h
  · cases h
    exact ⟨rfl, rfl, rfl, rfl, fun hactive => by simp [StreamExecution.active] at hactive,
      fun hheld => by simp [Held, StreamExecution.active] at hheld⟩
  · cases h

theorem claimExpired_still {observed : Nat} (hrunner : runner ≠ cfg.worker)
    (h : row.claimExpired observed runner now lockUntil = some row') :
    RowStill cfg row row' ∧ ¬Held cfg row' := by
  rw [StreamExecution.claimExpired] at h
  split at h
  next hexp =>
    cases h
    rw [StreamExecution.leaseExpired, Bool.and_eq_true] at hexp
    exact ⟨⟨rfl, rfl, rfl, rfl, fun _ => hexp.1, fun hheld => absurd hheld.2 hrunner⟩,
      fun hheld => hrunner hheld.2⟩
  · cases h

theorem updateSequence_spec {n : Nat}
    (h : row.updateSequence cfg.worker attempt n now = some row') :
    Held cfg row ∧ row.inAttempt attempt = true ∧ row.committedSequence + 1 = n ∧
      row' = { row with committedSequence := n } := by
  rw [StreamExecution.updateSequence] at h
  split at h
  next hmatch =>
    cases h
    simp only [Bool.and_eq_true, decide_eq_true_eq] at hmatch
    exact ⟨held_of_leased hmatch.1.1, hmatch.1.2, hmatch.2, rfl⟩
  · cases h

theorem startAttempt_spec (h : row.startAttempt cfg.worker attempt now = some row') :
    Held cfg row ∧ row'.publicAttempt = attempt ∧ row'.attemptCount = attempt ∧
      row'.terminalSequence = 0 ∧ row'.committedSequence = 0 := by
  rw [StreamExecution.startAttempt] at h
  split at h
  next hmatch =>
    cases h
    simp only [Bool.and_eq_true, decide_eq_true_eq] at hmatch
    exact ⟨held_of_leased hmatch.1, rfl, rfl, rfl, rfl⟩
  · cases h

theorem finish_spec (h : row.finish cfg.worker attempt status terminal error now = some row') :
    Held cfg row ∧ ¬Held cfg row' ∧ row'.publicAttempt = row.publicAttempt ∧
      row'.attemptCount = row.attemptCount ∧ row'.committedSequence = row.committedSequence := by
  rw [StreamExecution.finish] at h
  split at h
  next hmatch =>
    cases h
    obtain ⟨hstatus, hleased, -⟩ := hmatch
    refine ⟨held_of_leased hleased, ?_, rfl, rfl, rfl⟩
    intro hheld
    have hactive := hheld.1
    rcases hstatus with rfl | rfl | rfl <;> simp [StreamExecution.active] at hactive
  · cases h

theorem finishReconciliation_spec {expected : Nat}
    (h : row.finishReconciliation runner attempt status expected terminal error now = some row') :
    row.active = true ∧ row.committedSequence = expected ∧ expected ≤ terminal ∧
      row'.active = false ∧ row'.publicAttempt = row.publicAttempt ∧
      row'.attemptCount = row.attemptCount ∧ row'.committedSequence = terminal ∧
      row'.terminalSequence = terminal := by
  rw [StreamExecution.finishReconciliation] at h
  split at h
  next hmatch =>
    cases h
    obtain ⟨hstatus, hle, howns⟩ := hmatch
    simp only [StreamExecution.ownsReconciliation, Bool.and_eq_true, decide_eq_true_eq] at howns
    refine ⟨?_, howns.1.2.2.2, hle, ?_, rfl, rfl, rfl, rfl⟩
    · simp [StreamExecution.active, howns.1.1]
    · rcases hstatus with rfl | rfl <;> simp [StreamExecution.active]
  · cases h

/-! ## What the parties know -/

/-- The row a reconciler has read is the row as far as its frames go, or the row
before another reconciler finished. -/
structure SnapOk (row claimed : StreamExecution) : Prop where
  attempts : claimed.publicAttempt = claimed.attemptCount
  attemptCount : claimed.attemptCount = row.attemptCount
  active : row.active = true → row.committedSequence = claimed.committedSequence
  committed : row.committedSequence = claimed.committedSequence ∨
    (row.committedSequence = claimed.committedSequence + 1 ∧
      row.terminalSequence = row.committedSequence)

/-- A reconciler ends at the committed sequence or one after it. -/
def OutOk (claimed : StreamExecution) (out : Resolution) : Prop :=
  claimed.committedSequence ≤ out.terminalSequence ∧
    out.terminalSequence ≤ claimed.committedSequence + 1

/-- A terminal frame is sealed at this sequence. -/
def SealedAt (t : AttemptStore cfg.maxEvents) (n : Nat) : Prop :=
  ∃ e, t.Sealed e ∧ e.sequence = n ∧ e.terminal = true

variable (row) (store : Nat → AttemptStore cfg.maxEvents)

def RecOk : ReconcilerPhase → Prop
  | .idle | .reload => True
  | .tail c | .look c _ | .append c => SnapOk row c
  | .confirm c f _ | .rollback c f _ =>
    SnapOk row c ∧ f.sequence = c.committedSequence + 1 ∧ f.terminal = false ∧
      (store c.publicAttempt).Known f
  | .own c out | .fetch c out => SnapOk row c ∧ OutOk c out
  | .close c out f =>
    SnapOk row c ∧ OutOk c out ∧ f.sequence = out.terminalSequence ∧ f.terminal = true ∧
      (store c.publicAttempt).Known f
  | .finish c out =>
    SnapOk row c ∧ OutOk c out ∧
      (0 < out.terminalSequence → SealedAt (store c.publicAttempt) out.terminalSequence)

/-- The frame in the hands of the writer was removed by a reconciler. -/
def Gone (cfg : Config) (row : StreamExecution) (f : StreamRecoveryFrame) : Prop :=
  f.terminal = false ∧ ¬Held cfg row ∧
    (row.committedSequence + 1 = f.sequence ∨
      (row.active = false ∧ row.terminalSequence = f.sequence))

def WriterOk (w : Writer) : Prop :=
  match w.phase with
  | .appended f | .checking f _ =>
    f.sequence = w.sequence + 1 ∧
      (w.attempt = row.attemptCount → f ∈ (store w.attempt).entries ∨ Gone cfg row f)
  | .rejected f => f.sequence = w.sequence + 1
  | _ => True

/-! ## Updates that leave the frames alone -/

section

variable {row row' : StreamExecution} {store store' : Nat → AttemptStore cfg.maxEvents}
  {c : StreamExecution} {removed : Nat → StreamRecoveryFrame → Prop} {p : ReconcilerPhase}
  {w : Writer}

theorem SnapOk.still (hrow : RowStill cfg row row') (h : SnapOk row c) : SnapOk row' c where
  attempts := h.attempts
  attemptCount := h.attemptCount.trans hrow.attemptCount.symm
  active ha := hrow.committedSequence.trans (h.active (hrow.active ha))
  committed := by
    rw [hrow.committedSequence, hrow.terminalSequence]
    exact h.committed

theorem SealedAt.keep {t t' : AttemptStore cfg.maxEvents} {n : Nat}
    (hkeep : ∀ e, t.Sealed e → t'.Sealed e) (h : SealedAt t n) : SealedAt t' n := by
  obtain ⟨e, he, hn, ht⟩ := h
  exact ⟨e, hkeep e he, hn, ht⟩

theorem RecOk.imp (hsnap : ∀ c, SnapOk row c → SnapOk row' c)
    (hstore : ∀ a, (store a).Keeps (store' a) (removed a)) (h : RecOk row store p) :
    RecOk row' store' p := by
  cases p with
  | idle | reload => trivial
  | tail c | look c r | append c => exact hsnap c h
  | confirm c f r | rollback c f r =>
    obtain ⟨hc, hseq, hterm, hknown⟩ := h
    exact ⟨hsnap c hc, hseq, hterm, (hstore _).known f hknown⟩
  | own c out | fetch c out => exact ⟨hsnap c h.1, h.2⟩
  | close c out f =>
    obtain ⟨hc, hout, hseq, hterm, hknown⟩ := h
    exact ⟨hsnap c hc, hout, hseq, hterm, (hstore _).known f hknown⟩
  | finish c out =>
    obtain ⟨hc, hout, hsealed⟩ := h
    exact ⟨hsnap c hc, hout, fun hpos => (hsealed hpos).keep (hstore _).sealed⟩

theorem RecOk.snap (h : RecOk row store p) (hc : p.claimed = some c) : SnapOk row c := by
  cases p <;> cases hc
  case tail | look | append => exact h
  all_goals exact h.1

theorem Gone.still {f : StreamRecoveryFrame} (hrow : RowStill cfg row row') (h : Gone cfg row f) :
    Gone cfg row' f := by
  obtain ⟨hterm, hheld, hseq⟩ := h
  refine ⟨hterm, fun hh => hheld (hrow.held hh), ?_⟩
  rw [hrow.committedSequence, hrow.terminalSequence]
  refine hseq.imp id fun hdone => ⟨?_, hdone.2⟩
  cases hactive : row'.active with
  | false => rfl
  | true => rw [hrow.active hactive] at hdone; cases hdone.1

theorem WriterOk.imp  (hattempt : row'.attemptCount = row.attemptCount)
    (hframe : ∀ f, w.attempt = row.attemptCount →
      f ∈ (store w.attempt).entries ∨ Gone cfg row f →
        f ∈ (store' w.attempt).entries ∨ Gone cfg row' f)
    (h : WriterOk row store w) : WriterOk row' store' w := by
  unfold WriterOk at h ⊢
  rw [hattempt]
  split
  next f hp => rw [hp] at h; exact ⟨h.1, fun ha => hframe f ha (h.2 ha)⟩
  next f l hp => rw [hp] at h; exact ⟨h.1, fun ha => hframe f ha (h.2 ha)⟩
  next f hp => rw [hp] at h; exact h
  · trivial

theorem WriterOk.still
    (hrow : RowStill cfg row row') (hstore : ∀ a, (store a).Keeps (store' a) (removed a))
    (hgone : ∀ f ∈ (store row.attemptCount).entries, removed row.attemptCount f → Gone cfg row f)
    (h : WriterOk row store w) : WriterOk row' store' w := by
  refine h.imp hrow.attemptCount ?_
  intro f hattempt hf
  rcases hf with hmem | hg
  · rcases (hstore _).mem f hmem with hkept | hremoved
    · exact .inl hkept
    · rw [hattempt] at hmem hremoved
      exact .inr ((hgone f hmem hremoved).still hrow)
  · exact .inr (hg.still hrow)

end

/-! ## A step of a reconciler -/

/-- The reconciler is about to remove the frame. -/
def Removes (p : ReconcilerPhase) (attempt : Nat) (e : StreamRecoveryFrame) : Prop :=
  ∃ c g rounds, p = .rollback c g rounds ∧ attempt = c.publicAttempt ∧ e.redisId = g.redisId

variable {row : StreamExecution} {store : Nat → AttemptStore cfg.maxEvents} {attempt : Nat}
  {e f : StreamRecoveryFrame} {out : Resolution} {p' : ReconcilerPhase}
  {t : AttemptStore cfg.maxEvents} {removed : StreamRecoveryFrame → Prop} {ρ : Type*}

/-- It is not terminal and follows the frames the reconciler saw as committed. -/
theorem Removes.spec (h : Removes p attempt e) (hok : RecOk row store p)
    (he : e ∈ (store attempt).entries) :
    ∃ c, p.claimed = some c ∧ SnapOk row c ∧ attempt = c.publicAttempt ∧
      e.sequence = c.committedSequence + 1 ∧ e.terminal = false := by
  obtain ⟨c, g, rounds, rfl, rfl, hid⟩ := h
  obtain ⟨hsnap, hseq, hterm, hknown⟩ := hok
  obtain rfl := hknown.eq_of_mem e he hid
  exact ⟨c, rfl, hsnap, rfl, hseq, hterm⟩

theorem Removes.gone (h : Removes p attempt e) (hok : RecOk row store p) (hheld : ¬Held cfg row)
    (he : e ∈ (store attempt).entries) : Gone cfg row e := by
  obtain ⟨c, -, hsnap, -, hseq, hterm⟩ := h.spec hok he
  refine ⟨hterm, hheld, ?_⟩
  rcases hsnap.committed with hc | ⟨hc, ht⟩
  · exact .inl (by omega)
  refine .inr ⟨?_, by omega⟩
  cases hactive : row.active with
  | false => rfl
  | true => have := hsnap.active hactive; omega

/-- What a step of a reconciler does, apart from its last one. -/
structure RecEffect (p : ReconcilerPhase) (row : StreamExecution)
    (store : Nat → AttemptStore cfg.maxEvents) (p' : ReconcilerPhase) (row' : StreamExecution)
    (store' : Nat → AttemptStore cfg.maxEvents) : Prop where
  still : RowStill cfg row row'
  keeps : ∀ a, (store a).Keeps (store' a) (Removes p a)
  ok : RecOk row' store' p'
  held : p' ≠ .idle → ¬Held cfg row'
  claimed : ∀ c, p'.claimed = some c → p.claimed = some c ∨ c = row

theorem resolutionOf_terminalSequence (f : StreamRecoveryFrame) :
    (resolutionOf f).terminalSequence = f.sequence := by
  rw [resolutionOf]
  split
  · rfl
  split <;> rfl

/-- The next phase is one that the reconciler may be in, with the same row. -/
def NextOk (row c : StreamExecution) (store : Nat → AttemptStore cfg.maxEvents)
    (p : ReconcilerPhase) : Prop :=
  RecOk row store p ∧ ∀ d, p.claimed = some d → d = c

theorem NextOk.idle : NextOk row c store .idle := ⟨trivial, fun _ h => by cases h⟩

theorem tailStep_ok (h : SnapOk row c) : NextOk row c store
    (tailStep (store c.publicAttempt) c) := by
  have hsame : ∀ d, some c = some d → d = c := fun d hd => (Option.some.inj hd).symm
  rw [tailStep]
  split
  · exact ⟨⟨h, Nat.le_refl _, Nat.le_succ _⟩, hsame⟩
  split
  · exact ⟨h, hsame⟩
  split
  · exact .idle
  next f rest _ =>
  split
  · exact .idle
  next hseq =>
  have hseq : f.sequence = c.committedSequence := not_not.mp hseq
  split
  · split
    · refine ⟨⟨h, ?_⟩, hsame⟩
      rw [OutOk, resolutionOf_terminalSequence, hseq]
      exact ⟨Nat.le_refl _, Nat.le_succ _⟩
    · exact .idle
  · exact ⟨h, hsame⟩

theorem lookStep_ok (h : SnapOk row c) (rounds : Nat) :
    NextOk row c store (lookStep (store c.publicAttempt) c rounds) := by
  have hsame : ∀ d, some c = some d → d = c := fun d hd => (Option.some.inj hd).symm
  cases rounds with
  | zero => exact .idle
  | succ rounds =>
    rw [lookStep]
    split
    · split
      next hzero => exact ⟨⟨h, by rw [hzero], Nat.zero_le _⟩, hsame⟩
      · exact ⟨h, hsame⟩
    next f hread =>
      have hmem : f ∈ (store c.publicAttempt).entries :=
        (AttemptStore.mem_of_mem_readFrames (by rw [hread]; exact List.mem_singleton.mpr rfl)).1
      split
      · exact .idle
      next hseq =>
      have hseq : f.sequence = c.committedSequence + 1 := not_not.mp hseq
      split
      · split
        · refine ⟨⟨h, ?_⟩, hsame⟩
          rw [OutOk, resolutionOf_terminalSequence, hseq]
          exact ⟨Nat.le_succ _, Nat.le_refl _⟩
        · exact .idle
      next hterm =>
        exact ⟨⟨h, hseq, Bool.eq_false_iff.mpr hterm, AttemptStore.known_of_mem hmem⟩, hsame⟩
    · exact .idle

theorem fetchStep_ok (h : SnapOk row c) (hout : OutOk c out) :
    NextOk row c store (fetchStep (store c.publicAttempt) c out) := by
  rw [fetchStep]
  split
  next f hread =>
    have hmem : f ∈ (store c.publicAttempt).entries :=
      (AttemptStore.mem_of_mem_readFrames (by rw [hread]; exact List.mem_singleton.mpr rfl)).1
    split
    next hf =>
      exact ⟨⟨h, hout, hf.1, hf.2, AttemptStore.known_of_mem hmem⟩,
        fun d hd => (Option.some.inj hd).symm⟩
    · exact .idle
  · exact .idle

theorem RecEffect.next (hheld : ¬Held cfg row) (hc : p.claimed = some c)
    (h : NextOk row c store p') : RecEffect p row store p' row store where
  still := .refl row
  keeps _ := .refl _ _
  ok := h.1
  held _ := hheld
  claimed d hd := .inl (by rw [h.2 d hd]; exact hc)

theorem RecEffect.write (hheld : ¬Held cfg row) (hc : p.claimed = some c)
    (hkeep : (store c.publicAttempt).Keeps t removed)
    (hremoved : ∀ e, removed e → Removes p c.publicAttempt e)
    (h : NextOk row c (Function.update store c.publicAttempt t) p') :
    RecEffect p row store p' row (Function.update store c.publicAttempt t) where
  still := .refl row
  keeps b := by
    have hb := hkeep.update b
    refine ⟨fun e he => (hb.mem e he).imp id ?_, hb.known, hb.sealed⟩
    intro hr
    rw [hr.1]
    exact hremoved e hr.2
  ok := h.1
  held _ := hheld
  claimed d hd := .inl (by rw [h.2 d hd]; exact hc)

theorem Fault.call_keeps {op : AttemptStore cfg.maxEvents → ρ × AttemptStore cfg.maxEvents}
    (fault : Fault) (h : t.Keeps (op t).2 removed) : t.Keeps (fault.call op t).2 removed := by
  rcases fault.call_cases op t with he | he | he <;> rw [he]
  · exact h
  · exact .refl t _
  · exact h

theorem Fault.call_answer {σ : Type*} {op : σ → ρ × σ} {s : σ} {fault : Fault} {r : ρ}
    (h : (fault.call op s).1 = some r) : r = (op s).1 ∧ (fault.call op s).2 = (op s).2 := by
  rcases fault.call_cases op s with he | he | he
  · rw [he] at h ⊢
    exact ⟨(Option.some.inj h).symm, rfl⟩
  · rw [he] at h; cases h
  · rw [he] at h; cases h

variable (env : ReconcileEnv)

theorem claimStep_effect :
    RecEffect .idle row store (reconcileStep env .idle row store).1
      (reconcileStep env .idle row store).2.1 (reconcileStep env .idle row store).2.2 := by
  have hidle : ∀ row', RowStill cfg row row' → RecEffect .idle row store .idle row' store :=
    fun row' hstill => ⟨hstill, fun _ => .refl _ _, trivial, fun h => absurd rfl h,
      fun c hc => by cases hc⟩
  simp only [reconcileStep]
  split
  · exact hidle row (.refl row)
  next hno =>
  have hrunner : env.runner ≠ cfg.worker := fun h => hno (.inr h)
  rcases env.fault.update_cases (StreamExecution.claimExpired env.observedAttempt env.runner env.now
    env.lockUntil) row with he | he | ⟨row', hclaim, he | he⟩ <;> simp only [he]
  · exact hidle row (.refl row)
  · exact hidle row (.refl row)
  · obtain ⟨hstill, hheld⟩ := claimExpired_still hrunner hclaim
    exact ⟨hstill, fun _ => .refl _ _, trivial, fun _ => hheld, fun c hc => by cases hc⟩
  · exact hidle row' (claimExpired_still hrunner hclaim).1

theorem appendFrame_effect (hok : RecOk row store (.append c)) (hnot : ¬Held cfg row) :
    RecEffect (.append c) row store (reconcileStep env (.append c) row store).1
      (reconcileStep env (.append c) row store).2.1
      (reconcileStep env (.append c) row store).2.2 := by
  have hspec := AttemptStore.appendFrame_spec (unsafeFrame cfg c env.token) env.full
    (store c.publicAttempt)
  have hkeep := env.fault.call_keeps hspec.1
  simp only [reconcileStep]
  split
  next f t hcall =>
    rw [hcall] at hkeep
    obtain ⟨hans, -⟩ := Fault.call_answer (congrArg Prod.fst hcall)
    have hseq : f.sequence = c.committedSequence + 1 := by
      rcases hspec.2 with ⟨-, err, herr⟩ | ⟨f', hf', hseq, -⟩
      · rw [herr] at hans; cases hans
      · rw [hf'] at hans; cases hans; exact hseq
    refine .write hnot rfl hkeep (fun e he => he.elim) ⟨⟨hok, ?_⟩,
      fun d hd => (Option.some.inj hd).symm⟩
    exact ⟨by dsimp only; omega, by dsimp only; omega⟩
  next t _ hcall =>
    rw [hcall] at hkeep
    exact .write hnot rfl hkeep (fun e he => he.elim) .idle

theorem rollbackFrame_effect {rounds : Nat} (hok : RecOk row store (.rollback c f rounds))
    (hnot : ¬Held cfg row) :
    RecEffect (.rollback c f rounds) row store
      (reconcileStep env (.rollback c f rounds) row store).1
      (reconcileStep env (.rollback c f rounds) row store).2.1
      (reconcileStep env (.rollback c f rounds) row store).2.2 := by
  have hkeep := env.fault.call_keeps
    (AttemptStore.rollbackFrame_spec f (store c.publicAttempt)).1
  have hremoves : ∀ e : StreamRecoveryFrame, e.redisId = f.redisId →
      Removes (.rollback c f rounds) c.publicAttempt e :=
    fun e he => ⟨c, f, rounds, rfl, rfl, he⟩
  simp only [reconcileStep]
  split
  next t hcall =>
    rw [hcall] at hkeep
    exact .write hnot rfl hkeep hremoves ⟨hok.1, fun d hd => (Option.some.inj hd).symm⟩
  next t hcall =>
    rw [hcall] at hkeep
    exact .write hnot rfl hkeep hremoves .idle

theorem sealFrame_effect (hok : RecOk row store (.close c out f)) (hnot : ¬Held cfg row) :
    RecEffect (.close c out f) row store (reconcileStep env (.close c out f) row store).1
      (reconcileStep env (.close c out f) row store).2.1
      (reconcileStep env (.close c out f) row store).2.2 := by
  obtain ⟨hsnap, hout, hseq, hterm, hknown⟩ := hok
  have hspec := AttemptStore.sealFrame_spec f (store c.publicAttempt)
  have hkeep := env.fault.call_keeps hspec.1
  simp only [reconcileStep]
  split
  next t hcall =>
    rw [hcall] at hkeep
    obtain ⟨hans, ht⟩ := Fault.call_answer (congrArg Prod.fst hcall)
    rw [hcall] at ht
    dsimp only at ht
    have hsealed := hspec.2 hans.symm hknown
    refine .write hnot rfl hkeep (fun e he => he.elim) ⟨⟨hsnap, hout, ?_⟩,
      fun d hd => (Option.some.inj hd).symm⟩
    intro _
    rw [Function.update_self, ht]
    exact ⟨f, hsealed, hseq, hterm⟩
  next t _ hcall =>
    rw [hcall] at hkeep
    exact .write hnot rfl hkeep (fun e he => he.elim) .idle

theorem reconcileStep_effect (hok : RecOk row store p) (hheld : p ≠ .idle → ¬Held cfg row)
    (hattempts : row.publicAttempt = row.attemptCount) (hlast : ∀ c out, p ≠ .finish c out) :
    RecEffect p row store (reconcileStep env p row store).1 (reconcileStep env p row store).2.1
      (reconcileStep env p row store).2.2 := by
  cases p with
  | idle => exact claimStep_effect env
  | reload =>
    have hnot := hheld (by simp)
    simp only [reconcileStep]
    split
    · exact ⟨.refl row, fun _ => .refl _ _, ⟨hattempts, rfl, fun _ => rfl, .inl rfl⟩,
        fun _ => hnot, fun c hc => .inr (Option.some.inj hc).symm⟩
    · exact ⟨.refl row, fun _ => .refl _ _, trivial, fun _ => hnot, fun c hc => by cases hc⟩
  | tail c =>
    refine .next (hheld (by simp)) rfl ?_
    dsimp only [reconcileStep]
    split
    · exact tailStep_ok hok
    · exact .idle
  | look c rounds =>
    refine .next (hheld (by simp)) rfl ?_
    dsimp only [reconcileStep]
    split
    · exact lookStep_ok hok rounds
    · exact .idle
  | append c => exact appendFrame_effect env hok (hheld (by simp))
  | confirm c f rounds =>
    refine .next (hheld (by simp)) rfl ?_
    dsimp only [reconcileStep]
    split
    · exact ⟨hok, fun d hd => (Option.some.inj hd).symm⟩
    · exact .idle
  | rollback c f rounds => exact rollbackFrame_effect env hok (hheld (by simp))
  | own c out =>
    refine .next (hheld (by simp)) rfl ?_
    dsimp only [reconcileStep]
    split
    · split
      · exact ⟨hok, fun d hd => (Option.some.inj hd).symm⟩
      next hzero =>
        exact ⟨⟨hok.1, hok.2, fun hpos => absurd hpos hzero⟩, fun d hd => (Option.some.inj hd).symm⟩
    · exact .idle
  | fetch c out =>
    refine .next (hheld (by simp)) rfl ?_
    dsimp only [reconcileStep]
    split
    · exact fetchStep_ok hok.1 hok.2
    · exact .idle
  | close c out f => exact sealFrame_effect env hok (hheld (by simp))
  | finish c out => exact absurd rfl (hlast c out)

end Recovery

end NewApi
