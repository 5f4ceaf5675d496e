import NewApi.Stream.Commit
import NewApi.Stream.Subscriber

/-!
# What a subscriber delivers

The attempts a subscriber is in only grow. In each of them it goes on from the cursor by one frame
at a time, so that no frame is left out or written twice.

The row is read before the frames are written, and in between the worker may have started another
attempt. So a frame that is written is committed, unless the row is in a later attempt. The frames
of an attempt do not change once the row is in a later one, so a search for business data that takes
many reads is as good as one.

The frames are read before the row. What is written is what the store serves, unless a reconciler
replaced a frame in between (`Unreplaced`).
-/

namespace NewApi

namespace Recovery

open Runs

variable {cfg : Config}

/-! ## Attempts of the past -/

variable {row : StreamExecution}

theorem attemptCount_le {row' : StreamExecution} (h : rowPosition row ≤ rowPosition row') :
    row.attemptCount ≤ row'.attemptCount := by
  rcases Prod.Lex.toLex_le_toLex.mp h with hlt | ⟨heq, -⟩
  · exact hlt.le
  · exact heq.le

theorem reconcileStep_store (env : ReconcileEnv) (p : ReconcilerPhase) (row : StreamExecution)
    (store : Nat → AttemptStore cfg.maxEvents) (attempt : Nat) :
    (reconcileStep env p row store).2.2 attempt = store attempt ∨
      ∃ c, p.claimed = some c ∧ attempt = c.publicAttempt := by
  have hupdate : ∀ (c : StreamExecution) (t : AttemptStore cfg.maxEvents), p.claimed = some c →
      Function.update store c.publicAttempt t attempt = store attempt ∨
        ∃ c, p.claimed = some c ∧ attempt = c.publicAttempt := by
    intro c t hc
    rcases eq_or_ne attempt c.publicAttempt with heq | hne
    · exact .inr ⟨c, hc, heq⟩
    · exact .inl (Function.update_of_ne hne _ _)
  cases p with
  | idle =>
    refine .inl ?_
    simp only [reconcileStep]
    split
    · rfl
    · split <;> rfl
  | append c | rollback c f rounds | close c out f =>
    simp only [reconcileStep]
    split <;> exact hupdate c _ rfl
  | _ => exact .inl rfl

variable {s : System cfg} {b : Subscriber} {t : Delivery cfg}

/-- What a step of the writer leaves as it was, unless it starts or publishes an attempt. -/
structure Framed (s s' : System cfg) : Prop where
  store : ∀ a, a ≠ s.writer.attempt → s'.store a = s.store a
  published : s'.published = s.published
  started : s'.writer.phase = .started →
    s.writer.phase = .started ∧ s'.writer.attempt = s.writer.attempt

theorem Framed.refl (s : System cfg) : Framed s s := ⟨fun _ _ => rfl, rfl, fun hp => ⟨hp, rfl⟩⟩

theorem Framed.of_phase {s' : System cfg}
    (hphase : s'.writer.phase ≠ .started := by intro hp; cases hp)
    (hstore : ∀ a, a ≠ s.writer.attempt → s'.store a = s.store a := by exact fun _ _ => rfl)
    (hpublished : s'.published = s.published := by rfl) : Framed s s' :=
  ⟨hstore, hpublished, fun hp => absurd hp hphase⟩

def Action.plain : Action → Bool
  | .start .. | .publish _ | .reconcile .. => false
  | _ => true

theorem step_framed (s : System cfg) {a : Action} (ha : a.plain = true) : Framed s (step s a) := by
  have haccept : ∀ (t : System cfg) f, (t.accept f).writer.phase ≠ .started := by
    intro t f
    simp only [System.accept]
    cases f.terminal <;> decide
  cases a with simp only [step]
  | append piece token full fault =>
    simp only [appendStep]
    split
    · split <;> exact .of_phase (fun hp => by cases hp) fun a ha => Function.update_of_ne ha _ _
    · exact .refl s
  | rollback fault =>
    simp only [rollbackStep]
    split
    · split <;> exact .of_phase (fun hp => by cases hp) fun a ha => Function.update_of_ne ha _ _
    · exact .refl s
  | commit now fault =>
    simp only [commitStep]
    split
    · split
      · exact .of_phase (haccept _ _)
      · exact .of_phase
      · exact .of_phase
    · exact .refl s
  | check fault =>
    simp only [checkStep]
    split
    · split
      · exact .of_phase
      split
      · exact .of_phase (haccept _ _)
      split <;> exact .of_phase
    · exact .refl s
  | rotate next =>
    simp only [rotateStep]
    split
    case h_4 => exact .refl s
    all_goals
      split
      · exact .of_phase
      · exact .refl s
  | finish status error now fault =>
    simp only [finishStep]
    split
    case h_5 => exact .refl s
    all_goals exact .of_phase
  | renew now lockUntil | cancel userId tokenId =>
    exact ⟨fun _ _ => rfl, rfl, fun hp => ⟨hp, rfl⟩⟩
  | start | publish | reconcile => cases ha

theorem frozen_step (h : Inv s) {attempt : Nat} (hpast : attempt < s.row.attemptCount)
    (a : Action) : (step s a).store attempt = s.store attempt := by
  have hwriter : attempt ≠ s.writer.attempt := (hpast.trans_le h.attempt_le).ne
  have hframed : a.plain = true → Framed s (step s a) := step_framed s
  cases a with
  | reconcile id env =>
    rcases reconcileStep_store env (s.reconcilers id) s.row s.store attempt with
      hsame | ⟨c, hc, rfl⟩
    · exact hsame
    · have hsnap := (h.reconciler id).snap hc
      rw [hsnap.attempts, hsnap.attemptCount] at hpast
      exact absurd hpast (Nat.lt_irrefl _)
  | start now fault =>
    simp only [step, startStep]
    split
    · split <;> rfl
    · rfl
  | publish fault =>
    simp only [step, publishStep]
    split <;> rfl
  | _ => exact (hframed rfl).store attempt hwriter

/-- The published attempt is one that the row has reached. -/
structure Published (s : System cfg) : Prop where
  positive : 0 < s.row.attemptCount
  reached : s.published ≤ s.row.attemptCount
  started : s.writer.phase = .started → s.writer.attempt ≤ s.row.attemptCount

theorem published_initial (h : Initial s) : Published s := by
  have hin := h.inAttempt
  simp only [StreamExecution.inAttempt, decide_eq_true_eq] at hin
  refine ⟨hin.2 ▸ h.positive, (h.published.trans hin.2.symm).le, fun _ => hin.2.ge⟩

theorem Published.next {s' : System cfg} (h : Published s)
    (hrow : rowPosition s.row ≤ rowPosition s'.row) (hpublished : s'.published = s.published ∨
      (s.writer.phase = .started ∧ s'.published = s.writer.attempt))
    (hstarted : s'.writer.phase = .started →
      (s.writer.phase = .started ∧ s'.writer.attempt = s.writer.attempt) ∨
        s'.writer.attempt ≤ s'.row.attemptCount) : Published s' := by
  have hle := attemptCount_le hrow
  refine ⟨h.positive.trans_le hle, ?_, ?_⟩
  · rcases hpublished with heq | ⟨hp, heq⟩ <;> rw [heq]
    · exact h.reached.trans hle
    · exact (h.started hp).trans hle
  · intro hp
    rcases hstarted hp with ⟨hold, heq⟩ | hnew
    · rw [heq]
      exact (h.started hold).trans hle
    · exact hnew

theorem step_published (s : System cfg) (a : Action) :
    (step s a).published = s.published ∨
      (s.writer.phase = .started ∧ (step s a).published = s.writer.attempt) := by
  have hframed : a.plain = true → Framed s (step s a) := step_framed s
  cases a with
  | publish fault =>
    simp only [step, publishStep]
    split
    next hphase =>
      cases fault with
      | none | unheard => exact .inr ⟨hphase, rfl⟩
      | lost => exact .inl rfl
    · exact .inl rfl
  | start now fault =>
    simp only [step, startStep]
    split
    · split <;> exact .inl rfl
    · exact .inl rfl
  | reconcile id env => exact .inl rfl
  | _ => exact .inl (hframed rfl).published

theorem step_started (s : System cfg) (a : Action) (hp : (step s a).writer.phase = .started) :
    (s.writer.phase = .started ∧ (step s a).writer.attempt = s.writer.attempt) ∨
      (step s a).writer.attempt ≤ (step s a).row.attemptCount := by
  have hframed : a.plain = true → Framed s (step s a) := step_framed s
  revert hp
  cases a with
  | start now fault =>
    simp only [step, startStep]
    split
    · rcases fault.update_cases (StreamExecution.startAttempt cfg.worker s.writer.attempt now)
        s.row with he | he | ⟨row', hup, he | he⟩ <;> simp only [he]
      · intro hp; cases hp
      · intro hp; cases hp
      · exact fun _ => .inr (startAttempt_spec hup).2.2.1.ge
      · intro hp; cases hp
    · exact fun hp => .inl ⟨hp, rfl⟩
  | publish fault =>
    simp only [step, publishStep]
    split
    · intro hp; cases hp
    · exact fun hp => .inl ⟨hp, rfl⟩
  | reconcile id env => exact fun hp => .inl ⟨hp, rfl⟩
  | _ => exact fun hp => .inl ((hframed rfl).started hp)

theorem published_step (hinv : Inv s) (h : Published s) (a : Action) : Published (step s a) :=
  h.next (step_goes hinv a).grows.row (step_published s a) (step_started s a)

theorem published_run {s₀ : System cfg} (h : Initial s₀) (as : List Action) :
    Published (run step s₀ as) :=
  (run_invariant_of_step (I := fun s => Inv s ∧ Published s)
    (fun _ a hs => ⟨(step_goes hs.1 a).inv, published_step hs.1 hs.2 a⟩) as
    ⟨inv_initial h, published_initial h⟩).2

/-! ## What a subscriber has written -/

@[simp]
theorem written_append (attempt : Nat) (xs ys : List Output) :
    written attempt (xs ++ ys) = written attempt xs ++ written attempt ys := by
  induction xs with
  | nil => rfl
  | cons x xs ih =>
    cases x with
    | frame a f =>
      rw [List.cons_append, written, written, ih]
      split <;> rfl
    | failure message => exact ih

/-- The frames of each attempt follow its cursor one by one, and nothing follows
a terminal frame. -/
structure LogOk (request : SubscriberRequest) (b : Subscriber) : Prop where
  requested : b.request = request
  consecutive : ∀ a, (written a b.output).map StreamRecoveryFrame.sequence =
    List.range' (streamRecoveryResumeSequence request a + 1) (written a b.output).length
  terminal : ∀ before a f after, b.output = before ++ .frame a f :: after → f.terminal = true →
    after = []

def Unended (output : List Output) : Prop := ∀ a f, .frame a f ∈ output → f.terminal = false

theorem Unended.append {output : List Output} (h : Unended output) (x : Output) {a : Nat}
    {f : StreamRecoveryFrame} {before after : List Output}
    (heq : output ++ [x] = before ++ .frame a f :: after) (hterm : f.terminal = true) :
    after = [] := by
  rcases List.eq_nil_or_concat after with rfl | ⟨after, y, rfl⟩
  · rfl
  rw [List.concat_eq_append, ← List.cons_append, ← List.append_assoc] at heq
  have hmem : .frame a f ∈ output := by
    rw [(List.append_inj' heq rfl).1]
    exact List.mem_append_right _ List.mem_cons_self
  rw [h a f hmem] at hterm
  cases hterm

theorem LogOk.fail {request : SubscriberRequest} (h : LogOk request b) (hopen : Unended b.output)
    (message : String) : LogOk request (b.fail message) where
  requested := h.requested
  consecutive a := by
    simp only [Subscriber.fail, written_append, written, List.append_nil]
    exact h.consecutive a
  terminal _ _ _ _ heq hterm := hopen.append _ heq hterm

theorem LogOk.of_output {request : SubscriberRequest} {b' : Subscriber} (h : LogOk request b)
    (hrequest : b'.request = b.request) (houtput : b'.output = b.output) : LogOk request b' where
  requested := hrequest.trans h.requested
  consecutive a := by rw [houtput]; exact h.consecutive a
  terminal before a f after heq := h.terminal before a f after (houtput ▸ heq)

/-! ## Where a subscriber is -/

/-- A subscriber in the loop. -/
structure Live (row : StreamExecution) (b : Subscriber) : Prop where
  reached : b.attempt ≤ row.attemptCount
  cursor : streamRecoveryResumeSequence b.request b.attempt +
    (written b.attempt b.output).length = b.sequence
  later : ∀ a, b.attempt < a → written a b.output = []
  quiet : b.businessOutput = false → ∀ f ∈ written b.attempt b.output,
    streamRecoveryFrameHasBusinessData f.data = false
  unended : Unended b.output

/-- No stored frame up to this sequence has business data. -/
def ClearThrough (t : AttemptStore cfg.maxEvents) (n : Nat) : Prop :=
  ∀ e ∈ t.entries, e.sequence ≤ n → streamRecoveryFrameHasBusinessData e.data = false

/-- The frames that the subscriber holds when it reads the row in this step. -/
def loaded (t : Delivery cfg) : DeliveryAction → List StreamRecoveryFrame
  | .party _ => []
  | .subscriber env =>
    match t.subscriber.phase, env.fault with
    | .loading frames, none => frames
    | _, _ => []

/-- The frames that the row shows as committed are still stored when it is read. -/
def Unreplaced (t : Delivery cfg) (x : DeliveryAction) : Prop :=
  ∀ f ∈ loaded t x, t.system.row.publicAttempt = t.subscriber.attempt →
    f.sequence ≤ t.system.row.committedSequence →
      f ∈ (t.system.store t.subscriber.attempt).entries

instance Unreplaced.decidable (t : Delivery cfg) (x : DeliveryAction) :
    Decidable (Unreplaced t x) :=
  inferInstanceAs (Decidable (∀ f ∈ loaded t x, _ → _ → _))

section

-- What was written or is written next is `Kept` if the condition `ok` holds.
variable (ok : Prop)

def PhaseOk (s : System cfg) (b : Subscriber) : Prop :=
  match b.phase with
  | .opening snapshot => b.attempt = 0 ∧ b.output = [] ∧ snapshot ≤ s.row.attemptCount
  | .polling | .sleeping => b.attempt = 0 ∧ b.output = []
  | .waiting | .loading _ | .checkingNew _ => Live s.row b
  | .writing frames current _ =>
    Live s.row b ∧ toLex (b.attempt, current.committedSequence) ≤ rowPosition s.row ∧
      (ok → ∀ f ∈ frames, f.sequence ≤ current.committedSequence → Kept b.attempt f s)
  | .checkingOld next after =>
    Live s.row b ∧ b.attempt < next ∧ next ≤ s.row.attemptCount ∧ b.businessOutput = false ∧
      ClearThrough (s.store b.attempt) after
  | .done => True

/-- The invariant of a stream with a subscriber. -/
structure DeliveryInv (request : SubscriberRequest) (t : Delivery cfg) : Prop where
  system : Inv t.system
  last : ∃ n, Last t.system n
  published : Published t.system
  log : LogOk request t.subscriber
  phase : PhaseOk ok t.system t.subscriber
  kept : ok → ∀ a f, .frame a f ∈ t.subscriber.output → Kept a f t.system

theorem deliveryInv_opened {s₀ : System cfg} (h₀ : Initial s₀) (as : List Action)
    (request : SubscriberRequest) {snapshot : Nat}
    (hsnapshot : snapshot ≤ (run step s₀ as).row.publicAttempt) :
    DeliveryInv ok request ⟨run step s₀ as, .opened request snapshot⟩ where
  system := inv_run h₀ as
  last := last_run h₀ as
  published := published_run h₀ as
  log := ⟨rfl, fun _ => rfl, fun before a f after heq => by
    simp [Subscriber.opened] at heq⟩
  phase := ⟨rfl, rfl, hsnapshot.trans (inv_run h₀ as).attempts.le⟩
  kept _ a f hf := by cases hf

end

variable {ok : Prop}

/-! ## The steps of the other parties -/

theorem Live.mono {row' : StreamExecution} (h : Live row b)
    (hle : rowPosition row ≤ rowPosition row') : Live row' b :=
  { h with reached := h.reached.trans (attemptCount_le hle) }

theorem phaseOk_step (hinv : Inv s) (h : PhaseOk ok s b) (a : Action) :
    PhaseOk ok (step s a) b := by
  have hrow := (step_goes hinv a).grows.row
  unfold PhaseOk at h ⊢
  split
  next hp =>
    rw [hp] at h
    exact ⟨h.1, h.2.1, h.2.2.trans (attemptCount_le hrow)⟩
  next hp => rw [hp] at h; exact h
  next hp => rw [hp] at h; exact h
  next hp => rw [hp] at h; exact h.mono hrow
  next hp => rw [hp] at h; exact h.mono hrow
  next hp => rw [hp] at h; exact h.mono hrow
  next hp =>
    rw [hp] at h
    exact ⟨h.1.mono hrow, h.2.1.trans hrow, fun hok f hf hle =>
      kept_step hinv (h.2.2 hok f hf hle) a⟩
  next hp =>
    rw [hp] at h
    obtain ⟨hlive, hlt, hle, hquiet, hclear⟩ := h
    refine ⟨hlive.mono hrow, hlt, hle.trans (attemptCount_le hrow), hquiet, ?_⟩
    rw [frozen_step hinv (hlt.trans_le hle)]
    exact hclear
  · trivial

/-! ## The steps of the subscriber -/

theorem Live.enter {attempt : Nat} (houtput : b.output = [])
    (hreached : attempt ≤ row.attemptCount) : Live row (b.enter attempt) := by
  refine ⟨hreached, ?_, ?_, ?_, ?_⟩ <;> simp only [Subscriber.enter, houtput]
  · rfl
  · exact fun _ _ => rfl
  · exact fun _ _ hf => by cases hf
  · exact fun _ _ hf => by cases hf

theorem Live.switchTo {next : Nat} (h : Live row b) (hlt : b.attempt < next)
    (hreached : next ≤ row.attemptCount) : Live row (b.switchTo next) := by
  have hnone := h.later next hlt
  refine ⟨hreached, ?_, fun a ha => h.later a (hlt.trans ha), ?_, h.unended⟩ <;>
    simp only [Subscriber.switchTo, hnone]
  · rfl
  · exact fun _ _ hf => by cases hf

theorem phaseOk_switchTo {next : Nat} (h : Live s.row b) (hlt : b.attempt < next)
    (hreached : next ≤ s.row.attemptCount) : PhaseOk ok s (b.switchTo next) := by
  have hlive := h.switchTo hlt hreached
  by_cases hpos : 0 < streamRecoveryResumeSequence b.request next
  · simp only [PhaseOk, Subscriber.switchTo, hpos, if_true] at hlive ⊢
    exact hlive
  · simp only [PhaseOk, Subscriber.switchTo, hpos, if_false] at hlive ⊢
    exact hlive

section

variable {row : StreamExecution} {b : Subscriber} {f : StreamRecoveryFrame}

theorem LogOk.write {request : SubscriberRequest} (hlog : LogOk request b) (h : Live row b)
    (hseq : f.sequence = b.sequence + 1) (rest : List StreamRecoveryFrame)
    (current : StreamExecution) : LogOk request (b.write f rest current) where
  requested := hlog.requested
  consecutive a := by
    have hold := hlog.consecutive a
    have hcursor := h.cursor
    rw [hlog.requested] at hcursor
    simp only [Subscriber.write, written_append, written]
    split
    next heq =>
      subst heq
      rw [List.map_append, hold, List.length_append, List.length_singleton, List.range'_1_concat,
        List.map_singleton, hseq, ← hcursor]
      congr 2
      omega
    · rw [List.append_nil]
      exact hold
  terminal _ _ _ _ heq hterm := h.unended.append _ heq hterm

theorem Live.write (h : Live row b) (hseq : f.sequence = b.sequence + 1)
    (hterm : f.terminal = false) (rest : List StreamRecoveryFrame) (current : StreamExecution) :
    Live row (b.write f rest current) where
  reached := h.reached
  cursor := by
    have hcursor := h.cursor
    simp only [Subscriber.write, written_append, written, if_true, List.length_append,
      List.length_singleton]
    omega
  later a ha := by
    simp only [Subscriber.write] at ha ⊢
    rw [written_append, h.later a ha, written, if_neg ha.ne]
    rfl
  quiet hbusiness g hg := by
    simp only [Subscriber.write, Bool.or_eq_false_iff, written_append, written, if_true,
      List.mem_append, List.mem_singleton] at hbusiness hg
    rcases hg with hg | rfl
    · exact h.quiet hbusiness.1 g hg
    · exact hbusiness.2
  unended a g hg := by
    simp only [Subscriber.write, List.mem_append, List.mem_singleton] at hg
    rcases hg with hg | hg
    · exact h.unended a g hg
    · cases hg
      exact hterm

end

theorem scanFrames_clear {t : AttemptStore cfg.maxEvents} {through after : Nat}
    {frames : List StreamRecoveryFrame} (hmem : ∀ f ∈ frames, f ∈ t.entries)
    (hclear : ClearThrough t after) :
    (scanFrames through after frames = .clear → ClearThrough t through) ∧
      ∀ n, scanFrames through after frames = .more n → ClearThrough t n := by
  induction frames generalizing after with
  | nil => exact ⟨nofun, fun n h => by cases h; exact hclear⟩
  | cons f rest ih =>
    rw [scanFrames]
    split
    · exact ⟨nofun, nofun⟩
    next hseq =>
    rw [not_or, not_not] at hseq
    split
    · exact ⟨nofun, nofun⟩
    next hbusiness =>
    -- The frame is the only one with its sequence.
    have hnext : ClearThrough t (after + 1) := by
      intro e he hle
      rcases Nat.lt_or_ge after e.sequence with hlt | hge
      · have heq : e = f := AttemptStore.eq_of_sequence_eq he (hmem f List.mem_cons_self) (by omega)
        rw [heq]
        exact Bool.eq_false_iff.mpr hbusiness
      · exact hclear e he hge
    split
    next hthrough =>
      rw [← hthrough, hseq.1]
      exact ⟨fun _ => hnext, nofun⟩
    · exact ih (fun g hg => hmem g (List.mem_cons_of_mem _ hg)) hnext

theorem scanBatch_clear {t : AttemptStore cfg.maxEvents} {after : Nat} (through : Nat)
    (hclear : ClearThrough t after) :
    (scanBatch t through after = .clear → ClearThrough t through) ∧
      ∀ n, scanBatch t through after = .more n → ClearThrough t n := by
  have hmem : ∀ f ∈ t.readFrames after (min 256 (through - after)), f ∈ t.entries :=
    fun f hf => (AttemptStore.mem_of_mem_readFrames hf).1
  rw [scanBatch]
  split
  · exact ⟨nofun, nofun⟩
  next f rest heq =>
    rw [heq] at hmem
    exact scanFrames_clear hmem hclear

theorem clearThrough_zero (t : AttemptStore cfg.maxEvents) : ClearThrough t 0 := fun e he hle => by
  have := (t.sequence_le e he).1
  omega

theorem Live.withPhase (h : Live row b) (phase : SubscriberPhase) :
    Live row { b with phase := phase } :=
  ⟨h.reached, h.cursor, h.later, h.quiet, h.unended⟩

section

variable {request : SubscriberRequest} {s : System cfg} {b : Subscriber}

/-- A step writes nothing, a failure, or the next of the frames that were
committed when the row was read. -/
inductive Writes (b b' : Subscriber) : Prop
  | nothing (houtput : b'.output = b.output)
  | failure (message : String) (houtput : b'.output = b.output ++ [.failure message])
  | frame (f : StreamRecoveryFrame) (rest : List StreamRecoveryFrame) (current : StreamExecution)
      (wroteFrame : Bool) (hphase : b.phase = .writing (f :: rest) current wroteFrame)
      (hcommitted : f.sequence ≤ current.committedSequence)
      (houtput : b'.output = b.output ++ [.frame b.attempt f])

/-- A step keeps the log and the phase, and leaves an attempt only if its client has seen no
business data of it. -/
structure Stepped (ok : Prop) (request : SubscriberRequest) (s : System cfg) (b b' : Subscriber) :
    Prop where
  log : LogOk request b'
  phase : PhaseOk ok s b'
  writes : Writes b b'
  quiet : b.attempt ≠ 0 → b'.attempt ≠ b.attempt →
    (∀ f ∈ written b.attempt b.output, streamRecoveryFrameHasBusinessData f.data = false) ∧
    ClearThrough (s.store b.attempt) b.sequence

variable {attempt sequence : Nat} {businessOutput : Bool} {phase : SubscriberPhase}

theorem Stepped.silent (hlog : LogOk request b)
    (hphase : PhaseOk ok s ⟨b.request, attempt, sequence, businessOutput, phase, b.output⟩)
    (hquiet : b.attempt ≠ 0 → attempt ≠ b.attempt →
      (∀ f ∈ written b.attempt b.output, streamRecoveryFrameHasBusinessData f.data = false) ∧
      ClearThrough (s.store b.attempt) b.sequence) :
    Stepped ok request s b ⟨b.request, attempt, sequence, businessOutput, phase, b.output⟩ :=
  ⟨hlog.of_output rfl rfl, hphase, .nothing rfl, hquiet⟩

theorem Stepped.here (hlog : LogOk request b)
    (hphase : PhaseOk ok s ⟨b.request, b.attempt, sequence, businessOutput, phase, b.output⟩) :
    Stepped ok request s b ⟨b.request, b.attempt, sequence, businessOutput, phase, b.output⟩ :=
  .silent hlog hphase fun _ hne => absurd rfl hne

theorem Stepped.fail (hlog : LogOk request b) (hopen : Unended b.output) (message : String) :
    Stepped ok request s b (b.fail message) :=
  ⟨hlog.fail hopen message, trivial, .failure message rfl, fun _ hne => absurd rfl hne⟩

theorem Stepped.stop (hlog : LogOk request b) : Stepped ok request s b b.stop := .here hlog trivial

theorem endBatch_stepped (hlog : LogOk request b) (h : Live s.row b) (current : StreamExecution)
    (wroteFrame : Bool) (now : Int) :
    Stepped ok request s b (b.endBatch current wroteFrame now) := by
  rw [Subscriber.endBatch]
  split
  · exact .fail hlog h.unended _
  split
  · split
    · exact .fail hlog h.unended _
    · exact .here hlog trivial
  split
  · exact .here hlog trivial
  · exact .here hlog ⟨h.reached, h.cursor, h.later, h.quiet, h.unended⟩

theorem unended_of_empty (h : b.output = []) : Unended b.output := by
  intro a f hf
  rw [h] at hf
  cases hf

variable (hlog : LogOk request b) (h : PhaseOk ok s b) (env : SubscriberEnv)

include hlog h

theorem openingStep_ok (hpub : Published s) {snapshot : Nat} (hp : b.phase = .opening snapshot) :
    Stepped ok request s b (subscriberStep env s b) := by
  rw [PhaseOk, hp] at h
  have hreached : (if env.fault.isSome ∨ s.published = 0 then snapshot else s.published) ≤
      s.row.attemptCount := by
    split
    · exact h.2.2
    · exact hpub.reached
  simp only [subscriberStep, hp]
  generalize (if env.fault.isSome ∨ s.published = 0 then snapshot else s.published) = attempt
    at hreached ⊢
  split
  · exact .here hlog ⟨h.1, h.2.1⟩
  · exact .silent hlog (Live.enter h.2.1 hreached) fun hne => absurd h.1 hne

theorem pollingStep_ok (hpublic : s.row.publicAttempt = s.row.attemptCount)
    (hp : b.phase = .polling) : Stepped ok request s b (subscriberStep env s b) := by
  rw [PhaseOk, hp] at h
  simp only [subscriberStep, hp]
  split
  · exact .fail hlog (unended_of_empty h.2) _
  split
  · exact .silent hlog (Live.enter h.2 hpublic.le) fun hne => absurd h.1 hne
  split
  · exact .fail hlog (unended_of_empty h.2) _
  · exact .here hlog h

/-- The row read for a batch shows the attempt of the subscriber, or a later one. -/
theorem loadingStep_ok (hpublic : s.row.publicAttempt = s.row.attemptCount) (hpub : Published s)
    {frames : List StreamRecoveryFrame} (hp : b.phase = .loading frames)
    (hloaded : ok → env.fault = none → s.row.publicAttempt = b.attempt → ∀ f ∈ frames,
      f.sequence ≤ s.row.committedSequence → Kept b.attempt f s) :
    Stepped ok request s b (subscriberStep env s b) := by
  rw [PhaseOk, hp] at h
  simp only [subscriberStep, hp]
  split
  · exact .stop hlog
  next hfault =>
  split
  next hother =>
    have hlt : b.attempt < s.row.publicAttempt := by
      have := h.reached
      omega
    split
    next hquiet =>
      exact .here hlog ⟨h.withPhase _, hlt, hpublic.le, hquiet.1, clearThrough_zero _⟩
    next hseq =>
    split
    · exact .stop hlog
    next hbusiness =>
      refine .silent hlog (phaseOk_switchTo h hlt hpublic.le) fun _ _ => ?_
      have hbusiness := Bool.eq_false_iff.mpr hbusiness
      have hzero : b.sequence = 0 := Nat.eq_zero_of_not_pos fun hpos => hseq ⟨hbusiness, hpos⟩
      exact ⟨h.quiet hbusiness, hzero ▸ clearThrough_zero _⟩
  next hsame =>
    have hpos := hpub.positive
    have hattempt : b.attempt = s.row.attemptCount := by omega
    refine .here hlog ⟨h.withPhase _, ?_, fun hok => ?_⟩
    · exact (congrArg (fun n => toLex (n, s.row.committedSequence)) hattempt).le
    · exact hloaded hok (by simpa using hfault) (hpublic.trans hattempt.symm)

theorem writingStep_ok {frames : List StreamRecoveryFrame} {current : StreamExecution}
    {wroteFrame : Bool} (hp : b.phase = .writing frames current wroteFrame) :
    Stepped ok request s b (subscriberStep env s b) := by
  rw [PhaseOk, hp] at h
  obtain ⟨hlive, hle, hkept⟩ := h
  cases frames with simp only [subscriberStep, hp]
  | nil =>
    exact endBatch_stepped hlog hlive _ _ _
  | cons f rest =>
    split
    · exact endBatch_stepped hlog hlive _ _ _
    next hcommitted =>
    split
    · exact .fail hlog hlive.unended _
    next hseq =>
    have hseq : f.sequence = b.sequence + 1 := not_not.mp hseq
    split
    · exact .stop hlog
    refine ⟨hlog.write hlive hseq rest current, ?_, .frame f rest current wroteFrame hp
      (Nat.le_of_not_lt hcommitted) rfl, fun _ hne => absurd rfl hne⟩
    cases hterm : f.terminal with
    | true =>
      simp only [PhaseOk, Subscriber.write, hterm, if_true]
    | false =>
      have hnext := hlive.write hseq hterm rest current
      simp only [PhaseOk, Subscriber.write, hterm, Bool.false_eq_true, if_false] at hnext ⊢
      exact ⟨hnext, hle, fun hok g hg => hkept hok g (List.mem_cons_of_mem f hg)⟩

theorem checkingOldStep_ok {next after : Nat} (hp : b.phase = .checkingOld next after) :
    Stepped ok request s b (subscriberStep env s b) := by
  rw [PhaseOk, hp] at h
  obtain ⟨hlive, hlt, hle, hquiet, hclear⟩ := h
  have hscan := scanBatch_clear b.sequence hclear
  simp only [subscriberStep, hp]
  split
  · exact .stop hlog
  split
  · exact .stop hlog
  · exact .stop hlog
  next hdone =>
    exact .silent hlog (phaseOk_switchTo hlive hlt hle) fun _ _ =>
      ⟨hlive.quiet hquiet, hscan.1 hdone⟩
  next n hmore =>
    exact .here hlog ⟨hlive.withPhase _, hlt, hle, hquiet, hscan.2 n hmore⟩

theorem checkingNewStep_ok {after : Nat} (hp : b.phase = .checkingNew after) :
    Stepped ok request s b (subscriberStep env s b) := by
  rw [PhaseOk, hp] at h
  simp only [subscriberStep, hp]
  split
  · exact .stop hlog
  split
  · exact .stop hlog
  · exact .here hlog ⟨h.reached, h.cursor, h.later, nofun, h.unended⟩
  · exact .here hlog (h.withPhase _)
  · exact .here hlog (h.withPhase _)

theorem subscriberStep_ok (hinv : Inv s) (hpub : Published s)
    (hloaded : ok → ∀ f ∈ loaded ⟨s, b⟩ (.subscriber env), s.row.publicAttempt = b.attempt →
      f.sequence ≤ s.row.committedSequence → Kept b.attempt f s) :
    Stepped ok request s b (subscriberStep env s b) := by
  cases hp : b.phase with
  | opening snapshot => exact openingStep_ok hlog h env hpub hp
  | polling => exact pollingStep_ok hlog h env hinv.attempts hp
  | sleeping =>
    rw [PhaseOk, hp] at h
    simp only [subscriberStep, hp]
    split
    · exact .stop hlog
    split
    · exact .here hlog h
    · exact .silent hlog (Live.enter h.2 hpub.reached) fun hne => absurd h.1 hne
  | waiting =>
    rw [PhaseOk, hp] at h
    simp only [subscriberStep, hp]
    split
    · exact .stop hlog
    · exact .here hlog (h.withPhase _)
  | loading frames =>
    refine loadingStep_ok hlog h env hinv.attempts hpub hp fun hok hfault hattempt f hf => ?_
    exact hloaded hok f (by simpa only [loaded, hp, hfault] using hf) hattempt
  | writing frames current wroteFrame => exact writingStep_ok hlog h env hp
  | checkingOld next after => exact checkingOldStep_ok hlog h env hp
  | checkingNew after => exact checkingNewStep_ok hlog h env hp
  | done =>
    simp only [subscriberStep, hp]
    exact .here hlog h

end

variable {request : SubscriberRequest}

theorem DeliveryInv.stepped (h : DeliveryInv ok request t) {env : SubscriberEnv}
    (hx : ok → Unreplaced t (.subscriber env)) :
    Stepped ok request t.system t.subscriber (subscriberStep env t.system t.subscriber) := by
  refine subscriberStep_ok h.log h.phase env h.system h.published fun hok f hf hattempt hle => ?_
  obtain ⟨n, hlast⟩ := h.last
  have hmem := hx hok f hf hattempt hle
  rw [← hattempt, h.system.attempts] at hmem ⊢
  exact kept_of_committed h.system hlast hmem hle

theorem deliveryInv_step (h : DeliveryInv ok request t) (x : DeliveryAction)
    (hx : ok → Unreplaced t x) : DeliveryInv ok request (deliver t x) := by
  cases x with
  | party a =>
    have hgoes := step_goes h.system a
    exact ⟨hgoes.inv, h.last.elim hgoes.last, published_step h.system h.published a, h.log,
      phaseOk_step h.system h.phase a, fun hok b f hf => kept_step h.system (h.kept hok b f hf) a⟩
  | subscriber env =>
    have hstep := h.stepped hx
    refine ⟨h.system, h.last, h.published, hstep.log, hstep.phase, fun hok a f hf => ?_⟩
    dsimp only [deliver] at hf
    rcases hstep.writes with hout | ⟨message, hout⟩ |
      ⟨g, rest, current, wroteFrame, hphase, hcommitted, hout⟩ <;> rw [hout] at hf
    · exact h.kept hok a f hf
    · exact h.kept hok a f (by simpa using hf)
    rcases List.mem_append.mp hf with hold | hnew
    · exact h.kept hok a f hold
    obtain ⟨rfl, rfl⟩ : a = t.subscriber.attempt ∧ f = g := by simpa using hnew
    have hbatch := h.phase
    rw [PhaseOk, hphase] at hbatch
    exact hbatch.2.2 hok f List.mem_cons_self hcommitted

/-! ## One step -/

theorem committed_of_writes (h : DeliveryInv False request t)
    {x : DeliveryAction} {a : Nat} {f : StreamRecoveryFrame}
    (hwrites : (deliver t x).subscriber.output = t.subscriber.output ++ [.frame a f])
    (hattempt : t.system.row.publicAttempt = a) : f.sequence ≤ t.system.row.committedSequence := by
  have hself : ∀ (y : Output), t.subscriber.output ≠ t.subscriber.output ++ [y] := fun y hy => by
    simpa using congrArg List.length hy
  cases x with
  | party act => exact absurd hwrites (hself _)
  | subscriber env =>
    rcases (h.stepped False.elim).writes with hout |
      ⟨message, hout⟩ | ⟨g, rest, current, wroteFrame, hphase, hcommitted, hout⟩
    · exact absurd (hout.symm.trans hwrites) (hself _)
    · have := List.append_cancel_left (hout.symm.trans hwrites)
      cases this
    have := List.append_cancel_left (hout.symm.trans hwrites)
    cases this
    have hok := h.phase
    rw [PhaseOk, hphase] at hok
    have hpublic := h.system.attempts
    rcases Prod.Lex.toLex_le_toLex.mp hok.2.1 with hlt | ⟨-, hle⟩
    · omega
    · exact hcommitted.trans hle

/-! ## Whole runs -/

/-- What a subscriber has delivered and does next. -/
structure Delivers (request : SubscriberRequest) (t : Delivery cfg) : Prop where
  consecutive : ∀ a, (written a t.subscriber.output).map StreamRecoveryFrame.sequence =
    List.range' (streamRecoveryResumeSequence request a + 1)
      (written a t.subscriber.output).length
  terminal : ∀ before a f after, t.subscriber.output = before ++ .frame a f :: after →
    f.terminal = true → after = []
  /-- A frame that is written next is committed, or the row has moved on. -/
  committed : ∀ x a f, (deliver t x).subscriber.output = t.subscriber.output ++ [.frame a f] →
    t.system.row.publicAttempt = a → f.sequence ≤ t.system.row.committedSequence
  /-- An attempt that is left next has shown no business data up to the cursor. -/
  switches : ∀ x, t.subscriber.attempt ≠ 0 →
    (deliver t x).subscriber.attempt ≠ t.subscriber.attempt →
      (∀ f ∈ written t.subscriber.attempt t.subscriber.output,
        streamRecoveryFrameHasBusinessData f.data = false) ∧
      ∀ e ∈ (t.system.store t.subscriber.attempt).entries, e.sequence ≤ t.subscriber.sequence →
        streamRecoveryFrameHasBusinessData e.data = false

/-- A subscriber that comes at any time, with any cursor. What it writes is what the store serves,
if no frame that it holds is replaced before it reads the row. -/
theorem subscriber_delivers {s₀ : System cfg} (h₀ : Initial s₀) (as : List Action)
    (request : SubscriberRequest) {snapshot : Nat}
    (hsnapshot : snapshot ≤ (run step s₀ as).row.publicAttempt) (xs : List DeliveryAction) :
    let start : Delivery cfg := ⟨run step s₀ as, .opened request snapshot⟩
    let t := run deliver start xs
    Delivers request t ∧
      (Along deliver Unreplaced start xs → ∀ a f, .frame a f ∈ t.subscriber.output →
        (t.system.store a).find f.sequence = some f) := by
  intro start t
  have h : DeliveryInv False request t :=
    run_invariant_of_step (I := DeliveryInv False request)
      (fun _ x ht => deliveryInv_step ht x False.elim) xs
      (deliveryInv_opened False h₀ as request hsnapshot)
  refine ⟨⟨h.log.consecutive, h.log.terminal, fun _ _ _ => committed_of_writes h, fun x => ?_⟩,
    fun hxs a f hf => ?_⟩
  · cases x with
    | party a => exact fun _ hne => absurd rfl hne
    | subscriber env => exact (h.stepped False.elim).quiet
  · have h : DeliveryInv True request t :=
      run_invariant (I := DeliveryInv True request)
        (fun _ x ht hx => deliveryInv_step ht x fun _ => hx)
        (deliveryInv_opened True h₀ as request hsnapshot) hxs
    exact AttemptStore.find_eq_some.mpr ⟨(h.kept trivial a f hf).mem, rfl⟩

/-- The first frame of an attempt, without business data. -/
def pingFrame : StreamRecoveryFrame where
  sequence := 1
  data := ": ping\n\n".toList
  terminal := false
  rollbackToken := "t1"
  generation := 1

def pinged : List Action := [.append ": ping\n\n".toList "t1" false .none, .commit 1 .none]

def calmEnv : SubscriberEnv := ⟨1, none, false⟩

/-- The subscriber reads the published attempt, the frame and the row. -/
def following : List DeliveryAction := List.replicate 3 (.subscriber calmEnv)

theorem subscriber_delivers_ping :
    let start : Delivery freshConfig := ⟨run step freshSystem pinged, .opened ⟨[], []⟩ 1⟩
    let t := run deliver start (following ++ [.subscriber calmEnv])
    Delivers ⟨[], []⟩ t ∧ t.subscriber.output = [.frame 1 pingFrame] ∧
      (t.system.store 1).find 1 = some pingFrame := by
  have houtput : (run deliver ⟨run step freshSystem pinged, .opened ⟨[], []⟩ 1⟩
      (following ++ [.subscriber calmEnv])).subscriber.output = [.frame 1 pingFrame] := by
    decide +kernel
  have hattempt : 1 ≤ (run step freshSystem pinged).row.publicAttempt := by decide +kernel
  have h := subscriber_delivers freshSystem_initial pinged ⟨[], []⟩ hattempt
    (following ++ [.subscriber calmEnv])
  refine ⟨h.1, houtput, h.2 (by decide +kernel) 1 pingFrame ?_⟩
  exact List.mem_singleton_self _

/-- After the subscriber has read the row, the worker starts its next attempt. So the frame is
written when the row shows no committed frame. -/
example :
    let t := run deliver ⟨run step freshSystem pinged, .opened ⟨[], []⟩ 1⟩
      (following ++ [.party (.rotate 2), .party (.start 1 .none)])
    t.system.row.committedSequence = 0 ∧
      (deliver t (.subscriber calmEnv)).subscriber.output = [.frame 1 pingFrame] := by
  decide +kernel

/-- The subscriber has read two frames. A reconciler replaces the second one and ends the stream,
and then the subscriber reads the row. -/
def replaced : List DeliveryAction :=
  List.replicate 2 (.subscriber calmEnv) ++ List.replicate 12 (.party takeOver) ++
    List.replicate 4 (.subscriber calmEnv)

/-- The frame that was taken back is written, and the committed one, which ends the stream, is
not. -/
theorem subscriber_writes_replaced :
    let t := run deliver ⟨run step freshSystem (takenOver.take 3), .opened ⟨[], []⟩ 1⟩ replaced
    Initial freshSystem ∧ t.subscriber.phase = .done ∧
      t.subscriber.output = [.frame 1 firstFrame, .frame 1 secondFrame] ∧
      t.system.row.committedSequence = 2 ∧ (t.system.store 1).find 2 = some unsafeSecondFrame :=
  ⟨freshSystem_initial, by decide +kernel⟩

end Recovery

end NewApi
