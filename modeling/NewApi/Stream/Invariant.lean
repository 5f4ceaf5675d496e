import Mathlib.Data.Prod.Lex
import NewApi.Lib.Runs
import NewApi.Stream.Reconciler

/-!
# The invariant of workers and reconcilers

What holds in every state that the worker and the reconcilers reach, in
whatever order their steps come.

A frame that the writer has appended stays where it is, or a reconciler took it
away (`Gone`), and this cannot happen while the worker holds the lease. While
it does, no reconciler is at work. The row names a terminal sequence only when
the worker is done or the frame at this sequence is sealed.
-/

namespace NewApi

namespace Recovery

open Runs

variable {cfg : Config}

/-- The invariant of the system. -/
structure Inv (s : System cfg) : Prop where
  attempts : s.row.publicAttempt = s.row.attemptCount
  attempt_le : s.row.attemptCount ≤ s.writer.attempt
  rotated : s.writer.phase = .rotated → s.row.attemptCount < s.writer.attempt
  idle_of_held : Held cfg s.row → ∀ id, s.reconcilers id = .idle
  reconciler : ∀ id, RecOk s.row s.store (s.reconcilers id)
  writer : WriterOk s.row s.store s.writer
  terminal : s.row.terminalSequence = 0 ∨ s.writer.phase = .stopped ∨
    SealedAt (s.store s.row.attemptCount) s.row.terminalSequence

variable {s s' : System cfg} {f : StreamRecoveryFrame}

theorem inv_initial (h : Initial s) : Inv s := by
  have hin := h.inAttempt
  simp only [StreamExecution.inAttempt, decide_eq_true_eq] at hin
  refine ⟨hin.1.trans hin.2.symm, Nat.le_of_eq hin.2, ?_, fun _ => h.reconcilers,
    ?_, ?_, .inl h.terminal⟩
  · intro hr
    cases h.phase.symm.trans hr
  · intro id
    rw [h.reconcilers id]
    trivial
  · rw [WriterOk, h.phase]
    trivial

/-! ## What only grows -/

variable {removed : Nat → StreamRecoveryFrame → Prop} {row row' : StreamExecution}
  {update : StreamExecution → Option StreamExecution}

/-- How far the row is, by attempt and then by committed sequence. -/
def rowPosition (row : StreamExecution) : Nat ×ₗ Nat :=
  toLex (row.attemptCount, row.committedSequence)

def writerPosition (w : Writer) : Nat ×ₗ Nat := toLex (w.attempt, w.sequence)

/-- How many frames the writer may have committed without an answer. -/
def WriterPhase.unheard : WriterPhase → Nat
  | .checking _ false => 1
  | _ => 0

/-- The writer does not take back a frame with the sequence `n` of the attempt. -/
def Past (attempt n : Nat) (w : Writer) : Prop :=
  attempt < w.attempt ∨
    (attempt = w.attempt ∧ (w.phase = .stopped ∨ n ≤ w.sequence + w.phase.unheard))

def Taken (s : System cfg) (attempt : Nat) (e : StreamRecoveryFrame) : Prop :=
  (∃ g, s.writer.phase = .rejected g ∧ attempt = s.writer.attempt ∧ e.redisId = g.redisId) ∨
    ∃ id, Removes (s.reconcilers id) attempt e

/-- What every step has in common. -/
structure Grows (s s' : System cfg) : Prop where
  row : rowPosition s.row ≤ rowPosition s'.row
  writer : writerPosition s.writer ≤ writerPosition s'.writer
  store : ∀ a, (s.store a).Keeps (s'.store a) (Taken s a)
  past : ∀ attempt n, Past attempt n s.writer → Past attempt n s'.writer
  claimed : ∀ id c, (s'.reconcilers id).claimed = some c →
    (s.reconcilers id).claimed = some c ∨ c = s.row

/-- The writer of the row's attempt has got as far as `n`, and what is committed beyond is the
terminal frame of a reconciler. -/
structure Last (s : System cfg) (n : Nat) : Prop where
  writer : Past s.row.attemptCount n s.writer
  claimed : ∀ id c, (s.reconcilers id).claimed = some c → n ≤ c.committedSequence
  row : s.row.committedSequence = n ∨ (s.row.committedSequence = n + 1 ∧ s.row.active = false ∧
    SealedAt (s.store s.row.attemptCount) (n + 1))

section

variable {p : WriterPhase} {w : Writer} {attempt n : Nat}

theorem Past.le (h : Past attempt n w) : attempt ≤ w.attempt := h.elim Nat.le_of_lt fun h => h.1.le

theorem Past.mono {m : Nat} (h : Past attempt n w) (hle : m ≤ n) : Past attempt m w :=
  h.imp_right fun h => ⟨h.1, h.2.imp_right hle.trans⟩

theorem past_of_stopped (h : attempt ≤ w.attempt) (hphase : w.phase = .stopped) :
    Past attempt n w :=
  h.lt_or_eq.imp_right fun heq => ⟨heq, .inl hphase⟩

theorem Past.phase (h : Past attempt n w)
    (hfrom : (w.phase ≠ .stopped ∧ w.phase.unheard = 0) ∨ p = .stopped) :
    Past attempt n { w with phase := p } := by
  rcases hfrom with ⟨hnot, hzero⟩ | hstopped
  · refine h.imp_right fun ⟨heq, hle⟩ => ⟨heq, .inr ?_⟩
    have := hle.resolve_left hnot
    dsimp only
    omega
  · exact past_of_stopped h.le hstopped

theorem Last.le_committed (h : Last s n) : n ≤ s.row.committedSequence := by
  rcases h.row with heq | ⟨heq, -⟩ <;> omega

theorem Last.claimed_of_grows (h : Last s n) (hgrows : Grows s s') (id : Nat) (c : StreamExecution)
    (hc : (s'.reconcilers id).claimed = some c) : n ≤ c.committedSequence := by
  rcases hgrows.claimed id c hc with hold | rfl
  · exact h.claimed id c hold
  · exact h.le_committed

theorem Last.keep (h : Last s n) (hgrows : Grows s s')
    (hattempt : s'.row.attemptCount = s.row.attemptCount)
    (hcommitted : s'.row.committedSequence = s.row.committedSequence)
    (hactive : s'.row.active = true → s.row.active = true) : Last s' n where
  writer := hattempt ▸ hgrows.past _ _ h.writer
  claimed := h.claimed_of_grows hgrows
  row := by
    rw [hcommitted, hattempt]
    refine h.row.imp_right fun ⟨heq, hnot, hsealed⟩ =>
      ⟨heq, ?_, hsealed.keep (hgrows.store _).sealed⟩
    exact Bool.eq_false_iff.mpr fun ha => Bool.eq_false_iff.mp hnot (hactive ha)

end

theorem RowStill.position (h : RowStill cfg row row') : rowPosition row' = rowPosition row := by
  rw [rowPosition, rowPosition, h.attemptCount, h.committedSequence]

theorem position_le_of_sequence_le {attempt n m : Nat} (h : n ≤ m) :
    toLex (attempt, n) ≤ toLex (attempt, m) :=
  Prod.Lex.toLex_le_toLex.mpr (.inr ⟨rfl, h⟩)

/-- Steps that leave the frames and the reconcilers alone. -/
theorem Grows.ofPositions (hrow : rowPosition s.row ≤ rowPosition s'.row)
    (hwriter : writerPosition s.writer ≤ writerPosition s'.writer)
    (hpast : ∀ attempt n, Past attempt n s.writer → Past attempt n s'.writer)
    (hstore : s'.store = s.store) (hrec : s'.reconcilers = s.reconcilers) : Grows s s' where
  row := hrow
  writer := hwriter
  past := hpast
  store a := by rw [hstore]; exact .refl _ _
  claimed id c hc := .inl (by rw [← hrec]; exact hc)

theorem Grows.refl (s : System cfg) : Grows s s := .ofPositions (le_refl _) (le_refl _)
    (fun _ _ => id) rfl rfl

/-- Steps of the writer on its own frames. -/
theorem Grows.ofStore {t : AttemptStore cfg.maxEvents} {removed : StreamRecoveryFrame → Prop}
    {phase : WriterPhase} (hkeep : (s.store s.writer.attempt).Keeps t removed)
    (hremoved : ∀ e, removed e → Taken s s.writer.attempt e)
    (hfrom : (s.writer.phase ≠ .stopped ∧ s.writer.phase.unheard = 0) ∨ phase = .stopped) :
    Grows s ((s.withStore s.writer.attempt t).withPhase phase) where
  row := le_refl _
  writer := le_refl _
  past _ _ h := h.phase hfrom
  store a := by
    have ha := hkeep.update a
    refine ⟨fun e he => (ha.mem e he).imp_right ?_, ha.known, ha.sealed⟩
    intro hr
    rw [hr.1]
    exact hremoved e hr.2
  claimed _ _ hc := .inl hc

theorem writerPosition_accept (h : f.sequence = s.writer.sequence + 1) :
    writerPosition s.writer ≤ writerPosition (s.accept f).writer :=
  position_le_of_sequence_le (by simp only [System.accept]; omega)

theorem WriterPhase.unheard_le (phase : WriterPhase) : phase.unheard ≤ 1 := by
  unfold WriterPhase.unheard
  split <;> decide

theorem Past.accept {attempt n : Nat} (hseq : f.sequence = s.writer.sequence + 1)
    (hnot : s.writer.phase ≠ .stopped) (h : Past attempt n s.writer) :
    Past attempt n (s.accept f).writer := by
  refine h.imp_right fun ⟨heq, hle⟩ => ⟨heq, .inr ?_⟩
  have := hle.resolve_left hnot
  have := s.writer.phase.unheard_le
  dsimp only [System.accept]
  omega

/-! ## Every step keeps the invariant -/

theorem writerOk_accept (row : StreamExecution) (store : Nat → AttemptStore cfg.maxEvents)
    (f : StreamRecoveryFrame) : WriterOk row store (s.accept f).writer := by
  simp only [System.accept, WriterOk]
  cases f.terminal <;> trivial

theorem accept_phase :
    (s.accept f).writer.phase ≠ .rotated ∧ (s.accept f).writer.phase ≠ .stopped := by
  simp only [System.accept]
  cases f.terminal <;> decide

theorem Held.not_of_inactive (h : row.active = false) : ¬Held cfg row :=
  fun hheld => by rw [hheld.1] at h; cases h

/-- A step keeps the invariant, and nothing goes back. -/
structure Goes (s s' : System cfg) : Prop where
  inv : Inv s'
  grows : Grows s s'
  last : ∀ n, Last s n → ∃ m, Last s' m

theorem Goes.still (hrow : RowStill cfg s.row s'.row) (hinv : Inv s') (hgrows : Grows s s') :
    Goes s s' :=
  ⟨hinv, hgrows, fun n hn =>
    ⟨n, hn.keep hgrows hrow.attemptCount hrow.committedSequence hrow.active⟩⟩

section

variable (h : Inv s) (now : Int) (fault : Fault)

include h

/-- Steps on which the row is still. -/
theorem Inv.still
    (hrow : RowStill cfg s.row s'.row) (hstore : ∀ a, (s.store a).Keeps (s'.store a) (removed a))
    (hrec : ∀ id, s'.reconcilers id = s.reconcilers id ∨
      (RecOk s'.row s'.store (s'.reconcilers id) ∧ (Held cfg s'.row → s'.reconcilers id = .idle)))
    (hattempt : s.writer.attempt ≤ s'.writer.attempt) (hrotated : s'.writer.phase = .rotated →
      s.writer.phase = .rotated ∨ s.writer.attempt < s'.writer.attempt)
    (hstopped : s.writer.phase = .stopped → s'.writer.phase = .stopped)
    (hwriter : WriterOk s'.row s'.store s'.writer) : Inv s' where
  attempts := by rw [hrow.publicAttempt, hrow.attemptCount]; exact h.attempts
  attempt_le := by rw [hrow.attemptCount]; exact h.attempt_le.trans hattempt
  rotated hr := by
    have hle := h.attempt_le
    rw [hrow.attemptCount]
    rcases hrotated hr with hold | hlt
    · exact (h.rotated hold).trans_le hattempt
    · omega
  idle_of_held hheld id := by
    rcases hrec id with hsame | ⟨-, hidle⟩
    · rw [hsame]
      exact h.idle_of_held (hrow.held hheld) id
    · exact hidle hheld
  reconciler id := by
    rcases hrec id with hsame | ⟨hok, -⟩
    · rw [hsame]
      exact (h.reconciler id).imp (fun _ => SnapOk.still hrow) hstore
    · exact hok
  writer := hwriter
  terminal := by
    rw [hrow.terminalSequence, hrow.attemptCount]
    exact h.terminal.imp id (Or.imp hstopped fun hs => hs.keep (hstore _).sealed)

theorem Inv.storeStep {t : AttemptStore cfg.maxEvents} {removed : StreamRecoveryFrame → Prop}
    {phase : WriterPhase} (hkeep : (s.store s.writer.attempt).Keeps t removed)
    (hremoved : ∀ e, removed e → Taken s s.writer.attempt e)
    (hfrom : (s.writer.phase ≠ .stopped ∧ s.writer.phase.unheard = 0) ∨ phase = .stopped)
    (hrotated : phase ≠ .rotated) (hwriter : WriterOk s.row
      (s.withStore s.writer.attempt t).store { s.writer with phase := phase }) :
    Goes s ((s.withStore s.writer.attempt t).withPhase phase) :=
  .still (.refl _) (h.still (.refl _) (fun a => hkeep.update a) (fun _ => .inl rfl) (le_refl _)
    (fun hr => absurd hr hrotated) (fun hs => hfrom.resolve_left fun hne => hne.1 hs) hwriter)
    (.ofStore hkeep hremoved hfrom)

theorem Inv.phaseStep {phase : WriterPhase} (published : Nat)
    (hfrom : (s.writer.phase ≠ .stopped ∧ s.writer.phase.unheard = 0) ∨ phase = .stopped)
    (hrotated : phase ≠ .rotated)
    (hwriter : WriterOk s.row s.store { s.writer with phase := phase }) :
    Goes s ({ s with published := published }.withPhase phase) :=
  .still (.refl _) (h.still (.refl _) (fun _ => .refl _ fun _ => False) (fun _ => .inl rfl)
    (le_refl _) (fun hr => absurd hr hrotated) (fun hs => hfrom.resolve_left fun hne => hne.1 hs)
    hwriter) (.ofPositions (le_refl _) (le_refl _) (fun _ _ hp => hp.phase hfrom) rfl rfl)

/-- Steps of a worker that holds the lease: no reconciler is at work. -/
theorem Inv.leasedStep (hheld : Held cfg s.row) (hrec : s'.reconcilers = s.reconcilers)
    (hattempts : s'.row.publicAttempt = s'.row.attemptCount) (hrotated : s'.writer.phase ≠ .rotated)
    (hwriter : WriterOk s'.row s'.store s'.writer)
    (hterminal : s'.row.terminalSequence = 0 ∨ s'.writer.phase = .stopped ∨
      SealedAt (s'.store s'.row.attemptCount) s'.row.terminalSequence)
    (hlast : Past s'.row.attemptCount s'.row.committedSequence s'.writer) (hgrows : Grows s s') :
    Goes s s' where
  inv := {
    attempts := hattempts
    attempt_le := hlast.le
    rotated := fun hr => absurd hr hrotated
    idle_of_held := fun _ id => by rw [hrec]; exact h.idle_of_held hheld id
    reconciler := fun id => by rw [hrec, h.idle_of_held hheld id]; trivial
    writer := hwriter
    terminal := hterminal }
  grows := hgrows
  last _ _ := by
    refine ⟨_, hlast, fun id c hc => ?_, .inl rfl⟩
    rw [hrec, h.idle_of_held hheld id] at hc
    cases hc

theorem Goes.refl : Goes s s := .still (.refl _) h (.refl s)

theorem append_goes (piece : List Char) (token : String) (full : Bool) (fault : Fault) :
    Goes s (appendStep piece token full fault s) := by
  rw [appendStep]
  split
  case h_2 => exact .refl h
  next hphase =>
  have hspec := AttemptStore.appendFrame_spec (nextFrame s.writer piece token) full
    (s.store s.writer.attempt)
  have hkeep := fault.call_keeps hspec.1
  split
  next f t hcall =>
    rw [hcall] at hkeep
    obtain ⟨hans, ht⟩ := Fault.call_answer (congrArg Prod.fst hcall)
    rw [hcall] at ht
    dsimp only at ht
    refine h.storeStep hkeep (fun e he => he.elim) (.inl (by simp [hphase, WriterPhase.unheard]))
      (by simp) ?_
    rcases hspec.2 with ⟨-, err, herr⟩ | ⟨f', hf', hseq, -, -, hentries⟩
    · rw [herr] at hans; cases hans
    rw [hf'] at hans
    cases hans
    refine ⟨hseq, fun _ => .inl ?_⟩
    change f ∈ (Function.update s.store s.writer.attempt t s.writer.attempt).entries
    rw [Function.update_self, ht, hentries]
    exact List.mem_append_right _ (List.mem_singleton_self f)
  next t _ hcall =>
    rw [hcall] at hkeep
    exact h.storeStep hkeep (fun e he => he.elim) (.inr rfl) (by simp) trivial

/-- The frame that waits for its commit is the next one, and it is there unless it is `Gone`. -/
theorem Inv.pending (hp : s.writer.phase = .appended f ∨ ∃ l, s.writer.phase = .checking f l) :
    f.sequence = s.writer.sequence + 1 ∧ (s.writer.attempt = s.row.attemptCount →
      f ∈ (s.store s.writer.attempt).entries ∨ Gone cfg s.row f) := by
  have hw := h.writer
  rcases hp with hp | ⟨l, hp⟩ <;> rw [WriterOk, hp] at hw <;> exact hw

theorem commit_goes : Goes s (commitStep now fault s) := by
  rw [commitStep]
  split
  case h_2 => exact .refl h
  next f hphase =>
  obtain ⟨hseq, hmem⟩ := h.pending (.inl hphase)
  have hnot : s.writer.phase ≠ .stopped := by simp [hphase]
  have hfrom : s.writer.phase ≠ .stopped ∧ s.writer.phase.unheard = 0 := ⟨hnot, by rw [hphase]; rfl⟩
  have hterminal := h.terminal.imp id fun ht => ht.resolve_left hnot
  -- The row is as it was, and the frame is still in the hands of the writer.
  have hsame : ∀ l, Goes s ({ s with row := s.row }.withPhase (.checking f l)) := fun l =>
    h.phaseStep _ (.inl hfrom) (by simp) ⟨hseq, hmem⟩
  rcases fault.update_cases (StreamExecution.updateSequence cfg.worker s.writer.attempt f.sequence
    now) s.row with he | he | ⟨row', hup, he | he⟩ <;> simp only [he]
  · exact hsame true
  · exact hsame false
  · obtain ⟨hheld, hin, hlt, rfl⟩ := updateSequence_spec hup
    exact h.leasedStep hheld rfl h.attempts accept_phase.1 (writerOk_accept _ _ f)
      (hterminal.imp id .inr) (.inr ⟨(of_decide_eq_true hin).2, .inr (Nat.le_add_right _ _)⟩)
      (.ofPositions (position_le_of_sequence_le (by dsimp only [System.accept]; omega))
        (writerPosition_accept hseq) (fun _ _ => .accept hseq hnot) rfl rfl)
  · obtain ⟨hheld, hin, hlt, rfl⟩ := updateSequence_spec hup
    refine h.leasedStep hheld rfl h.attempts (fun hr => by cases hr) ⟨hseq, fun ha => .inl ?_⟩
      (hterminal.imp id .inr) (.inr ⟨(of_decide_eq_true hin).2, .inr hseq.le⟩)
      (.ofPositions (position_le_of_sequence_le (by dsimp only [System.withPhase]; omega))
        (le_refl _) (fun _ _ hp => hp.phase (.inl hfrom)) rfl rfl)
    exact (hmem ha).resolve_right fun hgone => hgone.2.1 hheld

theorem check_goes (fault : Bool) : Goes s (checkStep fault s) := by
  rw [checkStep]
  split
  case h_2 => exact .refl h
  next f leaseLost hphase =>
  have hseq := (h.pending (.inr ⟨leaseLost, hphase⟩)).1
  have hnot : s.writer.phase ≠ .stopped := by simp [hphase]
  have hstop : Goes s (s.withPhase .stopped) := h.phaseStep _ (.inr rfl) (by simp) trivial
  split
  · exact hstop
  split
  · exact .still (.refl _) (h.still (.refl _) (fun _ => .refl _ fun _ => False) (fun _ => .inl rfl)
      (le_refl _) (fun hr => absurd hr accept_phase.1) (fun hs => absurd hs hnot)
      (writerOk_accept _ _ f))
      (.ofPositions (le_refl _) (writerPosition_accept hseq) (fun _ _ => .accept hseq hnot) rfl rfl)
  split
  next hlost =>
    exact h.phaseStep _ (.inl ⟨hnot, by rw [hphase, hlost]; rfl⟩) (by simp) hseq
  · exact hstop

theorem rollback_goes : Goes s (rollbackStep fault s) := by
  rw [rollbackStep]
  split
  case h_2 => exact .refl h
  next f hphase =>
  have hkeep := fault.call_keeps (AttemptStore.rollbackFrame_spec f (s.store s.writer.attempt)).1
  have hremoved : ∀ e : StreamRecoveryFrame, e.redisId = f.redisId → Taken s s.writer.attempt e :=
    fun e he => .inl ⟨f, hphase, rfl, he⟩
  split
  next t hcall =>
    rw [hcall] at hkeep
    exact h.storeStep hkeep hremoved (.inl (by simp [hphase, WriterPhase.unheard]))
      (by simp) trivial
  next t _ hcall =>
    rw [hcall] at hkeep
    exact h.storeStep hkeep hremoved (.inr rfl) (by simp) trivial

theorem rotate_goes (attempt : Nat) : Goes s (rotateStep attempt s) := by
  rw [rotateStep]
  have hnext : s.writer.phase ≠ .stopped → Goes s (if s.writer.attempt < attempt then
      { s with writer := ⟨attempt, 0, .rotated⟩ } else s) := by
    intro hnot
    split
    next hlt =>
      have hkeep : ∀ a, (s.store a).Keeps (s.store a) (fun _ => False) := fun a => .refl _ _
      exact .still (.refl _) (h.still (.refl _) hkeep (fun _ => .inl rfl) hlt.le
        (fun _ => .inr hlt) (fun hs => absurd hs hnot) trivial)
        (.ofPositions (le_refl _) (Prod.Lex.toLex_le_toLex.mpr (.inl hlt))
          (fun _ _ hp => .inl (hp.le.trans_lt hlt)) rfl rfl)
    · exact .refl h
  split
  next hp => exact hnext (by simp [hp])
  next hp => exact hnext (by simp [hp])
  next hp => exact hnext (by simp [hp])
  · exact .refl h

theorem start_goes : Goes s (startStep now fault s) := by
  rw [startStep]
  split
  case h_2 => exact .refl h
  next hphase =>
  have hfrom : s.writer.phase ≠ .stopped ∧ s.writer.phase.unheard = 0 := by
    simp [hphase, WriterPhase.unheard]
  have hsame : Goes s ({ s with row := s.row }.withPhase .ready) :=
    h.phaseStep _ (.inl hfrom) (by simp) trivial
  have hdone : ∀ {row'} (_ : s.row.startAttempt cfg.worker s.writer.attempt now = some row')
      (phase : WriterPhase) (_ : phase = .started ∨ phase = .ready),
      Goes s ({ s with row := row' }.withPhase phase) := by
    intro row' hup phase hnext
    obtain ⟨hheld, hpublic, hcount, hterm, hzero⟩ := startAttempt_spec hup
    refine h.leasedStep hheld rfl (hpublic.trans hcount.symm) ?_ ?_ (.inl hterm)
      (.inr ⟨hcount, .inr (hzero.le.trans (Nat.zero_le _))⟩)
      (.ofPositions ?_ (le_refl _) (fun _ _ hp => hp.phase (.inl hfrom)) rfl rfl)
    · rcases hnext with rfl | rfl <;> intro hr <;> cases hr
    · rcases hnext with rfl | rfl <;> trivial
    · -- The writer has rotated, so the row moves to a later attempt.
      refine Prod.Lex.toLex_le_toLex.mpr (.inl ?_)
      show s.row.attemptCount < row'.attemptCount
      rw [hcount]
      exact h.rotated hphase
  rcases fault.update_cases (StreamExecution.startAttempt cfg.worker s.writer.attempt now) s.row
    with he | he | ⟨row', hup, he | he⟩ <;> simp only [he]
  · exact hsame
  · exact hsame
  · exact hdone hup .started (.inl rfl)
  · exact hdone hup .ready (.inr rfl)

theorem publish_goes : Goes s (publishStep fault s) := by
  rw [publishStep]
  split
  case h_2 => exact .refl h
  next hphase =>
    exact h.phaseStep _ (.inl (by simp [hphase, WriterPhase.unheard])) (by simp) trivial

theorem finish_goes (status : StreamExecutionStatus) (error : String) (now : Int)
    (fault : Fault) : Goes s (finishStep status error now fault s) := by
  have hend : Goes s ({ s with row := (fault.call (updateRow (StreamExecution.finish cfg.worker
      s.writer.attempt status s.writer.sequence error now)) s.row).2 }.withPhase .stopped) := by
    have hsame : Goes s ({ s with row := s.row }.withPhase .stopped) :=
      h.phaseStep _ (.inr rfl) (by simp) trivial
    have hdone : ∀ {row'} (_ : s.row.finish cfg.worker s.writer.attempt status s.writer.sequence
        error now = some row'), Goes s ({ s with row := row' }.withPhase .stopped) := by
      intro row' hup
      obtain ⟨hheld, -, hpublic, hcount, hcommitted⟩ := finish_spec hup
      refine h.leasedStep hheld rfl (hpublic.trans (h.attempts.trans hcount.symm))
        (fun hr => by cases hr) trivial (.inr (.inl rfl))
        (past_of_stopped (hcount.le.trans h.attempt_le) rfl)
        (.ofPositions ?_ (le_refl _) (fun _ _ hp => hp.phase (.inr rfl)) rfl rfl)
      show rowPosition s.row ≤ rowPosition row'
      rw [rowPosition, rowPosition, hcount, hcommitted]
    rcases fault.update_cases (StreamExecution.finish cfg.worker s.writer.attempt status
      s.writer.sequence error now) s.row with he | he | ⟨row', hup, he | he⟩ <;> simp only [he]
    · exact hsame
    · exact hsame
    · exact hdone hup
    · exact hdone hup
  rw [finishStep]
  split
  · exact hend
  · exact hend
  · exact hend
  · exact hend
  · exact .refl h

/-- Renewals and cancellations. -/
theorem row_goes (hstill : ∀ row', update s.row = some row' → RowStill cfg s.row row') :
    Goes s { s with row := (updateRow update s.row).2 } := by
  rcases updateRow_cases update s.row with hu | ⟨row', hup, hu⟩
  · rw [hu]
    exact .refl h
  have hkeep : ∀ a, (s.store a).Keeps (s.store a) (fun _ => False) := fun a => .refl _ _
  have hrow := hstill row' hup
  rw [hu]
  exact .still hrow (h.still hrow hkeep (fun _ => .inl rfl) (Nat.le_refl _) .inl id
    (h.writer.still hrow hkeep fun _ _ hfalse => hfalse.elim))
    (.ofPositions hrow.position.ge (le_refl _) (fun _ _ => id) rfl rfl)

theorem inv_finishReconciliation {id : Nat} {c : StreamExecution}
    {out : Resolution} {now : Int} (hp : s.reconcilers id = .finish c out)
    (hup : s.row.finishReconciliation c.lockedBy c.publicAttempt out.status c.committedSequence
      out.terminalSequence out.error now = some row') :
    Inv { s with row := row', reconcilers := Function.update s.reconcilers id .idle } := by
  have hok := h.reconciler id
  rw [hp] at hok
  obtain ⟨hsnap, ⟨-, hout⟩, hsealed⟩ := hok
  obtain ⟨hactive, hcommitted, hle, hdone, hpublic, hcount, hnew, hterm⟩ :=
    finishReconciliation_spec hup
  have hkeep : ∀ a, (s.store a).Keeps (s.store a) (fun _ => False) := fun a => .refl _ _
  refine ⟨hpublic.trans (h.attempts.trans hcount.symm), hcount.le.trans h.attempt_le,
    fun hr => hcount.le.trans_lt (h.rotated hr),
    fun hheld => absurd hheld (Held.not_of_inactive hdone), ?_, ?_, ?_⟩
  · intro j
    dsimp only
    rcases eq_or_ne j id with rfl | hj
    · rw [Function.update_self]
      trivial
    rw [Function.update_of_ne hj]
    refine (h.reconciler j).imp (fun d hd => ⟨hd.attempts, hd.attemptCount.trans hcount.symm,
      ?_, ?_⟩) hkeep
    · intro ha
      rw [hdone] at ha; cases ha
    · have := hd.active hactive
      omega
  · refine h.writer.imp hcount fun f _ hf => hf.imp_right ?_
    intro hgone
    obtain ⟨hnterm, -, hseq⟩ := hgone
    refine ⟨hnterm, Held.not_of_inactive hdone, ?_⟩
    rcases hseq with hseq | ⟨hinactive, -⟩
    · rw [hnew, hterm]
      rcases Nat.lt_or_ge out.terminalSequence f.sequence with hlt | hge
      · exact .inl (by omega)
      · exact .inr ⟨hdone, by omega⟩
    · rw [hactive] at hinactive; cases hinactive
  · rw [hterm, hcount]
    rcases Nat.eq_zero_or_pos out.terminalSequence with hzero | hpos
    · exact .inl hzero
    · refine .inr (.inr ?_)
      rw [← hsnap.attemptCount, ← hsnap.attempts]
      exact hsealed hpos

theorem reconcile_goes (id : Nat) (env : ReconcileEnv) : Goes s (step s (.reconcile id env)) := by
  have hheld : s.reconcilers id ≠ .idle → ¬Held cfg s.row :=
    fun hne hh => hne (h.idle_of_held hh id)
  by_cases hlast : ∃ c out, s.reconcilers id = .finish c out
  · obtain ⟨c, out, hp⟩ := hlast
    have hclaimed : ∀ j d, (Function.update s.reconcilers id .idle j).claimed = some d →
        (s.reconcilers j).claimed = some d ∨ d = s.row := by
      intro j d hd
      rcases eq_or_ne j id with rfl | hj
      · rw [Function.update_self] at hd; cases hd
      · rw [Function.update_of_ne hj] at hd; exact .inl hd
    have hidle : Goes s { s with reconcilers := Function.update s.reconcilers id .idle } := by
      refine .still (.refl _) (h.still (.refl _) (fun a => .refl _ fun _ => False) ?_
        (Nat.le_refl _) .inl (fun hs => hs) h.writer)
        ⟨le_refl _, le_refl _, fun a => .refl _ _, fun _ _ hpast => hpast, hclaimed⟩
      intro j
      dsimp only
      rcases eq_or_ne j id with rfl | hj
      · rw [Function.update_self]
        exact .inr ⟨trivial, fun _ => rfl⟩
      · exact .inl (Function.update_of_ne hj _ _)
    have hdone : ∀ {row'}, s.row.finishReconciliation c.lockedBy c.publicAttempt out.status
        c.committedSequence out.terminalSequence out.error env.now = some row' →
        Goes s { s with row := row', reconcilers := Function.update s.reconcilers id .idle } := by
      intro row' hup
      obtain ⟨hactive, hcommitted, hle, hdone, -, hcount, hnew, -⟩ := finishReconciliation_spec hup
      have hgrows : Grows s
          { s with row := row', reconcilers := Function.update s.reconcilers id .idle } := by
        refine ⟨?_, le_refl _, fun a => .refl _ _, fun _ _ hpast => hpast, hclaimed⟩
        rw [rowPosition, rowPosition, hcount, hnew, hcommitted]
        exact position_le_of_sequence_le hle
      refine ⟨inv_finishReconciliation h hp hup, hgrows, fun n hn =>
        ⟨n, hcount ▸ hn.writer, hn.claimed_of_grows hgrows, ?_⟩⟩
      have hok := h.reconciler id
      rw [hp] at hok
      obtain ⟨hsnap, ⟨-, hout⟩, hsealed⟩ := hok
      have hn : s.row.committedSequence = n :=
        hn.row.resolve_right fun hend => by rw [hactive] at hend; cases hend.2.1
      rcases (show out.terminalSequence = n ∨ out.terminalSequence = n + 1 by omega) with ht | ht
      · exact .inl (hnew.trans ht)
      · refine .inr ⟨hnew.trans ht, hdone, ?_⟩
        rw [ht, hsnap.attempts, hsnap.attemptCount, ← hcount] at hsealed
        exact hsealed (Nat.succ_pos n)
    simp only [step, hp, reconcileStep]
    rcases env.fault.update_cases (StreamExecution.finishReconciliation c.lockedBy c.publicAttempt
      out.status c.committedSequence out.terminalSequence out.error env.now) s.row with
      he | he | ⟨row', hup, he | he⟩ <;> simp only [he]
    · exact hidle
    · exact hidle
    · exact hdone hup
    · exact hdone hup
  · have heffect := reconcileStep_effect env (h.reconciler id) hheld h.attempts
      (fun c out hp => hlast ⟨c, out, hp⟩)
    refine .still heffect.still
      (h.still heffect.still heffect.keeps ?_ (Nat.le_refl _) .inl (fun hs => hs) ?_)
      ⟨heffect.still.position.ge, le_refl _, ?_, fun _ _ hpast => hpast, ?_⟩
    · intro j
      simp only [step]
      rcases eq_or_ne j id with rfl | hj
      · rw [Function.update_self]
        refine .inr ⟨heffect.ok, ?_⟩
        intro hh
        by_contra hne
        exact heffect.held hne hh
      · exact .inl (Function.update_of_ne hj _ _)
    · refine h.writer.still heffect.still heffect.keeps ?_
      intro f hf hremoved
      refine hremoved.gone (h.reconciler id) (hheld ?_) hf
      obtain ⟨c, g, rounds, hp, -⟩ := hremoved
      rw [hp]
      intro hi; cases hi
    · intro a
      obtain ⟨hmem, hknown, hsealed⟩ := heffect.keeps a
      exact ⟨fun e he => (hmem e he).imp_right fun hr => .inr ⟨id, hr⟩, hknown, hsealed⟩
    · intro j d hd
      simp only [step] at hd
      rcases eq_or_ne j id with rfl | hj
      · rw [Function.update_self] at hd; exact heffect.claimed d hd
      · rw [Function.update_of_ne hj] at hd; exact .inl hd

/-- Every action keeps the invariant, and nothing goes back. -/
theorem step_goes (a : Action) : Goes s (step s a) := by
  cases a with
  | append piece token full fault => exact append_goes h piece token full fault
  | commit now fault => exact commit_goes h now fault
  | check fault => exact check_goes h fault
  | rollback fault => exact rollback_goes h fault
  | rotate attempt => exact rotate_goes h attempt
  | start now fault => exact start_goes h now fault
  | publish fault => exact publish_goes h fault
  | finish status error now fault => exact finish_goes h status error now fault
  | renew now lockUntil => exact row_goes h fun _ => renewLease_still
  | cancel userId tokenId => exact row_goes h fun _ => cancelOwned_still
  | reconcile id env => exact reconcile_goes h id env

end

/-- The invariant holds in every state that is reached. -/
theorem inv_run {s₀ : System cfg} (h : Initial s₀) (as : List Action) : Inv (run step s₀ as) :=
  run_invariant_of_step (I := Inv) (fun _ a hs => (step_goes hs a).inv) as (inv_initial h)

theorem last_initial (h : Initial s) : Last s 0 where
  writer := .inr ⟨(of_decide_eq_true h.inAttempt).2, .inr (Nat.zero_le _)⟩
  claimed _ _ _ := Nat.zero_le _
  row := .inl h.committed

theorem last_run {s₀ : System cfg} (h : Initial s₀) (as : List Action) :
    ∃ n, Last (run step s₀ as) n :=
  (run_invariant_of_step (I := fun s => Inv s ∧ ∃ n, Last s n)
    (fun _ a hs => ⟨(step_goes hs.1 a).inv, hs.2.elim (step_goes hs.1 a).last⟩) as
    ⟨inv_initial h, 0, last_initial h⟩).2

end Recovery

end NewApi
