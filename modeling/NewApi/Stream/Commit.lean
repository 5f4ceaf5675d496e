import NewApi.Stream.Invariant

/-!
# Committed frames

`commitStreamRecoveryFrame` reports a frame as committed when its update of the row went through, or
when it failed and the row shows a committed sequence that is high enough.

In the second case a reconciler may have moved the committed sequence, only to the terminal
sequence `T` and only after it made sure that the frame at `T` is terminal. So the frame of the
writer is gone when `T` is its sequence and it is not terminal itself, and it is safe otherwise.
-/

namespace NewApi

namespace Recovery

open Runs

variable {cfg : Config}

/-! ## Frames that stay -/

/-- Who works from this row does not remove the frame. -/
def Covered (attempt : Nat) (f : StreamRecoveryFrame) (row : StreamExecution) : Prop :=
  toLex (attempt, f.sequence) ≤ rowPosition row ∨ (f.terminal = true ∧ attempt ≤ row.attemptCount)

/-- The frame is stored, and every party is past it. -/
structure Kept (attempt : Nat) (f : StreamRecoveryFrame) (s : System cfg) : Prop where
  mem : f ∈ (s.store attempt).entries
  writer : Past attempt f.sequence s.writer ∨ (s.store attempt).Sealed f
  row : Covered attempt f s.row
  claimed : ∀ id c, (s.reconcilers id).claimed = some c → Covered attempt f c

variable {f : StreamRecoveryFrame} {s : System cfg} {a : Action} {attempt : Nat}

theorem Covered.mono {row row' : StreamExecution} (h : Covered attempt f row)
    (hle : rowPosition row ≤ rowPosition row') : Covered attempt f row' := by
  refine h.imp (fun hpos => hpos.trans hle) fun hterm => ⟨hterm.1, hterm.2.trans ?_⟩
  rcases Prod.Lex.toLex_le_toLex.mp hle with hlt | ⟨heq, -⟩
  · exact hlt.le
  · exact heq.le

theorem Covered.not_next {c : StreamExecution} (h : Covered attempt f c)
    (hattempt : attempt = c.attemptCount) (hseq : f.sequence = c.committedSequence + 1)
    (hterm : f.terminal = false) : False := by
  rcases h with hpos | ⟨ht, -⟩
  · rcases Prod.Lex.toLex_le_toLex.mp hpos with hlt | ⟨-, hle⟩
    · dsimp only at hlt; omega
    · dsimp only at hle; omega
  · rw [hterm] at ht; cases ht

theorem Kept.not_taken (hinv : Inv s) (h : Kept attempt f s)
    (hpast : Past attempt f.sequence s.writer) : ¬Taken s attempt f := by
  rintro (⟨g, hphase, hattempt, hid⟩ | ⟨id, hremoves⟩)
  · have hw := hinv.writer
    rw [WriterOk, hphase] at hw
    have hseq : f.sequence = g.sequence := congrArg Prod.fst hid
    rw [Past, hphase] at hpast
    rcases hpast with hlt | ⟨-, hstopped | hle⟩
    · omega
    · cases hstopped
    · dsimp only [WriterPhase.unheard] at hle hw; omega
  · obtain ⟨c, hc, hsnap, hattempt, hseq, hterm⟩ := hremoves.spec (hinv.reconciler id) h.mem
    exact (h.claimed id c hc).not_next (hattempt.trans hsnap.attempts) hseq hterm

theorem kept_step (hinv : Inv s) (h : Kept attempt f s) (a : Action) :
    Kept attempt f (step s a) := by
  have hgrows := (step_goes hinv a).grows
  refine ⟨?_, h.writer.imp (hgrows.past _ _) ((hgrows.store attempt).sealed f),
    h.row.mono hgrows.row, ?_⟩
  · rcases h.writer with hpast | hsealed
    · exact ((hgrows.store attempt).mem f h.mem).resolve_right (h.not_taken hinv hpast)
    · exact ((hgrows.store attempt).sealed f hsealed).mem
  · intro id c hc
    rcases hgrows.claimed id c hc with hold | rfl
    · exact h.claimed id c hold
    · exact h.row

theorem kept_run (hinv : Inv s) (h : Kept attempt f s) (as : List Action) :
    Kept attempt f (run step s as) :=
  (run_invariant_of_step (I := fun t => Inv t ∧ Kept attempt f t)
    (fun _ a ht => ⟨(step_goes ht.1 a).inv, kept_step ht.1 ht.2 a⟩) as ⟨hinv, h⟩).2

/-- A stored frame that the row shows as committed stays. -/
theorem kept_of_committed (hinv : Inv s) {n : Nat} (hlast : Last s n)
    (hmem : f ∈ (s.store s.row.attemptCount).entries)
    (hle : f.sequence ≤ s.row.committedSequence) : Kept s.row.attemptCount f s := by
  have hrow : Covered s.row.attemptCount f s.row := .inl (position_le_of_sequence_le hle)
  rcases Nat.lt_or_ge n f.sequence with hlt | hge
  · -- The frame is the one that a reconciler has sealed.
    obtain ⟨hnext, -, e, he, hseq, hterm⟩ := hlast.row.resolve_left (by omega)
    obtain rfl := AttemptStore.eq_of_sequence_eq he.mem hmem (by omega)
    exact ⟨hmem, .inr he, hrow, fun id c hc =>
      .inr ⟨hterm, ((hinv.reconciler id).snap hc).attemptCount.ge⟩⟩
  · refine ⟨hmem, .inl (hlast.writer.mono hge), hrow, fun id c hc => .inl ?_⟩
    rw [← ((hinv.reconciler id).snap hc).attemptCount]
    exact position_le_of_sequence_le (hge.trans (hlast.claimed id c hc))

theorem sealed_run {e : StreamRecoveryFrame} (hinv : Inv s)
    (h : (s.store attempt).Sealed e) (as : List Action) :
    ((run step s as).store attempt).Sealed e :=
  (run_invariant_of_step (I := fun t : System cfg => Inv t ∧ (t.store attempt).Sealed e)
    (fun _ a ht => ⟨(step_goes ht.1 a).inv,
      ((step_goes ht.1 a).grows.store attempt).sealed e ht.2⟩) as ⟨hinv, h⟩).2

/-! ## What the writer believes committed -/

/-- The frame for which `commitStreamRecoveryFrame` returns nil in this step. -/
def accepts (s : System cfg) : Action → Option StreamRecoveryFrame
  | .commit now fault =>
    match s.writer.phase with
    | .appended f =>
      if (fault.call (updateRow (StreamExecution.updateSequence cfg.worker s.writer.attempt
        f.sequence now)) s.row).1 = some true then some f else none
    | _ => none
  | .check fault =>
    match s.writer.phase with
    | .checking f _ =>
      if fault = false ∧ showsCommitted s.row s.writer.attempt f.sequence then some f else none
    | _ => none
  | _ => none

/-- The row that is read back does not end the stream at the sequence of a frame
that is not terminal. -/
def readBackSound (s : System cfg) : Action → Prop
  | .check _ =>
    match s.writer.phase with
    | .checking f _ => s.row.terminalSequence = f.sequence → f.terminal = true
    | _ => True
  | _ => True

theorem accepts_cases (h : accepts s a = some f) :
    (s.writer.phase = .appended f ∧ readBackSound s a ∧
      ∃ now row', s.row.updateSequence cfg.worker s.writer.attempt f.sequence now = some row' ∧
        step s a = { s with row := row' }.accept f) ∨
    (∃ leaseLost, s.writer.phase = .checking f leaseLost ∧
      (readBackSound s a ↔ (s.row.terminalSequence = f.sequence → f.terminal = true)) ∧
      showsCommitted s.row s.writer.attempt f.sequence = true ∧ step s a = s.accept f) := by
  cases a with simp only [accepts] at h
  | commit now fault =>
    split at h
    case h_2 => cases h
    next g hphase =>
    split at h
    case isFalse => cases h
    next hans =>
    cases h
    refine .inl ⟨hphase, trivial, now, ?_⟩
    simp only [step, commitStep, hphase]
    rcases fault.update_cases (StreamExecution.updateSequence cfg.worker s.writer.attempt
      f.sequence now) s.row with he | he | ⟨row', hup, he | he⟩ <;> rw [he] at hans
    · cases hans
    · cases hans
    · exact ⟨row', hup, by rw [he]⟩
    · cases hans
  | check fault =>
    split at h
    case h_2 => cases h
    next g leaseLost hphase =>
    split at h
    case isFalse => cases h
    next hshows =>
    cases h
    refine .inr ⟨leaseLost, hphase, by simp only [readBackSound, hphase], hshows.2, ?_⟩
    simp only [step, checkStep, hphase, hshows.1, hshows.2, Bool.false_eq_true, if_false, if_true]
  | _ => cases h

theorem past_accept : Past s.writer.attempt f.sequence (s.accept f).writer :=
  .inr ⟨rfl, .inr (Nat.le_add_right _ _)⟩

/-- A frame that is accepted is stored, and every party is past it. -/
theorem kept_of_accepts (hinv : Inv s) (h : accepts s a = some f) (hsound : readBackSound s a) :
    Kept s.writer.attempt f (step s a) := by
  rcases accepts_cases h with ⟨hphase, -, now, row', hup, hstep⟩ |
    ⟨leaseLost, hphase, hiff, hshows, hstep⟩ <;> rw [hstep]
  · obtain ⟨hheld, hin, -, rfl⟩ := updateSequence_spec hup
    simp only [StreamExecution.inAttempt, decide_eq_true_eq] at hin
    have hmem := (hinv.pending (.inl hphase)).2 hin.2.symm
    refine ⟨hmem.resolve_right fun hgone => hgone.2.1 hheld, .inl past_accept, .inl ?_, ?_⟩
    · dsimp only [System.accept, rowPosition]
      rw [hin.2]
    · intro id c hc
      simp only [System.accept, hinv.idle_of_held hheld id] at hc
      cases hc
  · have hterm := hiff.mp hsound
    simp only [showsCommitted, StreamExecution.inAttempt, Bool.and_eq_true,
      decide_eq_true_eq] at hshows
    obtain ⟨⟨-, hin⟩, hle⟩ := hshows
    have hmem := (hinv.pending (.inr ⟨leaseLost, hphase⟩)).2 hin.symm
    refine ⟨hmem.resolve_right ?_, .inl past_accept, .inl ?_, ?_⟩
    · rintro ⟨hnot, -, hnext | ⟨-, hend⟩⟩
      · omega
      · rw [hterm hend] at hnot; cases hnot
    · rw [← hin]
      exact position_le_of_sequence_le hle
    · intro id c hc
      have hsnap := hinv.reconciler id |>.snap hc
      rw [Covered, ← hin, ← hsnap.attemptCount]
      rcases hsnap.committed with heq | ⟨heq, hend⟩
      · exact .inl (position_le_of_sequence_le (by omega))
      · rcases Nat.lt_or_ge c.committedSequence f.sequence with hlt | hge
        · exact .inr ⟨hterm (by omega), le_refl _⟩
        · exact .inl (position_le_of_sequence_le hge)

theorem sealed_of_accepts (hinv : Inv s) (h : accepts s a = some f) (hsound : ¬readBackSound s a) :
    ∃ e, (s.store s.writer.attempt).Sealed e ∧ e.sequence = f.sequence ∧ e ≠ f := by
  rcases accepts_cases h with ⟨-, hyes, -⟩ | ⟨leaseLost, hphase, hiff, hshows, -⟩
  · exact absurd hyes hsound
  rw [hiff, Classical.not_imp] at hsound
  obtain ⟨hend, hterm⟩ := hsound
  have hseq := (hinv.pending (.inr ⟨leaseLost, hphase⟩)).1
  simp only [showsCommitted, StreamExecution.inAttempt, Bool.and_eq_true,
    decide_eq_true_eq] at hshows
  rcases hinv.terminal with hzero | hstop | ⟨e, he, hn, ht⟩
  · omega
  · rw [hphase] at hstop; cases hstop
  · rw [hshows.1.2] at he
    exact ⟨e, he, hn.trans hend, fun heq => hterm (heq ▸ ht)⟩

/-- What the writer believes committed is what the store serves from then on,
exactly when the row it read back does not end the stream at a frame of its own
that is not terminal. -/
theorem committed_frame_served {s₀ : System cfg} (h₀ : Initial s₀) (as bs : List Action)
    {a : Action} {f : StreamRecoveryFrame} (h : accepts (run step s₀ as) a = some f) :
    ((run step s₀ (as ++ a :: bs)).store (run step s₀ as).writer.attempt).find f.sequence = some f ↔
      readBackSound (run step s₀ as) a := by
  have hinv := inv_run h₀ as
  rw [run_append, run_cons]
  constructor
  · intro hfind
    by_contra hsound
    obtain ⟨e, he, hseq, hne⟩ := sealed_of_accepts hinv h hsound
    have hlater := (sealed_run hinv he (a :: bs)).find
    rw [run_cons, hseq, hfind] at hlater
    exact hne (Option.some.inj hlater).symm
  · intro hsound
    have hkept := kept_run (step_goes hinv a).inv (kept_of_accepts hinv h hsound) bs
    exact AttemptStore.find_eq_some.mpr ⟨hkept.mem, rfl⟩

/-! ## Two runs -/

def firstFrame : StreamRecoveryFrame where
  sequence := 1
  data := "id: 1:1\ndata: a\n\n".toList
  terminal := false
  rollbackToken := "t1"
  generation := 1

def firstAppend : Action := .append "data: a\n\n".toList "t1" false .none

theorem committed_frame_served_first :
    accepts (run step freshSystem [firstAppend]) (.commit 1 .none) = some firstFrame ∧
      (((run step freshSystem ([firstAppend] ++ .commit 1 .none :: [.rotate 2])).store
        (run step freshSystem [firstAppend]).writer.attempt).find firstFrame.sequence =
          some firstFrame ↔ readBackSound (run step freshSystem [firstAppend]) (.commit 1 .none)) :=
  ⟨by decide +kernel, committed_frame_served freshSystem_initial [firstAppend] [.rotate 2]
    (by decide +kernel)⟩

/-- A step of the reconciler at 10, when the lease of the worker is over. -/
def takeOver : Action := .reconcile 0 ⟨"reconciler", 1, 10, 20, "t3", false, .none⟩

/-- The worker has appended its second frame. A reconciler takes the stream
over, replaces the frame by its own and ends the stream. Then the update of the
worker fails. -/
def takenOver : List Action :=
  [firstAppend, .commit 1 .none, .append "data: b\n\n".toList "t2" false .none] ++
    List.replicate 12 takeOver ++ [.commit 10 .none]

def secondFrame : StreamRecoveryFrame where
  sequence := 2
  data := "id: 1:2\ndata: b\n\n".toList
  terminal := false
  rollbackToken := "t2"
  generation := 2

def unsafeSecondFrame : StreamRecoveryFrame where
  sequence := 2
  data := "id: 1:2\nevent: error\ndata: STATEFUL_REPLAY_UNSAFE\n\n".toList
  terminal := true
  rollbackToken := "t3"
  generation := 3

/-- The worker is told that its second frame is committed, and the store serves
another one. -/
theorem committed_frame_replaced :
    Initial freshSystem ∧
      accepts (run step freshSystem takenOver) (.check false) = some secondFrame ∧
      ((run step freshSystem (takenOver ++ [.check false])).store
        (run step freshSystem takenOver).writer.attempt).find 2 = some unsafeSecondFrame :=
  ⟨freshSystem_initial, by decide +kernel, by decide +kernel⟩

/-- Along every run the row and the writer never go back, and a sealed frame stays sealed. While
the worker holds the lease, no reconciler is at work. -/
theorem stream_never_goes_back {s₀ : System cfg} (h : Initial s₀) (as bs : List Action) :
    let s := run step s₀ as
    let t := run step s bs
    rowPosition s.row ≤ rowPosition t.row ∧ writerPosition s.writer ≤ writerPosition t.writer ∧
      (∀ attempt e, (s.store attempt).Sealed e → (t.store attempt).Sealed e) ∧
      (Held cfg t.row → ∀ id, t.reconcilers id = .idle) := by
  intro s t
  have hs : Inv s := inv_run h as
  obtain ⟨hinv, hrow, hwriter⟩ := run_invariant_of_step
    (I := fun u => Inv u ∧ rowPosition s.row ≤ rowPosition u.row ∧
      writerPosition s.writer ≤ writerPosition u.writer)
    (fun u a hu => ⟨(step_goes hu.1 a).inv, hu.2.1.trans (step_goes hu.1 a).grows.row,
      hu.2.2.trans (step_goes hu.1 a).grows.writer⟩) bs ⟨hs, le_refl _, le_refl _⟩
  exact ⟨hrow, hwriter, fun _ _ hsealed => sealed_run hs hsealed bs, hinv.idle_of_held⟩

theorem takenOver_never_goes_back :
    rowPosition freshSystem.row ≤ rowPosition (run step freshSystem takenOver).row :=
  (stream_never_goes_back freshSystem_initial [] takenOver).1

end Recovery

end NewApi
