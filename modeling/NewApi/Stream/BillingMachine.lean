import NewApi.Lib.Runs
import NewApi.Model.StreamExecution

/-!
# The billing state of a stream

Any number of workers, reconcilers and cleaners write the row of a stream, by single updates in any
order and at any clock values.

`none`, `reserving` and `reserved` are phase 0, `settling` and `refunding` phase 1, and `settled`,
`refunded` and `uncertain` phase 2. No update lowers the phase and none leaves phase 2. Settling
and refunding are entered from phase 0, so there is one winner among them.
-/

namespace NewApi

open Runs

namespace StreamExecution

/-- One update of the row. -/
inductive RowAction
  | updateBilling (call : BillingCall) (now : Int)
  | giveUpReservation (call : BillingCall) (now : Int)
  | claim (runner : String) (now lockUntil : Int)
  | renewLease (runner : String) (now lockUntil : Int)
  | startAttempt (runner : String) (attempt : Nat) (now : Int)
  | updateSequence (runner : String) (attempt sequence : Nat) (now : Int)
  | finish (runner : String) (attempt : Nat) (status : StreamExecutionStatus)
      (terminalSequence : Nat) (error : String) (now : Int)
  | cancelOwned (userId tokenId : Int)
  | failExpired (observedAttempt : Nat) (now : Int) (error : String)
  | claimExpired (observedAttempt : Nat) (runner : String) (now lockUntil : Int)
  | finishReconciliation (runner : String) (attempt : Nat) (status : StreamExecutionStatus)
      (expectedSequence terminalSequence : Nat) (error : String) (now : Int)
  | commitFailedTerminal (attempt expectedSequence terminalSequence : Nat)
  | deleteExpired (now : Int)

/-- What an update other than the delete does to a row it matches. -/
def RowAction.apply : RowAction → StreamExecution → Option StreamExecution
  | .updateBilling call now => StreamExecution.updateBilling now call.sources call.updates
  | .giveUpReservation call now =>
    StreamExecution.giveUpReservation now call.sources call.updates
  | .claim runner now lockUntil => StreamExecution.claim runner now lockUntil
  | .renewLease runner now lockUntil => StreamExecution.renewLease runner now lockUntil
  | .startAttempt runner attempt now => StreamExecution.startAttempt runner attempt now
  | .updateSequence runner attempt sequence now =>
    StreamExecution.updateSequence runner attempt sequence now
  | .finish runner attempt status terminalSequence error now =>
    StreamExecution.finish runner attempt status terminalSequence error now
  | .cancelOwned userId tokenId => StreamExecution.cancelOwned userId tokenId
  | .failExpired observedAttempt now error =>
    StreamExecution.failExpired observedAttempt now error
  | .claimExpired observedAttempt runner now lockUntil =>
    StreamExecution.claimExpired observedAttempt runner now lockUntil
  | .finishReconciliation runner attempt status expected terminalSequence error now =>
    StreamExecution.finishReconciliation runner attempt status expected terminalSequence error now
  | .commitFailedTerminal attempt expected terminalSequence =>
    StreamExecution.commitFailedTerminal attempt expected terminalSequence
  | .deleteExpired _ => some

variable (s : Option StreamExecution) (a : RowAction)

/-- The row after an action, `none` once it is deleted. -/
def rowStep : Option StreamExecution :=
  s.bind fun row =>
    match a with
    | .deleteExpired now => row.deleteExpired now
    | a => some ((a.apply row).getD row)

/-! ## Phases -/

def phase : StreamBillingStatus → Nat
  | .none | .reserving | .reserved => 0
  | .settling | .refunding => 1
  | .settled | .refunded | .uncertain => 2

/-- The billing state stays, or it leaves a phase below 2 for no lower one. -/
def Moves (b b' : StreamBillingStatus) : Prop := b' = b ∨ (phase b < 2 ∧ phase b ≤ phase b')

instance (b b' : StreamBillingStatus) : Decidable (Moves b b') := instDecidableOr

variable {b : StreamBillingStatus} {row' : StreamExecution}

theorem Moves.phase_le {b' : StreamBillingStatus} (h : Moves b b') : phase b ≤ phase b' := by
  rcases h with rfl | ⟨_, hle⟩
  · exact Nat.le_refl _
  · exact hle

theorem Moves.final {b' : StreamBillingStatus} (h : Moves b b') (hb : phase b = 2) : b' = b := by
  rcases h with he | ⟨hlt, _⟩
  · exact he
  · omega

theorem giveUpBilling_moves (b : StreamBillingStatus) : Moves b (giveUpBilling b) := by
  cases b <;> decide

/-- Only `uncertain` can be a source of phase 2, and the update excludes it. -/
theorem BillingCall.moves (call : BillingCall) (hb : b ∈ call.sources)
    (hu : call.updates.billingStatus = .uncertain ∨ b ≠ .uncertain) :
    Moves b call.updates.billingStatus := by
  cases call <;> cases b <;> simp_all [BillingCall.sources, BillingCall.updates, Moves, phase]

variable {row : StreamExecution}

theorem updateBilling_moves {call : BillingCall} {now : Int}
    (h : row.updateBilling now call.sources call.updates = some row') :
    Moves row.billingStatus row'.billingStatus := by
  rw [updateBilling] at h
  split at h
  next hmatch =>
    cases h
    exact call.moves hmatch.1 hmatch.2.1
  · cases h

theorem giveUpReservation_moves {call : BillingCall} {now : Int}
    (h : row.giveUpReservation now call.sources call.updates = some row') :
    Moves row.billingStatus row'.billingStatus := by
  rw [giveUpReservation] at h
  split at h
  next hmatch =>
    obtain ⟨hreserved, hsource, -⟩ := hmatch
    cases h
    show Moves row.billingStatus .uncertain
    cases call <;> cases hb : row.billingStatus <;>
      simp_all [BillingCall.sources, BillingCall.updates, Moves, phase]
  · cases h

theorem RowAction.apply_moves {a : RowAction} (h : a.apply row = some row') :
    Moves row.billingStatus row'.billingStatus := by
  cases a with
  | updateBilling call now => exact updateBilling_moves h
  | giveUpReservation call now => exact giveUpReservation_moves h
  | failExpired | claimExpired =>
    simp only [RowAction.apply, StreamExecution.failExpired, StreamExecution.claimExpired] at h
    split at h <;> cases h
    exact giveUpBilling_moves _
  | finishReconciliation =>
    simp only [RowAction.apply, StreamExecution.finishReconciliation] at h
    split at h <;> cases h
    exact giveUpBilling_moves _
  | deleteExpired now => cases h; exact .inl rfl
  | claim | renewLease | startAttempt | updateSequence | finish | cancelOwned |
    commitFailedTerminal =>
      simp only [RowAction.apply, StreamExecution.claim, StreamExecution.renewLease,
        StreamExecution.startAttempt, StreamExecution.updateSequence, StreamExecution.finish,
        StreamExecution.cancelOwned, StreamExecution.commitFailedTerminal] at h
      split at h <;> cases h
      exact .inl rfl

theorem closeExpired_billingStatus (row : StreamExecution) :
    row.closeExpired.billingStatus = giveUpBilling row.billingStatus := by
  rw [closeExpired]
  split <;> rfl

theorem deleteExpired_moves (now : Int) (row : StreamExecution) :
    (∀ row', row.deleteExpired now = some row' → Moves row.billingStatus row'.billingStatus) ∧
      (row.billingStatus = .uncertain → row.deleteExpired now ≠ none) := by
  rw [deleteExpired]
  split
  · have hclosed := closeExpired_billingStatus row
    split
    · refine ⟨?_, fun _ => by simp⟩
      intro row' h
      cases h
      rw [hclosed]
      exact giveUpBilling_moves _
    next hkept =>
      refine ⟨fun row' h => (by cases h), fun hu => absurd ?_ hkept⟩
      rw [hu] at hclosed
      simp [keptExpired, hclosed, giveUpBilling, unresolved]
  · refine ⟨?_, fun _ => by simp⟩
    intro row' h
    cases h
    exact .inl rfl

/-! ## Every run -/

/-- The later state of a row: what was settled, refunded or uncertain still is,
and what was uncertain is not deleted. -/
structure Kept (s t : Option StreamExecution) : Prop where
  billing : ∀ row row', s = some row → t = some row' → Moves row.billingStatus row'.billingStatus
  exists_of_uncertain : ∀ row, s = some row → row.billingStatus = .uncertain → t ≠ none
  deleted : s = none → t = none

theorem Kept.refl : Kept s s where
  billing := by rintro row row' rfl h; cases h; exact .inl rfl
  exists_of_uncertain := by rintro row rfl _; simp
  deleted h := h

theorem Moves.trans {a c : StreamBillingStatus} (h : Moves a b) (h' : Moves b c) : Moves a c := by
  rcases h' with rfl | ⟨hlt, hle⟩
  · exact h
  · have := h.phase_le
    exact .inr ⟨by omega, by omega⟩

theorem Kept.trans {s t u : Option StreamExecution} (h : Kept s t) (h' : Kept t u) : Kept s u := by
  refine ⟨?_, ?_, fun hs => h'.deleted (h.deleted hs)⟩
  · intro row row'' hs hu
    cases t with
    | none => exact absurd (h'.deleted rfl) (by simp [hu])
    | some row' => exact (h.billing row row' hs rfl).trans (h'.billing row' row'' rfl hu)
  · intro row hs hun hu
    cases t with
    | none => exact h.exists_of_uncertain row hs hun rfl
    | some row' =>
      have he : row'.billingStatus = .uncertain := by
        rw [(h.billing row row' hs rfl).final (by rw [hun]; rfl), hun]
      exact h'.exists_of_uncertain row' rfl he hu

theorem rowStep_kept : Kept s (rowStep s a) := by
  cases s with
  | none => exact Kept.refl none
  | some row =>
    by_cases hd : ∃ now, a = .deleteExpired now
    · obtain ⟨now, rfl⟩ := hd
      obtain ⟨hmoves, hex⟩ := deleteExpired_moves now row
      refine ⟨?_, ?_, fun h => by cases h⟩
      · intro r r' hr
        cases hr; exact hmoves r'
      · intro r hr
        cases hr; exact hex
    · have hstep : rowStep (some row) a = some ((a.apply row).getD row) := by
        cases a with
        | deleteExpired now => exact absurd ⟨now, rfl⟩ hd
        | _ => rfl
      rw [hstep]
      refine ⟨?_, fun r hr _ => by simp, fun h => by cases h⟩
      intro r r' hr hr'
      cases hr
      cases hr'
      cases ha : a.apply row with
      | none => exact .inl rfl
      | some row' => exact RowAction.apply_moves ha

theorem run_kept (as : List RowAction) : Kept s (run rowStep s as) :=
  run_rel Kept.refl Kept.trans rowStep_kept s as

/-- The action is a call that wins the transition into `target`. -/
def wins (target : StreamBillingStatus) (s : Option StreamExecution) (a : RowAction) : Bool :=
  match s, a with
  | some row, .updateBilling call now =>
    decide (call.updates.billingStatus = target) &&
      (row.updateBilling now call.sources call.updates).isSome
  | _, _ => false

/-- The phase of a row, above all others once it is deleted. -/
def rowPhase : Nat := s.elim 3 fun row => phase row.billingStatus

theorem rowPhase_mono : rowPhase s ≤ rowPhase (rowStep s a) := by
  have h := rowStep_kept s a
  cases s with
  | none => exact Nat.le_refl _
  | some row =>
    cases ht : rowStep (some row) a with
    | none =>
      show phase row.billingStatus ≤ 3
      cases row.billingStatus <;> decide
    | some row' => exact (h.billing row row' rfl ht).phase_le

theorem wins_phase {target : StreamBillingStatus} {s : Option StreamExecution} {a : RowAction}
    (htarget : phase target = 1) (h : wins target s a = true) :
    rowPhase s < 1 ∧ 1 ≤ rowPhase (rowStep s a) := by
  unfold wins at h
  split at h
  next row call now =>
    simp only [Bool.and_eq_true, decide_eq_true_eq] at h
    obtain ⟨rfl, hwon⟩ := h
    obtain ⟨row', hrow'⟩ := Option.isSome_iff_exists.mp hwon
    have hto : phase row'.billingStatus = 1 := by
      rw [updateBilling] at hrow'
      split at hrow' <;> cases hrow'
      exact htarget
    constructor
    · rw [updateBilling] at hrow'
      split at hrow'
      next hmatch =>
        obtain ⟨hsource, hne, -⟩ := hmatch
        show phase row.billingStatus < 1
        cases call <;> cases hb : row.billingStatus <;>
          simp_all [BillingCall.sources, BillingCall.updates, phase]
      · cases hrow'
    · have hstep : rowStep (some row) (.updateBilling call now) = some row' := by
        simp [rowStep, RowAction.apply, hrow']
      rw [hstep]
      show 1 ≤ phase row'.billingStatus
      omega
  · cases h

/-- In every run of the updates of a row, whoever makes them and whatever the
clocks say: a row that is settled, refunded or uncertain stays so as long as it
exists, an uncertain row is never deleted, and there is at most one won
transition into settling or refunding. -/
theorem billing_final_and_won_once (s : Option StreamExecution) (as bs : List RowAction) :
    (∀ row, run rowStep s as = some row →
      row.billingStatus = .settled ∨ row.billingStatus = .refunded ∨
        row.billingStatus = .uncertain →
      (∀ row', run rowStep s (as ++ bs) = some row' → row'.billingStatus = row.billingStatus) ∧
      (row.billingStatus = .uncertain → run rowStep s (as ++ bs) ≠ none)) ∧
    tally rowStep (wins .settling) s as ≤ 1 ∧
    tally rowStep (wins .refunding) s as ≤ 1 ∧
    ¬(0 < tally rowStep (wins .settling) s as ∧ 0 < tally rowStep (wins .refunding) s as) := by
  have hdisj : ∀ s a, wins .settling s a = true → wins .refunding s a = false := by
    intro s a h
    unfold wins at h ⊢
    split at h
    · simp_all
    · cases h
  have heither : ∀ s a, (wins .settling s a || wins .refunding s a) = true →
      rowPhase s < 1 ∧ 1 ≤ rowPhase (rowStep s a) := by
    intro s a h
    rcases Bool.or_eq_true_iff.mp h with h | h <;> exact wins_phase rfl h
  have hone := tally_le_one rowPhase_mono (fun s a h => (heither s a h).1)
    (fun s a h => (heither s a h).2) s as
  rw [tally_or hdisj] at hone
  refine ⟨?_, by omega, by omega, by omega⟩
  intro row hrow hfinal
  have hkept := run_kept (run rowStep s as) bs
  rw [← run_append] at hkept
  refine ⟨fun row' hrow' => (hkept.billing row row' hrow hrow').final ?_,
    hkept.exists_of_uncertain row hrow⟩
  rcases hfinal with h | h | h <;> rw [h] <;> rfl

end StreamExecution

end NewApi
