import NewApi.Task.Polling

/-!
# What a polling pass makes of its copy

For each function of a pass: the write compares the status that the copy had, and the quota and
the owner of the funds stay. A copy that is not terminal is not at 100%, if the answer of the
upstream does not say so for a task it calls unfinished (`PollOutcome.honest`). A pass that ends
the task without success asks for a refund of its whole quota, when no usage is reported
(`Passed.refunds`).
-/

namespace NewApi

/-- A task that is not terminal is not at 100%. -/
def Task.Visible (t : Task) : Prop := t.status.terminal = false → t.progress ≠ "100%"

/-- The answer does not report 100% for a task that it calls unfinished, and does
not call a task unfinished that is at 100% already. -/
def PollOutcome.honest (copy : Task) : PollOutcome → Prop
  | .single (.response _ _ (.ok p)) =>
    isNonTerminalPollStatus (.ofText p.info.status) = true →
      (if TaskStatus.ofText p.info.status = .notStart then copy.progress else p.info.progress) ≠
        "100%"
  | .batch (.response _ (.ok (some r))) =>
    isNonTerminalPollStatus (.ofText r.info.status) = true → r.info.reason = "" →
      (if r.info.progress ≠ "" then r.info.progress else copy.progress) ≠ "100%"
  | _ => True

def PollOutcome.noTokens : PollOutcome → Prop
  | .single (.response _ _ (.ok p)) => p.info.totalTokens = 0 ∧ p.info.completionTokens = 0
  | .batch (.response _ (.ok (some r))) => r.info.totalTokens = 0 ∧ r.info.completionTokens = 0
  | _ => True

/-- The adaptor leaves the quota of a completed task alone. -/
def Pricing.noAdjustment (pricing : Pricing) : Prop :=
  ∀ t info, pricing.adjustBillingOnComplete t info ≤ 0

def refundOps (t : Task) : List BillingOp := if t.quota ≠ 0 then [.refund] else []

/-- What every pass has in common. -/
structure Update (copy : Task) (u : PollUpdate) : Prop where
  fromStatus : ∀ status, u.fromStatus = some status → status = copy.status
  quota : u.copy.quota = copy.quota
  executionMode : u.copy.executionMode = copy.executionMode
  subscription : u.copy.isSubscription = copy.isSubscription

def TaskStatus.lost (status : TaskStatus) : Prop := status = .failure ∨ status = .cancelled

/-- A won write that ends the task without success is followed by a refund. -/
def Refunds (copy : Task) (u : PollUpdate) : Prop :=
  u.copy.status.lost → copy.status ≠ u.copy.status → u.fromStatus ≠ none → u.won = refundOps u.copy

/-- A pass under its two conditions: the answer is honest, and reports no tokens. -/
structure Passed (cfg : PollConfig) (copy : Task) (honest noTokens : Prop) (u : PollUpdate) : Prop
    extends Update copy u where
  visible : copy.Visible → honest → u.copy.Visible
  refunds : cfg.pricing.noAdjustment → noTokens → Refunds copy u

section

variable {cfg : PollConfig} {now : Int} {copy : Task} {honest noTokens : Prop}

/-! ## Settlements -/

variable {info : TaskInfo} {t : Task} {fromStatus : TaskStatus}

theorem settleOrRefund_of_lost {pricing : Pricing} {refundable : Bool}
    (hadjust : pricing.noAdjustment) (htokens : info.totalTokens = 0 ∧ info.completionTokens = 0)
    (hlost : t.status.lost) (hrefundable : refundable = true) :
    settleOrRefund pricing refundable t info = refundOps t := by
  have hnot : ¬0 < pricing.adjustBillingOnComplete t info := Int.not_lt.mpr (hadjust t info)
  have hsettle : settleTaskBillingOnComplete pricing t info = (false, []) := by
    rw [settleTaskBillingOnComplete, if_pos (show t.status = .failure ∨ t.status = .cancelled
      from hlost), if_neg hnot, htokens.1, htokens.2]
    simp
  rw [settleOrRefund, hsettle, hrefundable, refundOps]
  simp

/-! ## Failed polls -/

theorem PollUpdate.skip_passed (copy : Task) : Passed cfg copy honest noTokens (.skip copy) :=
  ⟨⟨(fun _ h => by cases h), rfl, rfl, rfl⟩, fun h _ => h, fun _ _ _ _ hwrite => absurd rfl hwrite⟩

theorem failTaskFromPoll_passed (hfrom : fromStatus = copy.status) (reason : String) :
    Passed cfg copy honest noTokens (failTaskFromPoll cfg now copy fromStatus reason) := by
  rw [failTaskFromPoll]
  split
  · exact PollUpdate.skip_passed copy
  · refine ⟨⟨fun _ h => (Option.some.inj h).symm.trans hfrom, rfl, rfl, rfl⟩, ?_, ?_⟩
    · intro _ _ hopen
      cases hopen
    · exact fun hadjust _ hlost _ _ => settleOrRefund_of_lost hadjust ⟨rfl, rfl⟩ hlost rfl

/-- A copy that differs only in its data and its counter of failures. -/
structure Recounted (copy t : Task) : Prop where
  status : t.status = copy.status
  progress : t.progress = copy.progress
  quota : t.quota = copy.quota
  executionMode : t.executionMode = copy.executionMode
  subscription : t.isSubscription = copy.isSubscription

theorem Passed.of_recounted {u : PollUpdate} (h : Recounted copy t)
    (hu : Passed cfg t honest noTokens u) : Passed cfg copy honest noTokens u where
  fromStatus status hs := (hu.fromStatus status hs).trans h.status
  quota := hu.quota.trans h.quota
  executionMode := hu.executionMode.trans h.executionMode
  subscription := hu.subscription.trans h.subscription
  visible hv := hu.visible (by rw [Task.Visible, h.status, h.progress]; exact hv)
  refunds hadjust htokens hlost hne :=
    hu.refunds hadjust htokens hlost (by rw [h.status]; exact hne)

theorem recordPollFailure_passed (failure : PollClass) (statusCode : Nat) (detail : String)
    (hfrom : fromStatus = copy.status) : Passed cfg copy honest noTokens
      (recordPollFailure cfg now copy fromStatus failure statusCode detail) := by
  simp only [recordPollFailure]
  split
  · exact PollUpdate.skip_passed copy
  split
  · refine .of_recounted ?_ (failTaskFromPoll_passed ?_ _)
    · exact ⟨rfl, rfl, rfl, rfl, rfl⟩
    · exact hfrom
  · exact ⟨⟨fun _ h => (Option.some.inj h).symm.trans hfrom, rfl, rfl, rfl⟩, fun h _ => h,
      fun _ _ _ hne _ => absurd rfl hne⟩

/-! ## Single results -/

/-- The status, the quota and the owner of the funds of a result are kept, and a
task that goes on takes its progress from the result. -/
theorem singleStatus_spec {t' : Task} (h : singleStatus cfg now info t = some t') :
    t'.status = t.status ∧ t'.quota = t.quota ∧ t'.executionMode = t.executionMode ∧
      t'.isSubscription = t.isSubscription ∧
      (t.status.terminal = false → info.progress ≠ "100%" → t'.progress ≠ "100%") := by
  have hprogress : ∀ fixed : String, fixed ≠ "100%" → info.progress ≠ "100%" →
      (if info.progress ≠ "" then info.progress else fixed) ≠ "100%" := by
    intro fixed hfixed hinfo
    split
    · exact hinfo
    · exact hfixed
  rw [singleStatus] at h
  split at h <;> cases h
  · exact ⟨rfl, rfl, rfl, rfl, fun _ => hprogress "10%" (by decide)⟩
  · exact ⟨rfl, rfl, rfl, rfl, fun _ => hprogress "20%" (by decide)⟩
  · exact ⟨rfl, rfl, rfl, rfl, fun _ => hprogress "30%" (by decide)⟩
  all_goals
    next hstatus =>
      refine ⟨rfl, rfl, rfl, rfl, ?_⟩
      intro hopen
      rw [hstatus] at hopen
      cases hopen

theorem singleStatus_eq_none (h : singleStatus cfg now info t = none)
    (hknown : knownPollStatus t.status = true) : t.status = .notStart := by
  cases hstatus : t.status with
  | notStart => rfl
  | submitted | queued | inProgress | failure | success | cancelled =>
    rw [singleStatus, hstatus] at h
    cases h
  | unknown | other text =>
    rw [hstatus] at hknown
    cases hknown

theorem applySingle_update (hquota : t.quota = copy.quota)
    (hmode : t.executionMode = copy.executionMode)
    (hsubscription : t.isSubscription = copy.isSubscription) :
    Update copy (applySingle cfg now copy t info) := by
  rw [applySingle]
  split
  · exact ⟨(fun _ h => by cases h), hquota, hmode, hsubscription⟩
  next t' ht =>
  obtain ⟨-, hq, hm, hs, -⟩ := singleStatus_spec ht
  split
  · exact ⟨fun _ h => (Option.some.inj h).symm, hq.trans hquota, hm.trans hmode,
      hs.trans hsubscription⟩
  split
  · exact ⟨fun _ h => (Option.some.inj h).symm, hq.trans hquota, hm.trans hmode,
      hs.trans hsubscription⟩
  · exact ⟨(fun _ h => by cases h), hq.trans hquota, hm.trans hmode, hs.trans hsubscription⟩

theorem applySingle_copy :
    (singleStatus cfg now info t = none ∧ applySingle cfg now copy t info = .skip t) ∨
      ∃ t', singleStatus cfg now info t = some t' ∧
        (applySingle cfg now copy t info).copy = t' := by
  rw [applySingle]
  cases hs : singleStatus cfg now info t with
  | none => exact .inl ⟨rfl, rfl⟩
  | some t' =>
    refine .inr ⟨t', rfl, ?_⟩
    dsimp only
    split
    · rfl
    split <;> rfl

theorem applySingle_visible (hknown : knownPollStatus t.status = true)
    (hhonest : isNonTerminalPollStatus t.status = true →
      (if t.status = .notStart then t.progress else info.progress) ≠ "100%") :
    (applySingle cfg now copy t info).copy.Visible := by
  rcases applySingle_copy with ⟨hnone, heq⟩ | ⟨t', hsome, heq⟩
  · have hstart := singleStatus_eq_none hnone hknown
    rw [heq]
    intro _
    rw [hstart, if_pos rfl] at hhonest
    exact hhonest rfl
  · obtain ⟨hstatus, -, -, -, hprogress⟩ := singleStatus_spec hsome
    rw [heq]
    intro hopen
    rw [hstatus] at hopen
    have hgoes : isNonTerminalPollStatus t.status = true := by
      rw [knownPollStatus, hopen, Bool.or_false] at hknown
      exact hknown
    have hne : t.status ≠ .notStart := fun hstart => by
      rw [singleStatus, hstart] at hsome
      cases hsome
    have hinfo := hhonest hgoes
    rw [if_neg hne] at hinfo
    exact hprogress hopen hinfo

theorem applySingle_refunds (hadjust : cfg.pricing.noAdjustment)
    (htokens : info.totalTokens = 0 ∧ info.completionTokens = 0) :
    Refunds copy (applySingle cfg now copy t info) := by
  have hbilling : ∀ t' : Task, t'.status.lost → singleBilling cfg t' info = refundOps t' := by
    intro t' hlost
    rw [singleBilling]
    rcases hlost with hs | hs <;> rw [hs]
    · exact settleOrRefund_of_lost hadjust htokens (.inl hs) rfl
    · rfl
  rw [applySingle]
  split
  · exact fun _ _ hwrite => absurd rfl hwrite
  split
  · exact fun hlost _ _ => hbilling _ hlost
  split
  · exact fun hlost _ _ => hbilling _ hlost
  · exact fun _ _ hwrite => absurd rfl hwrite

theorem updateVideoSingleTask_passed (poll : SinglePoll) :
    Passed cfg copy ((PollOutcome.single poll).honest copy) (PollOutcome.single poll).noTokens
      (updateVideoSingleTask cfg now copy poll) := by
  cases poll with rw [updateVideoSingleTask]
  | transport statusCode error =>
    split
    · exact PollUpdate.skip_passed copy
    · exact recordPollFailure_passed _ _ _ rfl
  | response statusCode body parsed =>
    split
    · exact PollUpdate.skip_passed copy
    split
    · exact failTaskFromPoll_passed rfl _
    · exact recordPollFailure_passed _ _ _ rfl
    · exact recordPollFailure_passed _ _ _ rfl
    split
    · exact recordPollFailure_passed _ _ _ rfl
    dsimp only
    split
    · refine .of_recounted ?_ (recordPollFailure_passed _ _ _ ?_)
      · exact ⟨rfl, rfl, rfl, rfl, rfl⟩
      · rfl
    next hok =>
      rw [not_or, Bool.not_eq_false] at hok
      exact ⟨applySingle_update rfl rfl rfl, fun _ hhonest => applySingle_visible hok.1 hhonest,
        applySingle_refunds⟩

/-! ## Batch results -/

variable {r : BatchTaskResult}

theorem withBatchResult_visible {statusCode : Nat}
    (hknown : knownPollStatus (.ofText r.info.status) = true)
    (hhonest : (PollOutcome.batch (.response statusCode (.ok (some r)))).honest copy) :
    (withBatchResult copy r).Visible := by
  intro hopen
  simp only [withBatchResult] at hopen ⊢
  by_cases hfailed : r.info.reason ≠ "" ∨ TaskStatus.ofText r.info.status = .failure
  · rw [if_pos hfailed] at hopen
    cases hopen
  rw [if_neg hfailed] at hopen
  rw [not_or, not_not] at hfailed
  have hgoes : isNonTerminalPollStatus (.ofText r.info.status) = true := by
    rw [knownPollStatus, hopen, Bool.or_false] at hknown
    exact hknown
  have hnot : ¬((r.info.reason ≠ "" ∨ TaskStatus.ofText r.info.status = .failure) ∨
      TaskStatus.ofText r.info.status = .success) := by
    rintro ((hreason | hfail) | hsuccess)
    · exact hreason hfailed.1
    · exact hfailed.2 hfail
    · rw [hsuccess] at hopen
      cases hopen
  rw [if_neg hnot]
  exact hhonest hgoes hfailed.1

theorem applyBatch_refunds (hadjust : cfg.pricing.noAdjustment)
    (htokens : r.info.totalTokens = 0 ∧ r.info.completionTokens = 0) :
    Refunds copy (applyBatch cfg copy r) := by
  intro hlost hne _
  have hended : (withBatchResult copy r).status.terminal = true := by
    rcases hlost with hs | hs <;>
      exact (congrArg TaskStatus.terminal hs).trans rfl
  simp only [applyBatch] at hlost hne ⊢
  rw [if_pos ⟨hended, hne⟩]
  exact settleOrRefund_of_lost hadjust htokens hlost (decide_eq_true hlost)

theorem updateBatchTask_passed (poll : BatchPoll) :
    Passed cfg copy ((PollOutcome.batch poll).honest copy) (PollOutcome.batch poll).noTokens
      (updateBatchTask cfg now copy poll) := by
  cases poll with rw [updateBatchTask]
  | transport statusCode error =>
    exact recordPollFailure_passed _ _ _ rfl
  | response statusCode parsed =>
    split
    · exact failTaskFromPoll_passed rfl _
    · exact recordPollFailure_passed _ _ _ rfl
    · exact recordPollFailure_passed _ _ _ rfl
    split
    · exact recordPollFailure_passed _ _ _ rfl
    · exact PollUpdate.skip_passed copy
    dsimp only
    split
    · exact recordPollFailure_passed _ _ _ rfl
    next hok =>
      rw [not_or, Bool.not_eq_false] at hok
      exact ⟨⟨fun _ h => (Option.some.inj h).symm, rfl, rfl, rfl⟩,
        fun _ hhonest => withBatchResult_visible hok.1 hhonest, applyBatch_refunds⟩

/-! ## Passes -/

theorem PollOutcome.update_passed (outcome : PollOutcome) :
    Passed cfg copy (outcome.honest copy) outcome.noTokens (outcome.update cfg now copy) := by
  cases outcome with
  | channelMissing batch channelId => exact PollUpdate.skip_passed copy
  | single poll => exact updateVideoSingleTask_passed poll
  | batch poll => exact updateBatchTask_passed poll

end

end NewApi
