import NewApi.User.Rows

/-!
# Disabled and demoted users

`UpdateWithTx` writes every column of its record that is not zero, also the status and the role,
and the record may be older than the last action of an administrator. So a user who is disabled
or demoted stays so only if each record that is written back has the stored status and role, or
zeros (`Fresh`). The row of a transaction in progress has the committed status and role, except
for what an action sets (`UserStage.Fits`).

`GetAffCode`, `BindEmailToUser` and the first setting of the sidebar load the whole record, and
when an action commits in between they undo it.
-/

namespace NewApi

open Runs

/-! ## What an action sets -/

def ManageAction.Sets (column : UserColumn) (value : Int) : ManageAction → Prop
  | .disable => column = .status ∧ value = userStatusDisabled
  | .enable => column = .status
  | .promote => column = .role
  | .demote => column = .role ∧ value = roleCommonUser
  | .unknown _ => False

theorem ManageAction.decide_sets {action : ManageAction} {operatorRole value : Int} {user : UserRow}
    {column : UserColumn} (h : action.decide operatorRole user = .ok (column, value)) :
    action.Sets column value := by
  unfold ManageAction.decide at h
  split at h
  · cases h
  split at h
  · cases h
  cases action with simp only [ManageAction.target] at h
  | disable =>
    split at h
    · cases h
    · cases h
      exact ⟨rfl, rfl⟩
  | enable =>
    cases h
    rfl
  | promote =>
    split at h
    · cases h
    split at h
    · cases h
    · cases h
      rfl
  | demote =>
    split at h
    · cases h
    split at h
    · cases h
    · cases h
      exact ⟨rfl, rfl⟩
  | unknown action => cases h

/-- The status and the role are the same. -/
structure UserRow.Same (row working : UserRow) : Prop where
  status : working.status = row.status
  role : working.role = row.role

theorem UserRow.Same.refl (row : UserRow) : row.Same row := ⟨rfl, rfl⟩

def UserRow.Keeps (row working : UserRow) : Option ManageAction → Prop
  | some .disable => working.status = userStatusDisabled ∧ working.role = row.role
  | some .enable => working.role = row.role
  | some .promote => working.status = row.status
  | some .demote => working.status = row.status ∧ working.role = roleCommonUser
  | some (.unknown _) | none => row.Same working

namespace ManageAction.Sets

variable {action : ManageAction} {column : UserColumn} {value : Int} {row working : UserRow}

theorem written (h : action.Sets column value) (hsame : row.Same working) :
    row.Keeps (working.setColumn column value) (some action) := by
  cases action with
  | disable =>
    obtain ⟨rfl, rfl⟩ := h
    exact ⟨rfl, hsame.role⟩
  | enable =>
    obtain rfl := h
    exact hsame.role
  | promote =>
    obtain rfl := h
    exact hsame.status
  | demote =>
    obtain ⟨rfl, rfl⟩ := h
    exact ⟨hsame.status, rfl⟩
  | unknown action => cases h

theorem unchanged (h : action.Sets column value) (hsame : row.Same working)
    (hvalue : working.column column = value) : row.Keeps working (some action) := by
  cases action with
  | disable =>
    obtain ⟨rfl, rfl⟩ := h
    exact ⟨hvalue, hsame.role⟩
  | enable => exact hsame.role
  | promote => exact hsame.status
  | demote =>
    obtain ⟨rfl, rfl⟩ := h
    exact ⟨hsame.status, hvalue⟩
  | unknown action => cases h

end ManageAction.Sets

/-! ## The invariant -/

def UserStage.Fits (row working : UserRow) : UserStage → Prop
  | .commit action => row.Keeps working action
  | _ => row.Same working

/-- The action of a call goes with what it sets. -/
def UserStage.Sets : UserStage → Prop
  | .manageIncrement action column value | .manageWrite action column value =>
    action.Sets column value
  | _ => True

namespace UserSystem

variable {s : UserSystem} {id : Nat} {stage : UserStage}

structure Kept (s : UserSystem) : Prop where
  disabled : s.disabled = true → s.row.status = userStatusDisabled
  demoted : s.demoted = true → s.row.role = roleCommonUser
  locked : ∀ id working, s.locked = some (id, working) →
    ∃ stage, s.calls.find id = some ⟨id, stage⟩ ∧ stage.Fits s.row working
  calls : ∀ c ∈ s.calls.rows, c.stage.Sets

theorem save_sets {stage' : UserStage} (h : ∀ c ∈ s.calls.rows, c.stage.Sets)
    (hsets : stage'.Sets) : ∀ c ∈ (s.calls.save ⟨id, stage'⟩).rows, c.stage.Sets :=
  Table.forall_save hsets fun c hold _ => h c hold

theorem find_save_other {holder : Nat} (stage' : UserStage) (hne : holder ≠ id) :
    (s.calls.save ⟨id, stage'⟩).find holder = s.calls.find holder :=
  Table.find_save_of_ne (show (⟨id, stage'⟩ : UserCall).id ≠ holder from hne.symm)

variable (hfind : s.calls.find id = some ⟨id, stage⟩)

include hfind in
theorem find_save_own (stage' : UserStage) :
    (s.calls.save ⟨id, stage'⟩).find id = some ⟨id, stage'⟩ :=
  Table.find_save_self
    (show s.calls.find (⟨id, stage'⟩ : UserCall).id = some ⟨id, stage⟩ from hfind)

include hfind in
theorem Kept.goto (h : s.Kept) {stage' : UserStage}
    (hfits : ∀ working, stage.Fits s.row working →
      stage'.Fits s.row working := by exact fun _ h => h)
    (hsets : stage'.Sets := by trivial) : (s.goto id stage').Kept := by
  refine ⟨h.disabled, h.demoted, ?_, save_sets h.calls hsets⟩
  intro holder working hlocked
  obtain ⟨stage₀, hfind₀, hfits₀⟩ := h.locked holder working hlocked
  by_cases hid : holder = id
  · subst hid
    obtain rfl : stage₀ = stage :=
      congrArg UserCall.stage (Option.some.inj (hfind₀.symm.trans hfind))
    exact ⟨stage', find_save_own hfind stage', hfits working hfits₀⟩
  · exact ⟨stage₀, (find_save_other stage' hid).trans hfind₀, hfits₀⟩

theorem Kept.abort (h : s.Kept) (error : UserError) : (s.abort id error).Kept := by
  refine ⟨h.disabled, h.demoted, ?_, save_sets h.calls trivial⟩
  intro holder working hlocked
  simp only [UserSystem.abort] at hlocked
  split at hlocked
  · cases hlocked
  next hother =>
  obtain ⟨stage₀, hfind₀, hfits₀⟩ := h.locked holder working hlocked
  have hne : holder ≠ id := by
    rintro rfl
    rw [hlocked] at hother
    simp at hother
  exact ⟨stage₀, (find_save_other _ hne).trans hfind₀, hfits₀⟩

include hfind in
theorem Kept.acquired (h : s.Kept)
    (hfits : ∀ working, stage.Fits s.row working → s.row.Same working) {snapshot : UserSnapshot}
    {row : UserRow} (hrow : s.acquire id snapshot = .row row) : s.row.Same row := by
  simp only [acquire] at hrow
  split at hrow
  next holder working hlocked =>
    split at hrow
    next hid =>
      cases hrow
      subst hid
      obtain ⟨stage₀, hfind₀, hfits₀⟩ := h.locked _ _ hlocked
      obtain rfl : stage₀ = stage :=
        congrArg UserCall.stage (Option.some.inj (hfind₀.symm.trans hfind))
      exact hfits _ hfits₀
    · cases hrow
  · split at hrow
    · split at hrow
      · cases hrow
        exact .refl _
      · cases hrow
    · cases hrow
      exact .refl _

include hfind in
theorem Kept.onRow (h : s.Kept) {snapshot : UserSnapshot}
    {f : UserRow → Except UserError (UserRow × UserStage)}
    (hf : ∀ row row' stage', s.row.Same row → f row = .ok (row', stage') →
      stage'.Fits s.row row' ∧ stage'.Sets)
    (hfits : ∀ working, stage.Fits s.row working → s.row.Same working := by exact fun _ h => h) :
    (s.onRow id snapshot f).Kept := by
  simp only [UserSystem.onRow]
  cases hacquire : s.acquire id snapshot with
  | waits => exact h
  | fails => exact h.abort _
  | row row =>
    have hsame := h.acquired hfind hfits hacquire
    dsimp only
    cases hresult : f row with
    | error error => exact h.abort _
    | ok result =>
      obtain ⟨row', stage'⟩ := result
      obtain ⟨hfits', hsets⟩ := hf row row' stage' hsame hresult
      refine ⟨h.disabled, h.demoted, ?_, save_sets h.calls hsets⟩
      intro holder working hlocked
      have hpair : (id, row') = (holder, working) := Option.some.inj hlocked
      cases hpair
      exact ⟨stage', find_save_own hfind stage', hfits'⟩

theorem Kept.commit (h : s.Kept) {action : Option ManageAction}
    (hfind : s.calls.find id = some ⟨id, .commit action⟩) : (s.commit id action).Kept := by
  simp only [UserSystem.commit]
  split
  next holder working hlocked =>
    split
    next hid =>
      subst hid
      obtain ⟨stage, hfind', hfits⟩ := h.locked _ _ hlocked
      obtain rfl : stage = .commit action :=
        congrArg UserCall.stage (Option.some.inj (hfind'.symm.trans hfind))
      have hkeeps : s.row.Keeps working action := hfits
      refine ⟨?_, ?_, fun _ _ hnone => (by cases hnone), save_sets h.calls trivial⟩
      · intro hdisabled
        show working.status = userStatusDisabled
        cases action with
        | none => exact hkeeps.status.trans (h.disabled hdisabled)
        | some action =>
          cases action with
          | disable => exact hkeeps.1
          | enable => cases hdisabled
          | promote => exact Eq.trans hkeeps (h.disabled hdisabled)
          | demote => exact hkeeps.1.trans (h.disabled hdisabled)
          | unknown action => exact hkeeps.status.trans (h.disabled hdisabled)
      · intro hdemoted
        show working.role = roleCommonUser
        cases action with
        | none => exact hkeeps.role.trans (h.demoted hdemoted)
        | some action =>
          cases action with
          | disable => exact hkeeps.2.trans (h.demoted hdemoted)
          | enable => exact Eq.trans hkeeps (h.demoted hdemoted)
          | promote => cases hdemoted
          | demote => exact hkeeps.2
          | unknown action => exact hkeeps.role.trans (h.demoted hdemoted)
    · exact h
  · exact h

end UserSystem

/-! ## Steps -/

/-- The status and the role of a record are zero, or the stored ones. -/
structure UserRow.Current (row record : UserRow) : Prop where
  status : record.status = 0 ∨ record.status = row.status
  role : record.role = 0 ∨ record.role = row.role

theorem UserRow.Current.updates {row working record : UserRow} (h : row.Current record)
    (hsame : row.Same working) : row.Same (working.updates record) := by
  refine ⟨?_, ?_⟩
  · show orKeep 0 record.status working.status = row.status
    rcases h.status with hzero | hstored
    · rw [orKeep, if_pos hzero, hsame.status]
    · rw [orKeep, hsame.status, hstored, ite_self]
  · show orKeep 0 record.role working.role = row.role
    rcases h.role with hzero | hstored
    · rw [orKeep, if_pos hzero, hsame.role]
    · rw [orKeep, hsame.role, hstored, ite_self]

namespace UserSystem

variable {s : UserSystem} {id : Nat} {stage : UserStage}

/-- A record that is written back has the stored status and role, or zeros. -/
def Fresh (s : UserSystem) : UserAction → Prop
  | .step id _ =>
    ∀ record snapshot, s.calls.find id = some ⟨id, .write record snapshot⟩ → s.row.Current record
  | _ => True

theorem Kept.advance (h : s.Kept) (hfind : s.calls.find id = some ⟨id, stage⟩)
    (hfresh : ∀ record snapshot, stage = .write record snapshot → s.row.Current record) :
    (s.advance id stage).Kept := by
  have hsets : stage.Sets := h.calls _ (Table.find_mem hfind)
  cases stage with simp only [UserSystem.advance]
  | load job =>
    split
    · exact h.abort _
    split <;> exact h.goto hfind
  | checkEmail record => exact h.goto hfind
  | readCurrent record snapshot =>
    split
    · exact h.abort _
    · split <;> exact h.goto hfind
  | increment record snapshot =>
    refine h.onRow hfind ?_
    intro row row' stage' hsame hresult
    cases hresult
    exact ⟨⟨hsame.status, hsame.role⟩, trivial⟩
  | write record snapshot =>
    refine h.onRow hfind ?_
    intro row row' stage' hsame hresult
    cases hresult
    exact ⟨(hfresh record snapshot rfl).updates hsame, trivial⟩
  | manageLock action operatorRole =>
    refine h.onRow hfind ?_
    intro row row' stage' hsame hresult
    cases hdecide : action.decide operatorRole row with
    | error error =>
      rw [hdecide] at hresult
      cases hresult
    | ok target =>
      obtain ⟨column, value⟩ := target
      have hsets := ManageAction.decide_sets hdecide
      rw [hdecide] at hresult
      by_cases hvalue : row.column column = value
      · simp only [bind, Except.bind, if_pos hvalue] at hresult
        cases hresult
        exact ⟨hsets.unchanged hsame hvalue, trivial⟩
      · simp only [bind, Except.bind, if_neg hvalue] at hresult
        cases hresult
        exact ⟨hsame, hsets⟩
  | manageIncrement action column value =>
    refine h.onRow hfind ?_
    intro row row' stage' hsame hresult
    cases hresult
    exact ⟨⟨hsame.status, hsame.role⟩, hsets⟩
  | manageWrite action column value =>
    refine h.onRow hfind ?_
    intro row row' stage' hsame hresult
    cases hresult
    exact ⟨ManageAction.Sets.written hsets hsame, trivial⟩
  | transfer quota =>
    refine h.onRow hfind ?_
    intro row row' stage' hsame hresult
    split at hresult
    · cases hresult
    split at hresult
    · cases hresult
    · cases hresult
      exact ⟨⟨hsame.status, hsame.role⟩, trivial⟩
  | commit action => exact h.commit hfind
  | returned result => exact h

theorem job_sets (quotaPerUnit : Int) (job : UserJob) : (job.stage quotaPerUnit).Sets := by
  cases job with
  | transfer quota =>
    simp only [UserJob.stage]
    split <;> trivial
  | _ => trivial

theorem Kept.step (h : s.Kept) (a : UserAction) (ha : s.Fresh a) : (s.step a).Kept := by
  cases a with simp only [UserSystem.step]
  | call id job =>
    split
    next calls hinsert =>
      refine ⟨h.disabled, h.demoted, ?_, ?_⟩
      · intro holder working hlocked
        obtain ⟨stage, hfind, hfits⟩ := h.locked holder working hlocked
        exact ⟨stage, Table.find_after_insert hinsert hfind, hfits⟩
      · exact Table.forall_insert hinsert (job_sets _ job) h.calls
    · exact h
  | step id error =>
    split
    · exact h
    next call _ hfind =>
      obtain ⟨id', stage⟩ := call
      obtain rfl : id' = id := Table.find_key hfind
      cases error with
      | some error => exact h.abort error
      | none =>
        refine h.advance hfind ?_
        rintro record snapshot rfl
        exact ha record snapshot hfind
    · exact h

/-- Nobody has called yet, and no action has been committed. -/
structure Initial (s : UserSystem) : Prop where
  calls : s.calls.rows = []
  locked : s.locked = none
  disabled : s.disabled = false
  demoted : s.demoted = false

theorem Initial.kept (h : s.Initial) : s.Kept := by
  refine ⟨?_, ?_, ?_, ?_⟩
  · rw [h.disabled]
    exact fun hfalse => by cases hfalse
  · rw [h.demoted]
    exact fun hfalse => by cases hfalse
  · rw [h.locked]
    exact fun _ _ hnone => by cases hnone
  · rw [h.calls]
    exact fun c hc => absurd hc List.not_mem_nil

end UserSystem

/-! ## Records of a profile -/

/-- The record of the call is not loaded from the row. -/
def UserStage.Profile : UserStage → Prop
  | .load _ | .checkEmail _ => False
  | .readCurrent record _ | .increment record _ | .write record _ =>
    record.status = 0 ∧ record.role = 0
  | _ => True

/-- No operation loads the user to write them back. -/
def UserAction.Profile : UserAction → Prop
  | .call _ (.self _) => False
  | _ => True

namespace UserSystem

variable {s : UserSystem} {id : Nat} {stage : UserStage}

theorem onRow_calls (s : UserSystem) (id : Nat) (snapshot : UserSnapshot)
    (f : UserRow → Except UserError (UserRow × UserStage)) :
    (s.onRow id snapshot f).calls = s.calls ∨
      ∃ stage', (s.onRow id snapshot f).calls = s.calls.save ⟨id, stage'⟩ ∧
        ((∃ error, stage' = .returned (.error error)) ∨
          ∃ row row', f row = .ok (row', stage')) := by
  simp only [onRow]
  cases s.acquire id snapshot with
  | waits => exact .inl rfl
  | fails => exact .inr ⟨_, rfl, .inl ⟨_, rfl⟩⟩
  | row row =>
    dsimp only
    cases hresult : f row with
    | error error => exact .inr ⟨_, rfl, .inl ⟨_, rfl⟩⟩
    | ok result => exact .inr ⟨_, rfl, .inr ⟨row, result.1, hresult⟩⟩

section

variable (h : ∀ c ∈ s.calls.rows, c.stage.Profile)

include h

theorem profile_onRow (snapshot : UserSnapshot)
    {f : UserRow → Except UserError (UserRow × UserStage)}
    (hf : ∀ row row' stage', f row = .ok (row', stage') → stage'.Profile) :
    ∀ c ∈ (s.onRow id snapshot f).calls.rows, c.stage.Profile := by
  rcases s.onRow_calls id snapshot f with hsame | ⟨stage', hsaved, hstage'⟩
  · rw [hsame]
    exact h
  rw [hsaved]
  refine Table.forall_save ?_ fun c hold _ => h c hold
  rcases hstage' with ⟨error, rfl⟩ | ⟨row, row', hresult⟩
  · trivial
  · exact hf row row' stage' hresult

theorem profile_save {stage' : UserStage}
    (hstage : stage'.Profile) : ∀ c ∈ (s.calls.save ⟨id, stage'⟩).rows, c.stage.Profile := by
  exact Table.forall_save hstage fun c hold _ => h c hold

theorem profile_advance (hfind : s.calls.find id = some ⟨id, stage⟩) :
    ∀ c ∈ (s.advance id stage).calls.rows, c.stage.Profile := by
  have hstage : stage.Profile := h _ (Table.find_mem hfind)
  cases stage with simp only [advance]
  | load job => cases hstage
  | checkEmail record => cases hstage
  | readCurrent record snapshot =>
    split
    · exact profile_save h trivial
    · split <;> exact profile_save h hstage
  | increment record snapshot =>
    refine profile_onRow h snapshot ?_
    intro row row' stage' hresult
    cases hresult
    exact hstage
  | write record snapshot =>
    refine profile_onRow h snapshot ?_
    intro row row' stage' hresult
    cases hresult
    trivial
  | manageLock action operatorRole =>
    refine profile_onRow h none ?_
    intro row row' stage' hresult
    cases hdecide : action.decide operatorRole row with
    | error error =>
      rw [hdecide] at hresult
      cases hresult
    | ok target =>
      simp only [hdecide, bind, Except.bind] at hresult
      split at hresult <;> cases hresult <;> trivial
  | manageIncrement action column value | manageWrite action column value =>
    refine profile_onRow h none ?_
    intro row row' stage' hresult
    cases hresult
    trivial
  | transfer quota =>
    refine profile_onRow h none ?_
    intro row row' stage' hresult
    split at hresult
    · cases hresult
    split at hresult <;> cases hresult
    trivial
  | commit action =>
    simp only [commit]
    split
    · split
      · exact profile_save h trivial
      · exact h
    · exact h
  | returned result => exact h

theorem profile_step {a : UserAction} (ha : a.Profile) :
    (∀ c ∈ (s.step a).calls.rows, c.stage.Profile) ∧ s.Fresh a := by
  cases a with
  | call id job =>
    refine ⟨?_, trivial⟩
    simp only [step]
    split
    next calls hinsert =>
      refine Table.forall_insert hinsert ?_ h
      cases job with
      | self job => cases ha
      | updateSelf username displayName => exact ⟨rfl, rfl⟩
      | transfer quota =>
        show ((UserJob.transfer quota).stage s.quotaPerUnit).Profile
        simp only [UserJob.stage]
        split <;> trivial
      | manage action operatorRole => trivial
    · exact h
  | step id error =>
    refine ⟨?_, ?_⟩
    · simp only [step]
      split
      · exact h
      next call _ hfind =>
        obtain ⟨id', stage⟩ := call
        obtain rfl : id' = id := Table.find_key hfind
        cases error with
        | some error => exact profile_save h trivial
        | none => exact profile_advance h hfind
      · exact h
    · intro record snapshot hfind
      obtain ⟨hstatus, hrole⟩ : record.status = 0 ∧ record.role = 0 := h _ (Table.find_mem hfind)
      exact ⟨.inl hstatus, .inl hrole⟩

end

theorem Initial.fresh (h : s.Initial) {as : List UserAction} (has : ∀ a ∈ as, a.Profile) :
    Along UserSystem.step UserSystem.Fresh s as := by
  refine along_of_invariant (I := fun s : UserSystem => ∀ c ∈ s.calls.rows, c.stage.Profile)
    (fun s a hcalls (ha : a.Profile) => profile_step hcalls ha) ?_
    (along_of_mem (fun a ha _ => has a ha) s)
  rw [h.calls]
  exact fun c hc => absurd hc List.not_mem_nil

end UserSystem

/-! ## Runs -/

/-- If every record that is written back is fresh, a user who was disabled is disabled
until they are enabled, and a user who was demoted has the common role until they are
promoted. -/
theorem user_stays_restricted {s : UserSystem} (hs : s.Initial) {as : List UserAction}
    (hfresh : Along UserSystem.step UserSystem.Fresh s as) :
    let t := run UserSystem.step s as
    (t.disabled = true → t.row.status = userStatusDisabled) ∧
      (t.demoted = true → t.row.role = roleCommonUser) := by
  have hkept : (run UserSystem.step s as).Kept :=
    run_invariant (fun s a (h : s.Kept) ha => h.step a ha) hs.kept hfresh
  exact ⟨hkept.disabled, hkept.demoted⟩

/-- An administrator without an affiliate code. -/
def sampleUser (isolation : Isolation) : UserSystem where
  isolation := isolation
  quotaPerUnit := 500000
  row := ⟨"ada", "Ada", "", roleAdminUser, userStatusEnabled, "", "default", "", "", 0, 0, 1, false⟩
  commits := 0
  locked := none
  calls := Table.empty
  disabled := false
  demoted := false

def userSteps (id n : Nat) : List UserAction := List.replicate n (.step id none)

variable (action : ManageAction)

def managed : List UserAction := .call 2 (.manage action roleRootUser) :: userSteps 2 4

/-- The user is disabled, and then they change their name. -/
def renamedRun : List UserAction :=
  managed .disable ++ .call 1 (.updateSelf "grace" "Grace") :: userSteps 1 3

theorem renamedRun_disabled :
    (run UserSystem.step (sampleUser .readCommitted) renamedRun).row.username = "grace" ∧
      (run UserSystem.step (sampleUser .readCommitted) renamedRun).row.status =
        userStatusDisabled := by
  have hinitial : (sampleUser .readCommitted).Initial := ⟨rfl, rfl, rfl, rfl⟩
  have hprofile : ∀ a ∈ renamedRun, a.Profile := by
    simp [renamedRun, managed, userSteps, UserAction.Profile]
  exact ⟨rfl, (user_stays_restricted hinitial (hinitial.fresh hprofile)).1 rfl⟩

/-- `GetAffCode` loads the user before the action commits, and writes them back after it. -/
def staleAffCode : List UserAction :=
  .call 1 (.self (.getAffCode "x7Qa")) :: userSteps 1 1 ++ managed action ++ userSteps 1 4

/-- The end of the run under each isolation level. -/
def staleEnds : List UserSystem :=
  [.readCommitted, .repeatableRead, .strict].map fun isolation =>
    run UserSystem.step (sampleUser isolation) (staleAffCode action)

/-- The user is enabled again, and an administrator again. -/
theorem stale_record_undoes :
    (staleEnds .disable).map (fun s => (s.disabled, s.row.status)) =
        List.replicate 3 (true, userStatusEnabled) ∧
      (staleEnds .demote).map (fun s => (s.demoted, s.row.role)) =
        List.replicate 3 (true, roleAdminUser) :=
  ⟨rfl, rfl⟩

end NewApi
