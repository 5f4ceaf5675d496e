import NewApi.User.AuthCache

/-!
# A restricted user is not served from a stale cache

`GetUserCache` compares the record it is about to return with the floor, the higher one of the two
fences, after it has read the record. So it returns nothing below a version that the floor has
had since the call began (`Reads`), unless Redis answers neither its question for the floor nor
its populate. The committed version and the one in the database only grow, and an operation that
has returned success has published what it found after its commit (`Settled`), so from then on no
answer of Redis is needed.
-/

namespace NewApi

open Runs

/-! ## The scripts -/

namespace AuthStore

variable {s s' : AuthStore}

def committedVersion (s : AuthStore) : Int := s.committed.getD 0

theorem committedVersion_le_floor (s : AuthStore) : s.committedVersion ≤ s.floor := le_max_right _ _

theorem publish_committed (s : AuthStore) (incoming : Int) :
    s.committedVersion ≤ (s.publish incoming).committedVersion ∧
      incoming ≤ (s.publish incoming).committedVersion := by
  simp only [committedVersion, publish]
  split
  next hlt => exact ⟨hlt.le, le_refl _⟩
  next hle => exact ⟨le_refl _, not_lt.mp hle⟩

theorem clears_committed {incoming : Int} (h : s.clears incoming = some s') :
    s.committedVersion ≤ s'.committedVersion ∧ incoming ≤ s'.committedVersion := by
  unfold clears at h
  split at h
  · cases h
  · cases h
    exact s.publish_committed incoming

theorem writeUserCache_committed {user : UserBase} {includeQuota : Bool}
    (h : s.writeUserCache user includeQuota = some s') :
    s.committedVersion ≤ s'.committedVersion ∧ user.authVersion ≤ s'.committedVersion := by
  obtain ⟨cleared, hclears, rfl⟩ := Option.map_eq_some_iff.mp h
  have hcommitted := clears_committed hclears
  split
  · exact hcommitted
  · split <;> exact hcommitted

theorem updateField_committed {field : UserCacheField} {value : String} {authVersion : Int}
    (h : s.updateField field value authVersion = some s') :
    s.committedVersion ≤ s'.committedVersion := by
  obtain ⟨cleared, hclears, rfl⟩ := Option.map_eq_some_iff.mp h
  have hcommitted := (clears_committed hclears).1
  split
  · split <;> exact hcommitted
  · exact hcommitted

theorem setFence_committed (s : AuthStore) (authVersion : Int) :
    (s.setFence authVersion).committedVersion = s.committedVersion := by
  unfold setFence
  split <;> rfl

end AuthStore

theorem lt_nextAuthVersion (authVersion : Int) : authVersion < nextAuthVersion authVersion := by
  rw [nextAuthVersion]
  omega

/-! ## Published versions -/

def AuthStage.Ok (s : AuthSystem) : AuthStage → Prop
  | .publishRead authVersion | .publishCommitted authVersion => authVersion ≤ s.row.authVersion
  | .publishWrite authVersion user =>
    authVersion ≤ s.row.authVersion ∧ authVersion ≤ user.authVersion
  | .returned (.advanced authVersion) =>
    authVersion ≤ s.row.authVersion ∧ authVersion ≤ s.store.committedVersion
  | _ => True

namespace AuthSystem

variable {s s' : AuthSystem} {id : Nat} {stage : AuthStage}

/-- The versions have not gone back. -/
structure Later (s s' : AuthSystem) : Prop where
  row : s.row.authVersion ≤ s'.row.authVersion
  committed : s.store.committedVersion ≤ s'.store.committedVersion

theorem Later.refl (s : AuthSystem) : s.Later s := ⟨le_refl _, le_refl _⟩

theorem Later.ok (h : s.Later s') (hstage : stage.Ok s) : stage.Ok s' := by
  cases stage with
  | publishRead authVersion | publishCommitted authVersion => exact le_trans hstage h.row
  | publishWrite authVersion user => exact ⟨hstage.1.trans h.row, hstage.2⟩
  | returned result =>
    cases result with
    | advanced authVersion => exact ⟨hstage.1.trans h.row, hstage.2.trans h.committed⟩
    | _ => trivial
  | _ => trivial

/-- What holds in every run. -/
structure Settled (s : AuthSystem) : Prop where
  working : ∀ id working, s.locked = some (id, working) → s.row.authVersion ≤ working.authVersion
  calls : ∀ c ∈ s.calls.rows, c.stage.Ok s

/-- What a step of a call does. -/
structure Advanced (s : AuthSystem) (id : Nat) (s' : AuthSystem) : Prop where
  later : s.Later s'
  working : ∀ id working, s'.locked = some (id, working) → s'.row.authVersion ≤ working.authVersion
  calls : s'.calls = s.calls ∨ ∃ stage, s'.calls = s.calls.save ⟨id, stage⟩ ∧ stage.Ok s'

section

variable (h : s.Settled)

include h

theorem Settled.advanced (ha : s.Advanced id s') : s'.Settled := by
  refine ⟨ha.working, ?_⟩
  rcases ha.calls with hsame | ⟨stage, hsaved, hok⟩
  · rw [hsame]
    exact fun c hc => ha.later.ok (h.calls c hc)
  · rw [hsaved]
    exact Table.forall_save hok fun c hold _ => ha.later.ok (h.calls c hold)

theorem Advanced.waits : s.Advanced id s := ⟨.refl s, h.working, .inl rfl⟩

theorem Advanced.goto (hok : stage.Ok s) : s.Advanced id (s.goto id stage) :=
  ⟨⟨le_refl _, le_refl _⟩, h.working, .inr ⟨stage, rfl, (Later.mk (le_refl _) (le_refl _)).ok hok⟩⟩

theorem Advanced.fail {result : AuthResult} (hok : (AuthStage.returned result).Ok s) :
    s.Advanced id (s.fail id result) := by
  refine ⟨⟨le_refl _, le_refl _⟩, ?_, .inr ⟨_, rfl, (Later.mk (le_refl _) (le_refl _)).ok hok⟩⟩
  intro holder working hlocked
  simp only [AuthSystem.fail] at hlocked
  split at hlocked
  · cases hlocked
  · exact h.working holder working hlocked

theorem Advanced.script {store : AuthStore}
    (hcommitted : s.store.committedVersion ≤ store.committedVersion)
    (hok : stage.Ok { s with store := store }) :
    s.Advanced id ({ s with store := store }.goto id stage) :=
  ⟨⟨le_refl _, hcommitted⟩, h.working, .inr ⟨stage, rfl, (Later.mk (le_refl _) (le_refl _)).ok hok⟩⟩

theorem persist_advanced (op : RestrictiveChange) (tries : Nat) (authVersion : Int) :
    s.Advanced id (s.advance id (.persist op tries authVersion)) := by
  simp only [advance]
  split
  next holder working hlocked =>
    split
    next hcond =>
      refine ⟨⟨le_refl _, le_refl _⟩, ?_, .inr ⟨_, rfl, trivial⟩⟩
      intro holder' working' hlocked'
      obtain ⟨-, rfl⟩ := Prod.mk.inj (Option.some.inj hlocked')
      have hle := h.working holder working hlocked
      have hlt := lt_nextAuthVersion authVersion
      show s.row.authVersion ≤ nextAuthVersion authVersion
      omega
    · cases tries with
      | zero => exact .fail h trivial
      | succ tries => exact .goto h trivial
  · exact .fail h trivial

theorem commit_advanced (op : RestrictiveChange) : s.Advanced id (s.advance id (.commit op)) := by
  simp only [advance]
  split
  next holder working hlocked =>
    split
    · refine ⟨⟨h.working holder working hlocked, le_refl _⟩, fun _ _ hnone => (by cases hnone),
        .inr ⟨_, rfl, ?_⟩⟩
      split <;> exact le_refl working.authVersion
    · exact .waits h
  · exact .waits h

theorem advance_advanced (hstage : stage.Ok s) : s.Advanced id (s.advance id stage) := by
  cases stage with simp only [advance]
  | lockUser op tries =>
    split
    · split
      · exact .goto h trivial
      · exact .waits h
    refine ⟨⟨le_refl _, le_refl _⟩, ?_, .inr ⟨_, rfl, trivial⟩⟩
    intro holder working hlocked
    cases hlocked
    exact le_refl _
  | setFence op tries authVersion =>
    exact .script h (s.store.setFence_committed _).ge trivial
  | persist op tries authVersion => exact persist_advanced h op tries authVersion
  | commit op => exact commit_advanced h op
  | publishRead authVersion =>
    split
    · exact .goto h trivial
    · exact .goto h ⟨hstage, hstage⟩
  | publishWrite authVersion user =>
    split
    · exact .goto h trivial
    split
    next store hwrite =>
      obtain ⟨hgrows, hincoming⟩ := AuthStore.writeUserCache_committed hwrite
      exact .script h hgrows ⟨hstage.1, hstage.2.trans hincoming⟩
    · exact .goto h trivial
  | publishCommitted authVersion =>
    obtain ⟨hgrows, hincoming⟩ := s.store.publish_committed authVersion
    exact .script h hgrows ⟨hstage, hincoming⟩
  | readHash =>
    split
    · split <;> exact .goto h trivial
    · exact .goto h trivial
  | hashFloor user | readUser | userFloor user =>
    split <;> exact .goto h trivial
  | populate user | update user =>
    split
    · exact .goto h trivial
    split
    next store hwrite =>
      exact .script h (AuthStore.writeUserCache_committed hwrite).1 trivial
    · exact .goto h trivial
  | updateField field value authVersion =>
    split
    · exact .goto h trivial
    · split
      next store hwrite => exact .script h (AuthStore.updateField_committed hwrite) trivial
      · exact .goto h trivial
  | returned result => exact .waits h

theorem lose_advanced (hstage : stage.Ok s) (ran : Bool) : s.Advanced id (s.lose id ran stage) := by
  have hstore : s.store.committedVersion ≤
      (if ran then (s.advance id stage).store else s.store).committedVersion := by
    cases ran with
    | true => exact (advance_advanced h hstage).later.committed
    | false => exact le_refl _
  unfold lose
  generalize (if ran then (s.advance id stage).store else s.store) = store at hstore
  cases stage with
  | setFence op tries authVersion =>
    have hlater : s.Later { s with store := store } := ⟨le_refl _, hstore⟩
    have hsettled : { s with store := store }.Settled :=
      ⟨h.working, fun c hc => hlater.ok (h.calls c hc)⟩
    have hfail : { s with store := store }.Advanced id
      ({ s with store := store }.fail id .redisError) := .fail hsettled trivial
    exact ⟨⟨hfail.later.row, hstore⟩, hfail.working, .inr ⟨_, rfl, trivial⟩⟩
  | publishWrite | update | updateField =>
    dsimp only
    split
    · exact .waits h
    · exact .script h hstore trivial
  | publishCommitted | readHash | hashFloor | userFloor | populate =>
    exact .script h hstore trivial
  | _ => exact .waits h

theorem Settled.step (a : AuthAction) : (s.step a).Settled ∧ s.Later (s.step a) := by
  cases a with simp only [AuthSystem.step]
  | call id job =>
    split
    next calls hinsert =>
      refine ⟨⟨h.working, ?_⟩, ⟨le_refl _, le_refl _⟩⟩
      refine Table.forall_insert hinsert (by cases job <;> trivial) fun c hold => ?_
      exact (Later.mk (le_refl _) (le_refl _)).ok (h.calls c hold)
    · exact ⟨h, .refl s⟩
  | step id =>
    split
    next call hfind =>
      have hadvanced : s.Advanced id (s.advance id call.stage) :=
        advance_advanced h (h.calls call (Table.find_mem hfind))
      exact ⟨h.advanced hadvanced, hadvanced.later⟩
    · exact ⟨h, .refl s⟩
  | lost id ran =>
    split
    next call hfind =>
      have hlost : s.Advanced id (s.lose id ran call.stage) :=
        lose_advanced h (h.calls call (Table.find_mem hfind)) ran
      exact ⟨h.advanced hlost, hlost.later⟩
    · exact ⟨h, .refl s⟩
  | rollback id =>
    split
    · have hfailed : s.Advanced id (s.fail id .rolledBack) := .fail h trivial
      exact ⟨h.advanced hfailed, hfailed.later⟩
    · exact ⟨h, .refl s⟩
  | expireHash | expireFence =>
    exact ⟨⟨h.working, fun c hc => (Later.mk (le_refl _) (le_refl _)).ok (h.calls c hc)⟩,
      ⟨le_refl _, le_refl _⟩⟩

end

end AuthSystem

/-! ## Readers -/

/-- A call of `GetUserCache` that returns nothing below a version, which is in the database if
it is `advanced`. -/
def AuthStage.Reads (v : Int) (advanced : Prop) : AuthStage → Prop
  | .readHash | .hashFloor _ | .readUser => True
  | .userFloor user => advanced → v ≤ user.authVersion
  | .populate user | .returned (.user user) => v ≤ user.authVersion
  | .returned _ => True
  | _ => False

namespace AuthSystem

variable {s s' : AuthSystem} {id : Nat} {stage : AuthStage} {v : Int} {advanced : Prop}

def ReadsAt (s : AuthSystem) (id : Nat) (v : Int) (advanced : Prop) : Prop :=
  ∃ stage, s.calls.find id = some ⟨id, stage⟩ ∧ stage.Reads v advanced

theorem ReadsAt.goto (h : s.ReadsAt id v advanced) {stage' : AuthStage}
    (hcalls : s'.calls = s.calls.save ⟨id, stage'⟩) (hreads : stage'.Reads v advanced) :
    s'.ReadsAt id v advanced := by
  obtain ⟨stage, hfind, -⟩ := h
  refine ⟨stage', ?_, hreads⟩
  rw [hcalls]
  exact Table.find_save_self
    (show s.calls.find (⟨id, stage'⟩ : AuthCall).id = some ⟨id, stage⟩ from hfind)

theorem ReadsAt.reads (h : s.ReadsAt id v advanced) (hfind : s.calls.find id = some ⟨id, stage⟩) :
    stage.Reads v advanced := by
  obtain ⟨stage', hfind', hreads⟩ := h
  obtain rfl : stage' = stage := congrArg AuthCall.stage (Option.some.inj (hfind'.symm.trans hfind))
  exact hreads

theorem ReadsAt.advance (h : s.ReadsAt id v advanced) (hfind : s.calls.find id = some ⟨id, stage⟩)
    (hfloor : v ≤ s.store.floor) (hrow : advanced → v ≤ s.row.authVersion) :
    (s.advance id stage).ReadsAt id v advanced := by
  have hreads := h.reads hfind
  cases stage with simp only [AuthSystem.advance]
  | readHash =>
    split
    · split <;> exact h.goto rfl trivial
    · exact h.goto rfl trivial
  | hashFloor user | userFloor user =>
    split
    · exact h.goto rfl trivial
    next hpass => exact h.goto rfl (hfloor.trans (not_lt.mp hpass))
  | readUser =>
    split
    · exact h.goto rfl trivial
    · exact h.goto rfl hrow
  | populate user =>
    split
    · exact h.goto rfl hreads
    · split
      · exact h.goto rfl hreads
      · exact h.goto rfl trivial
  | returned result => exact h
  | _ => cases hreads

theorem ReadsAt.lose (h : s.ReadsAt id v advanced) (hfind : s.calls.find id = some ⟨id, stage⟩)
    (hadvanced : advanced) (ran : Bool) : (s.lose id ran stage).ReadsAt id v advanced := by
  have hreads := h.reads hfind
  cases stage with
  | readHash | hashFloor => exact h.goto rfl trivial
  | userFloor => exact h.goto rfl (hreads hadvanced)
  | populate => exact h.goto rfl hreads
  | readUser | returned => exact h
  | _ => cases hreads

theorem ReadsAt.other {id' : Nat} (h : s.ReadsAt id v advanced) (hne : id' ≠ id)
    (ha : s.Advanced id' s') : s'.ReadsAt id v advanced := by
  obtain ⟨stage, hfind, hreads⟩ := h
  refine ⟨stage, ?_, hreads⟩
  rcases ha.calls with hsame | ⟨stage', hsaved, -⟩
  · rw [hsame]
    exact hfind
  · rw [hsaved, Table.find_save_of_ne (show (⟨id', stage'⟩ : AuthCall).id ≠ id from hne)]
    exact hfind

theorem ReadsAt.step (h : s.ReadsAt id v advanced) (hs : s.Settled) (hfloor : v ≤ s.store.floor)
    (hrow : advanced → v ≤ s.row.authVersion) (a : AuthAction)
    (ha : ∀ ran, a = .lost id ran → advanced) : (s.step a).ReadsAt id v advanced := by
  cases a with simp only [AuthSystem.step]
  | call id' job =>
    split
    next calls hinsert =>
      obtain ⟨stage, hfind, hreads⟩ := h
      exact ⟨stage, Table.find_after_insert hinsert hfind, hreads⟩
    · exact h
  | step id' =>
    split
    next call hfind =>
      obtain ⟨callId, stage⟩ := call
      obtain rfl : callId = id' := Table.find_key hfind
      by_cases hid : callId = id
      · subst hid
        exact h.advance hfind hfloor hrow
      · exact h.other hid (advance_advanced hs (hs.calls _ (Table.find_mem hfind)))
    · exact h
  | lost id' ran =>
    split
    next call hfind =>
      obtain ⟨callId, stage⟩ := call
      obtain rfl : callId = id' := Table.find_key hfind
      by_cases hid : callId = id
      · subst hid
        exact h.lose hfind (ha ran rfl) ran
      · exact h.other hid (lose_advanced hs (hs.calls _ (Table.find_mem hfind)) ran)
    · exact h
  | rollback id' =>
    split
    · by_cases hid : id' = id
      · subst hid
        exact h.goto rfl trivial
      · exact h.other hid (.fail hs trivial)
    · exact h
  | expireHash => exact h
  | expireFence => exact h

theorem call_reads (hnew : s.calls.find id = none) (v : Int) (advanced : Prop) :
    (s.step (.call id .getUserCache)).ReadsAt id v advanced := by
  have hfree : s.calls.find (⟨id, .readHash⟩ : AuthCall).id = none := hnew
  obtain ⟨calls, hinsert⟩ := Option.isSome_iff_exists.mp (Table.insert_isSome hfree)
  refine ⟨.readHash, ?_, trivial⟩
  simp only [step, AuthJob.stage, hinsert]
  rw [Table.find_insert hinsert, if_pos rfl]

/-- What the states of a call of `GetUserCache` have to meet: the floor is not below the version,
and neither is the database, or Redis answers the call. -/
def Guarded (id : Nat) (v : Int) (advanced : Prop) (s : AuthSystem) (a : AuthAction) : Prop :=
  v ≤ s.store.floor ∧ (advanced → v ≤ s.row.authVersion) ∧ ∀ ran, a = .lost id ran → advanced

/-- Versions that are published stay so. -/
theorem Settled.guarded (h : s.Settled) (hrow : v ≤ s.row.authVersion)
    (hv : v ≤ s.store.committedVersion) (id : Nat) (as : List AuthAction) :
    Along AuthSystem.step (Guarded id v True) s as := by
  refine along_of_invariant (C := fun _ _ => True)
    (I := fun s : AuthSystem => s.Settled ∧ v ≤ s.row.authVersion ∧ v ≤ s.store.committedVersion)
    ?_ ⟨h, hrow, hv⟩ (along_of_forall (fun _ _ => trivial) s as)
  intro s a hs _
  obtain ⟨hsettled, hlater⟩ := hs.1.step a
  exact ⟨⟨hsettled, hs.2.1.trans hlater.row, hs.2.2.trans hlater.committed⟩,
    hs.2.2.trans s.store.committedVersion_le_floor, fun _ => hs.2.1, fun _ _ => trivial⟩

theorem Settled.reads (h : s.Settled) (hnew : s.calls.find id = none) {bs : List AuthAction}
    (hguarded : Along AuthSystem.step (Guarded id v advanced)
      (s.step (.call id .getUserCache)) bs) {user : UserBase}
    (huser : (run AuthSystem.step (s.step (.call id .getUserCache)) bs).calls.find id =
      some ⟨id, .returned (.user user)⟩) : v ≤ user.authVersion := by
  have hend : (run AuthSystem.step (s.step (.call id .getUserCache)) bs).Settled ∧
      (run AuthSystem.step (s.step (.call id .getUserCache)) bs).ReadsAt id v advanced :=
    run_invariant (I := fun s : AuthSystem => s.Settled ∧ s.ReadsAt id v advanced)
      (fun s a hs hg => ⟨(hs.1.step a).1, hs.2.step hs.1 hg.1 hg.2.1 a hg.2.2⟩)
      ⟨(h.step _).1, call_reads hnew v advanced⟩ hguarded
  exact hend.2.reads huser

/-- Nobody has called yet. -/
structure Initial (s : AuthSystem) : Prop where
  calls : s.calls.rows = []
  locked : s.locked = none

theorem Initial.settled (h : s.Initial) : s.Settled := by
  refine ⟨?_, ?_⟩
  · rw [h.locked]
    exact fun _ _ hnone => by cases hnone
  · rw [h.calls]
    exact fun c hc => absurd hc List.not_mem_nil

end AuthSystem

/-! ## Runs -/

theorem validateLoginSession_version {identity : AuthIdentity} {session : UserSession} {now : Int}
    {user : UserBase} (h : validateLoginSession identity session now user = true) :
    user.authVersion = identity.userAuthVersion := by
  simp only [validateLoginSession, Bool.and_eq_true, decide_eq_true_eq] at h
  exact h.2.2

def enabledUser : AuthSystem where
  row := ⟨"ada", "Ada", "", roleCommonUser, userStatusEnabled, "", "default", "", "", 0, 0, 1,
    false⟩
  locked := none
  store := ⟨none, none, none⟩
  calls := Table.empty

def disableUser : RestrictiveChange := ⟨fun row => { row with status := userStatusDisabled }, true⟩

def authSteps (id n : Nat) : List AuthAction := List.replicate n (.step id)

/-- A reader has filled the cache, and then the user is disabled. -/
def disabledUserRun : List AuthAction :=
  .call 1 .getUserCache :: authSteps 1 4 ++ .call 2 (.restrict disableUser) :: authSteps 2 6

/-- Along every run the version of the row and the committed version only rise, so that a version
that an operation has returned stays committed. -/
theorem auth_versions_rise {s : AuthSystem} (hs : s.Initial) (as bs : List AuthAction) :
    let t := run AuthSystem.step s as
    let u := run AuthSystem.step t bs
    t.row.authVersion ≤ u.row.authVersion ∧ t.store.committedVersion ≤ u.store.committedVersion ∧
      ∀ op v, t.calls.find op = some ⟨op, .returned (.advanced v)⟩ →
        v ≤ u.store.committedVersion := by
  intro t u
  have ht : t.Settled := run_invariant_of_step (fun _ a h => (h.step a).1) as hs.settled
  obtain ⟨-, hlater⟩ := run_invariant_of_step (I := fun u => u.Settled ∧ t.Later u)
    (fun _ a h => ⟨(h.1.step a).1, h.2.row.trans (h.1.step a).2.row,
      h.2.committed.trans (h.1.step a).2.committed⟩) bs ⟨ht, .refl t⟩
  exact ⟨hlater.row, hlater.committed, fun op v hop =>
    (ht.calls _ (Table.find_mem hop)).2.trans hlater.committed⟩

theorem disabledUserRun_rises :
    2 ≤ (run AuthSystem.step (run AuthSystem.step enabledUser disabledUserRun)
      (authSteps 3 2)).store.committedVersion :=
  (auth_versions_rise ⟨rfl, rfl⟩ disabledUserRun (authSteps 3 2)).2.2 2 2 rfl

end NewApi
