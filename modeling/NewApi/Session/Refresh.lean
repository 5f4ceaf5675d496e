import NewApi.Session.Revoked

/-!
# The refresh tokens of a login session

`RefreshLoginSession` derives the next secret from the one it is presented, so the secrets of a
session form a chain, and the row holds the digests of its last two members (`Linked`). `Moved`
lists what a step of a refresh can do: it waits, it is about to rotate, it has met a replay, or it
is granted the next secret.

A refresh asks the cache first and looks at the user before it looks at the secret. So a replay is
only met by a refresh that gets as far as the row, and a refresh of a session whose user has
changed revokes it whatever secret it presents.
-/

namespace NewApi.Session

/-! ## The chain -/

def Config.next (cfg : Config) (secret : String) : String :=
  cfg.deriveNextRefreshSecret cfg.sid secret

def System.Current (cfg : Config) (s : System) (secret : String) : Prop :=
  s.row.refreshHash = cfg.hashRefreshSecret secret

/-- The secret is the one before the current one. -/
def System.Predecessor (cfg : Config) (s : System) (secret : String) : Prop :=
  s.row.previousRefreshHash = cfg.hashRefreshSecret secret ∧ s.Current cfg (cfg.next secret)

/-- The row is at a place of the chain. -/
structure Chain (cfg : Config) (row : UserSession) : Prop where
  current : ∃ x, row.refreshHash = cfg.hashRefreshSecret x
  previous : row.previousRefreshHash = "" ∨
    ∃ x, row.previousRefreshHash = cfg.hashRefreshSecret x ∧
      row.refreshHash = cfg.hashRefreshSecret (cfg.next x)

/-- The rotation a refresh asks for. -/
structure Rotation.Of (cfg : Config) (secret : String) (r : Rotation) : Prop where
  caller : r.caller = .refresh secret
  presented : r.presentedHash = cfg.hashRefreshSecret secret
  next : r.nextHash = cfg.hashRefreshSecret (cfg.next secret)
  set : r.presentedHash ≠ ""

/-- The snapshots a call goes on with have the version of the row. -/
def AfterWrite.Linked (v : Int) : AfterWrite → Prop
  | .reuseFence _ session => session.version = v
  | .revokeFence _ candidate => candidate.version = v
  | .hashFence _ session => session.version = v
  | _ => True

/-- The rotations in flight are those of refreshes, the snapshots have the version of the row
and nobody changes it. -/
def Stage.Linked (cfg : Config) (v : Int) : Stage → Prop
  | .judgeSession _ _ session => session.version = v
  | .write _ entry _ next => entry.version = v ∧ next.Linked v
  | .rotateTry r _ => ∃ x, r.Of cfg x
  | .rotateRead r _ _ => ∃ x, r.Of cfg x
  | .rotateWrite r _ session _ =>
    (∃ x, r.Of cfg x) ∧ session.refreshHash = r.presentedHash ∧ session.version = v
  | .reuseWrite _ session => session.version = v
  | .touchWrite _ _ session _ => session.version = v
  | .revokeWrite _ candidate => candidate.version = v
  | .hashWrite _ session => session.version = v
  | .advance _ => False
  | .advanceNow _ _ => False
  | .advanceWrite _ _ _ => False
  | _ => True

structure System.Linked (cfg : Config) (v : Int) (s : System) : Prop where
  version : s.row.version = v
  positive : 0 < v
  cached : ∀ c ∈ s.cache, c.entry.version ≤ v
  chain : Chain cfg s.row
  calls : ∀ call ∈ s.calls.rows, call.stage.Linked cfg v

/-- The calls of the chain: no digest is rotated but by a refresh, and no version changes. -/
def Job.inChain : Job → Bool
  | .rotateUserSessionRefresh _ _ _ _ _ => false
  | .advanceUserSessionAuthVersion _ => false
  | _ => true

def Action.inChain : Action → Bool
  | .call _ job => job.inChain
  | _ => true

section Links

variable {cfg : Config} {v : Int} {s : System} {id : Nat}

theorem Stage.Simple.linked {stage : Stage} (h : stage.Simple) : stage.Linked cfg v := by
  cases h <;> trivial

theorem AfterWrite.resume_linked {next : AfterWrite} (h : next.Linked v) (result : Option Err) :
    (next.resume cfg result).Linked cfg v := by
  cases next with
  | fill f session =>
    cases result with
    | none => exact (fillReturned_simple session f).linked
    | some e => exact (fillError_simple session e f).linked
  | denied caller => exact (getReturned_simple (.error .inactive) caller).linked
  | reuseFence r session =>
    cases result with
    | none => exact h
    | some e => exact (rotateFailed_simple e r.caller).linked
  | reuseTombstone r => exact (rotateFailed_simple .refreshReuse r.caller).linked
  | revokeFence r candidate =>
    cases result with
    | none => exact h
    | some e => exact (revokeFailed_simple e r.caller).linked
  | hashFence r session =>
    cases result with
    | none => exact h
    | some e => trivial
  | tombstone r =>
    simp only [resume]
    cases r.caller <;> trivial
  | bulkFence => cases result <;> trivial
  | bulkTombstone => trivial

theorem Job.stage_linked {job : Job} (h : job.inChain = true) (clock : Int) :
    (job.stage clock).Linked cfg v := by
  cases job with
  | getUserSessionCached | revokeUserSession | revokeUserSessions => trivial
  | refreshLoginSession | touchUserSessionPresence | revokeUserSessionByRefreshHash =>
    simp only [Job.stage]
    split <;> trivial
  | rotateUserSessionRefresh | advanceUserSessionAuthVersion => cases h

variable {stage : Stage}

theorem System.Linked.goto (h : s.Linked cfg v) (hs : stage.Linked cfg v) :
    ∀ call ∈ (s.calls.save ⟨id, stage⟩).rows, call.stage.Linked cfg v :=
  Table.forall_save hs fun call hold _ => h.calls call hold

theorem Chain.of_same {row row' : UserSession} (h : Chain cfg row)
    (hr : row'.refreshHash = row.refreshHash)
    (hp : row'.previousRefreshHash = row.previousRefreshHash) : Chain cfg row' :=
  ⟨hr ▸ h.current, hr ▸ hp ▸ h.previous⟩

section

variable (h : s.Linked cfg v) (hstage : stage.Linked cfg v)

include h hstage

/-- A rotation moves the row one place on, and every other update leaves it in its place. -/
theorem System.Linked.row {row : UserSession} (hc : s.RowChange stage row) :
    row.version = v ∧ Chain cfg row := by
  cases hc with
  | same => exact ⟨h.version, h.chain⟩
  | touched | revoked => exact ⟨h.version, h.chain.of_same rfl rfl⟩
  | advanced => cases hstage
  | rotated live current =>
    obtain ⟨⟨x, hx⟩, hsession, -⟩ := hstage
    exact ⟨h.version, ⟨_, hx.next⟩, .inr ⟨x, hsession.trans hx.presented, hx.next⟩⟩

theorem System.Linked.cache : ∀ c ∈ (s.advance cfg id stage).cache, c.entry.version ≤ v := by
  rcases @System.advance_cache cfg s id stage with hsame | ⟨p, e, entry, d, next, rfl, hscript⟩
  · rw [hsame]
    exact h.cached
  intro c hc
  rcases cacheScript_some hscript with ⟨-, -, hcache⟩ | ⟨-, hcache⟩ <;> rw [hcache] at hc
  · split at hc
    · cases hc
    · cases hc
      exact hstage.1.le
  · cases hc
    exact hstage.1.le

theorem System.Linked.advance_calls :
    ∀ call ∈ (s.advance cfg id stage).calls.rows, call.stage.Linked cfg v := by
  have hv := h.version
  cases stage with simp only [System.advance]
  | write w entry d next =>
    cases w with
    | complete => exact h.goto (AfterWrite.resume_linked hstage.2 _)
    | prepare | script =>
      simp only [System.advanceWrite]
      split
      · exact h.goto (AfterWrite.resume_linked hstage.2 _)
      · exact h.goto hstage
  | readCache | readUserCache | readUser =>
    split <;> exact h.goto trivial
  | judgeCached caller entry =>
    split
    · exact h.goto trivial
    split <;> exact h.goto (getReturned_simple _ caller).linked
  | missed | touch | revoke | revokeByHash | revokeAll | hashRollback =>
    exact h.goto trivial
  | readSession => exact h.goto hv
  | judgeSession caller d session =>
    split <;> exact h.goto ⟨hstage, trivial⟩
  | confirm fill session =>
    split
    · exact h.goto (fillFailed_simple _ fill).linked
    split
    · exact h.goto (fillReturned_simple session fill).linked
    · exact h.goto (fillFailed_simple _ fill).linked
  | derive secret =>
    split
    · exact h.goto (rotateFailed_simple _ _).linked
    next hargs => exact h.goto ⟨secret, rfl, rfl, rfl, fun he => hargs (.inl he)⟩
  | rotateTry r tries =>
    cases tries with
    | zero => exact h.goto (rotateFailed_simple _ r.caller).linked
    | succ tries => exact h.goto hstage
  | rotateRead r tries d =>
    split
    · exact h.goto (rotateFailed_simple _ r.caller).linked
    split
    next hcurrent => exact h.goto ⟨hstage, hcurrent, hv⟩
    split
    · exact h.goto (rotateFailed_simple _ r.caller).linked
    split
    · exact h.goto (rotateRaced_simple _ r.caller).linked
    · exact h.goto ⟨hv, hv⟩
  | rotateWrite r tries session d =>
    split
    · exact h.calls
    split
    · exact h.goto ⟨hstage.2.2, trivial⟩
    · exact h.goto hstage.1
  | reuseWrite r session =>
    split
    · exact h.calls
    split
    · exact h.goto ⟨hstage, trivial⟩
    · exact h.goto (rotateFailed_simple _ r.caller).linked
  | touchRead =>
    split
    · exact h.goto trivial
    split
    · exact h.goto trivial
    · exact h.goto hv
  | touchWrite =>
    split
    · exact h.calls
    split
    · exact h.goto ⟨hstage, trivial⟩
    · exact h.goto trivial
  | advance | advanceNow | advanceWrite => cases hstage
  | revokeRead r =>
    split
    · exact h.goto ⟨hv, hv⟩
    · exact h.goto (notRevoked_simple r.caller).linked
  | revokeWrite r candidate =>
    split
    · exact h.calls
    split
    · exact h.goto ⟨hstage, trivial⟩
    · exact h.goto (notRevoked_simple r.caller).linked
  | hashLock hash r =>
    split
    · exact h.calls
    split
    · exact h.goto ⟨hv, hv⟩
    · exact h.goto (notRevoked_simple r.caller).linked
  | hashWrite r session =>
    split
    · exact h.goto ⟨hstage, trivial⟩
    · exact h.goto (notRevoked_simple r.caller).linked
  | bulkRead =>
    split
    · exact h.goto ⟨hv, trivial⟩
    · exact h.goto trivial
  | bulkWrite =>
    split
    · exact h.calls
    split
    · exact h.goto ⟨hv, trivial⟩
    · exact h.goto trivial
  | returned => exact h.calls

end

theorem System.Linked.step (h : s.Linked cfg v) {a : Action} (ha : a.inChain = true) :
    (s.step cfg a).Linked cfg v := by
  cases a with simp only [System.step]
  | call id job =>
    split
    next calls hins =>
      refine ⟨h.version, h.positive, h.cached, h.chain, ?_⟩
      exact Table.forall_insert hins (Job.stage_linked ha s.clock) h.calls
    · exact h
  | step id =>
    split
    next call hfind =>
      have hstage := h.calls call (Table.find_mem hfind)
      obtain ⟨hversion, hchain⟩ := h.row hstage (System.advance_row call.stage)
      exact ⟨hversion, h.positive, h.cache hstage, hchain, h.advance_calls hstage⟩
    · exact h
  | tick | userChanges => exact ⟨h.version, h.positive, h.cached, h.chain, h.calls⟩

end Links

/-! ## The phases of a refresh -/

/-- How far a refresh has come: it waits, it is about to rotate the row, it has met a replay
at a time it has read, or it is granted the next secret. -/
inductive Phase
  | waiting | rotating
  | replaying (now : Int)
  | granted
deriving DecidableEq

def Fill.phase : Fill → Phase
  | .rotate _ => .granted
  | _ => .waiting

def AfterWrite.phase : AfterWrite → Phase
  | .fill f _ => f.phase
  | .reuseFence r _ => .replaying r.now
  | _ => .waiting

def Stage.phase : Stage → Phase
  | .write _ _ _ next => next.phase
  | .confirm fill _ => fill.phase
  | .rotateWrite _ _ _ _ => .rotating
  | .reuseWrite r _ => .replaying r.now
  | .returned (.refreshed _) => .granted
  | _ => .waiting

def System.phase (s : System) (k : Nat) : Phase :=
  match s.calls.find k with
  | some call => call.stage.phase
  | none => .waiting

def userSecurityChanged : String := "user_security_changed"

section Tracks

/-- The refresh is about to look at the user, who does not fit the session it has read. -/
def System.Unfit (s : System) (k : Nat) : Prop :=
  match s.calls.find k with
  | some ⟨_, .readUserCache _ session⟩ => s.cachedUser.fits session = false
  | some ⟨_, .readUser _ session _⟩ => s.user.fits session = false
  | _ => False

variable (cfg : Config) (x : String) (began : Int) (seen : Prop)

/-- The rotation of a refresh that began at a time. -/
structure Rotation.Tracks (r : Rotation) : Prop where
  of : r.Of cfg x
  began : began ≤ r.now

def Fill.Tracks : Fill → Prop
  | .get caller => caller = .refresh x
  | .rotate r => r.Tracks cfg x began
  | _ => False

/-- The revocation a refresh asks for when the user does not fit: `seen` says that it saw so. -/
structure Revocation.Tracks (r : Revocation) : Prop where
  caller : r.caller = .refresh x
  reason : r.reason = userSecurityChanged
  unfit : seen

def AfterWrite.Tracks (entry : UserSession) : AfterWrite → Prop
  | .fill f _ => f.Tracks cfg x began
  | .denied caller => caller = .refresh x
  | .reuseFence r _ => r.Tracks cfg x began ∧ entry.status ≠ .active
  | .reuseTombstone r => r.Tracks cfg x began
  | .revokeFence r _ => r.Tracks x seen
  | .tombstone r => r.Tracks x seen
  | _ => False

/-- The stages of a refresh that presents the secret `x`. -/
def Stage.Tracks : Stage → Prop
  | .readCache caller => caller = .refresh x
  | .judgeCached caller _ => caller = .refresh x
  | .missed caller => caller = .refresh x
  | .readSession caller _ => caller = .refresh x
  | .judgeSession caller _ _ => caller = .refresh x
  | .write _ entry _ next => next.Tracks cfg x began seen entry
  | .confirm fill _ => fill.Tracks cfg x began
  | .readUserCache secret _ => secret = x
  | .readUser secret _ fits => secret = x ∧ (fits = false → seen)
  | .derive secret => secret = x
  | .rotateTry r _ => r.Tracks cfg x began
  | .rotateRead r _ _ => r.Tracks cfg x began
  | .rotateWrite r _ _ _ => r.Tracks cfg x began
  | .reuseWrite r _ => r.Tracks cfg x began
  | .revoke caller reason => caller = .refresh x ∧ reason = userSecurityChanged ∧ seen
  | .revokeRead r => r.Tracks x seen
  | .revokeWrite r _ => r.Tracks x seen
  | .returned (.refreshed secret) => secret = cfg.next x
  | .returned (.refreshFailed _) => True
  | _ => False

/-- What a step of the refresh can do: the row it leaves and the phases before and after. -/
inductive Moved (u : System) (row : UserSession) : Phase → Phase → Prop
  | stay {p : Phase} (same : row = u.row) : Moved u row p p
  | lose (same : row = u.row) : Moved u row .rotating .waiting
  | drop (same : row = u.row) : Moved u row .granted .waiting
  | secured {now : Int} (unfit : seen) (changed : row = revokedWith u.row now userSecurityChanged) :
      Moved u row .waiting .waiting
  | found (current : u.Current cfg x) (same : row = u.row) : Moved u row .waiting .rotating
  | raced (predecessor : u.Predecessor cfg x) (inTime : began ≤ u.row.previousValidUntil)
      (active : u.row.status = .active) (same : row = u.row) : Moved u row .waiting .granted
  | met {now : Int} (previous : u.row.previousRefreshHash = cfg.hashRefreshSecret x)
      (set : u.row.previousRefreshHash ≠ "") (same : row = u.row) :
      Moved u row .waiting (.replaying now)
  | rotated (current : u.Current cfg x) (active : u.row.status = .active) :
      Moved u row .rotating .granted
  | revoked {now : Int} (revoked : row.status = .revoked) : Moved u row (.replaying now) .waiting
  | ended {now : Int} (dead : u.row.live now = false) (same : row = u.row) :
      Moved u row (.replaying now) .waiting

/-- After its step the call `k` is a refresh of `x` in a phase it can have moved to. -/
def Goes (u : System) (k : Nat) (p : Phase) (t : System) : Prop :=
  ∃ stage, t.calls.find k = some ⟨k, stage⟩ ∧ stage.Tracks cfg x began seen ∧
    Moved cfg x began seen u t.row p stage.phase

end Tracks

section Phases

variable {cfg : Config} {x : String} {began : Int} {seen : Prop}

theorem getReturned_tracks (result : Except Err UserSession) :
    (getReturned result (.refresh x)).Tracks cfg x began seen ∧
      (getReturned result (.refresh x)).phase = .waiting := by
  cases result with
  | ok session => exact ⟨rfl, rfl⟩
  | error e => cases e <;> exact ⟨trivial, rfl⟩

theorem rotateFailed_tracks (e : Err) : (rotateFailed e (.refresh x)).Tracks cfg x began seen ∧
    (rotateFailed e (.refresh x)).phase = .waiting := by
  cases e <;> exact ⟨trivial, rfl⟩

variable {f : Fill}

theorem fillReturned_tracks (session : UserSession) (h : f.Tracks cfg x began) :
    (fillReturned cfg session f).Tracks cfg x began seen ∧
      (fillReturned cfg session f).phase = f.phase := by
  cases f with
  | get caller =>
    cases h
    exact getReturned_tracks (.ok session)
  | rotate r =>
    simp only [fillReturned, h.of.caller, rotateReturned]
    exact ⟨rfl, rfl⟩
  | touch | advance => cases h

theorem fillFailed_tracks (e : Err) (h : f.Tracks cfg x began) :
    (fillFailed e f).Tracks cfg x began seen ∧ (fillFailed e f).phase = .waiting := by
  cases f with
  | get caller =>
    cases h
    exact getReturned_tracks (.error e)
  | rotate r =>
    simp only [fillFailed, h.of.caller]
    exact rotateFailed_tracks e
  | touch | advance => cases h

variable {u : System} {next : AfterWrite} {entry : UserSession} {stage : Stage}

theorem Moved.failed  : Moved cfg x began seen u u.row f.phase .waiting := by
  cases f with
  | rotate => exact .drop rfl
  | get | touch | advance => exact .stay rfl

/-- The step after a write. The fence of a replay is always written. -/
theorem AfterWrite.resume_tracks {result : Option Err} (h : next.Tracks cfg x began seen entry)
    (hfence : ∀ r session, next = .reuseFence r session → result = none) :
    (next.resume cfg result).Tracks cfg x began seen ∧
      Moved cfg x began seen u u.row next.phase (next.resume cfg result).phase := by
  cases next with
  | fill f session =>
    obtain ⟨hreturned, hphase⟩ := fillReturned_tracks session h
    cases result with
    | none => exact ⟨hreturned, hphase ▸ .stay rfl⟩
    | some e =>
      obtain ⟨hfailed, hwaiting⟩ := fillFailed_tracks .inactive h
      simp only [resume, fillError]
      split
      · cases h
      · exact ⟨h, .stay rfl⟩
      · exact ⟨hfailed, hwaiting ▸ .failed⟩
      · cases h
      · exact ⟨hreturned, hphase ▸ .stay rfl⟩
  | denied caller =>
    cases h
    obtain ⟨hreturned, hwaiting⟩ := @getReturned_tracks cfg x began seen (.error .inactive)
    exact ⟨hreturned, .stay rfl⟩
  | reuseFence r session =>
    cases hfence r session rfl
    exact ⟨h.1, .stay rfl⟩
  | reuseTombstone r =>
    simp only [resume, h.of.caller]
    exact ⟨trivial, .stay rfl⟩
  | revokeFence r candidate =>
    cases result with
    | none => exact ⟨h, .stay rfl⟩
    | some e =>
      simp only [resume, h.caller]
      exact ⟨trivial, .stay rfl⟩
  | tombstone r =>
    simp only [resume, h.caller]
    exact ⟨trivial, .stay rfl⟩
  | hashFence | bulkFence | bulkTombstone => cases h

variable {u u' : System} {k : Nat} {v : Int}

theorem Goes.goto {p : Phase} {call : Call}
    (hfind : u.calls.find k = some call) (ht : stage.Tracks cfg x began seen)
    (hm : Moved cfg x began seen u u'.row p stage.phase := by exact .stay rfl)
    (hcalls : u'.calls = u.calls := by rfl) : Goes cfg x began seen u k p (u'.goto k stage) :=
  ⟨stage, Table.find_save_self (hcalls ▸ hfind), ht, hm⟩

theorem Goes.blocked  (hfind : u.calls.find k = some ⟨k, stage⟩)
    (ht : stage.Tracks cfg x began seen) : Goes cfg x began seen u k stage.phase u :=
  ⟨stage, hfind, ht, .stay rfl⟩

/-- No cached entry is newer than the row, so no denial is refused for its version. -/
theorem System.Linked.cachedVersion_le (hl : u.Linked cfg v) : u.cachedVersion ≤ v := by
  have hpos := hl.positive
  unfold System.cachedVersion
  cases h : lookup u.cache u.clock with
  | none => exact hpos.le
  | some entry =>
    obtain ⟨c, hc, rfl, -⟩ := lookup_some h
    exact hl.cached c hc

theorem System.Linked.goes_write (hl : u.Linked cfg v) {w : Write} {d : Option Int}
    (hfind : u.calls.find k = some ⟨k, .write w entry d next⟩)
    (ht : next.Tracks cfg x began seen entry) :
    Goes cfg x began seen u k next.phase (u.advanceWrite cfg k entry d next w) := by
  have hversion : entry.version = v := (hl.calls _ (Table.find_mem hfind)).1
  have hdenial : ∀ r session, next = .reuseFence r session → entry.status ≠ .active := by
    rintro r session rfl
    exact ht.2
  cases w with simp only [System.advanceWrite]
  | prepare =>
    split
    next e he =>
      obtain ⟨htracks, hmoved⟩ := @AfterWrite.resume_tracks cfg x began seen u next entry
        (some e) ht
        fun r session hnext => by simp [cacheExpiration, hdenial r session hnext] at he
      exact .goto hfind htracks hmoved
    · exact .goto hfind ht
  | script p e =>
    split
    next hrefused =>
      obtain ⟨htracks, hmoved⟩ := @AfterWrite.resume_tracks cfg x began seen u next entry
        (some .inactive) ht fun r session hnext => by
          rw [cacheScript_denial (hdenial r session hnext)] at hrefused
          · cases hrefused
          · exact hversion ▸ hl.cachedVersion_le
      exact .goto hfind htracks hmoved
    next cache haccepted =>
      exact .goto hfind ht
  | complete =>
    obtain ⟨htracks, hmoved⟩ := @AfterWrite.resume_tracks cfg x began seen u next entry
      (writeCompleted u.clock entry d) ht
      fun r session hnext => by simp [writeCompleted, hdenial r session hnext]
    exact .goto hfind htracks hmoved

theorem System.Linked.goes (hl : u.Linked cfg v)
    (hfind : u.calls.find k = some ⟨k, stage⟩) (ht : stage.Tracks cfg x began seen)
    (hb : began ≤ unix u.clock) (hseen : u.Unfit k → seen) :
    Goes cfg x began seen u k stage.phase (u.advance cfg k stage) := by
  cases stage with simp only [System.advance]
  | write w entry d next => exact hl.goes_write hfind ht
  | readCache caller =>
    split <;> exact .goto hfind ht
  | judgeCached caller entry =>
    cases ht
    split
    · exact .goto hfind rfl
    split
    · exact .goto hfind rfl
    · exact .goto hfind trivial
  | missed | readSession => exact .goto hfind ht
  | judgeSession caller d session =>
    cases ht
    split <;> exact .goto hfind rfl
  | confirm fill session =>
    split
    · obtain ⟨htracks, hphase⟩ := fillFailed_tracks .invalid ht
      exact .goto hfind htracks (hphase ▸ .failed)
    split
    · obtain ⟨htracks, hphase⟩ := fillReturned_tracks session ht
      exact .goto hfind htracks (hphase ▸ .stay rfl)
    · obtain ⟨htracks, hphase⟩ := fillFailed_tracks .inactive ht
      exact .goto hfind htracks (hphase ▸ .failed)
  | readUserCache secret session =>
    split
    · exact .goto hfind ⟨ht, fun hfits => hseen (by simpa only [System.Unfit, hfind] using hfits)⟩
    · exact .goto hfind trivial
  | readUser secret session fits =>
    obtain ⟨rfl, hcached⟩ := ht
    split
    · exact .goto hfind rfl
    next hfits =>
      refine .goto hfind ⟨rfl, rfl, ?_⟩
      cases fits with
      | false => exact hcached rfl
      | true => exact hseen (by simpa [System.Unfit, hfind] using hfits)
  | derive secret =>
    cases ht
    split
    · exact .goto hfind trivial
    next hargs =>
      exact .goto hfind ⟨⟨rfl, rfl, rfl, fun he => hargs (.inl he)⟩, hb⟩
  | rotateTry r tries =>
    cases tries with
    | zero =>
      simp only [ht.of.caller]
      exact .goto hfind trivial
    | succ tries => exact .goto hfind ht
  | rotateRead r tries d =>
    simp only [ht.of.caller, ht.of.presented]
    split
    · exact .goto hfind trivial
    next hlive =>
    have hactive := System.active_of_live (by simpa using hlive)
    split
    next hcurrent => exact .goto hfind ht (.found hcurrent rfl)
    split
    · exact .goto hfind trivial
    next hprevious =>
    simp only [not_or, not_not] at hprevious
    split
    next htime =>
      simp only [rotateRaced]
      split
      next hnext =>
        exact .goto hfind rfl
          (.raced ⟨hprevious.2, hnext.symm⟩ (ht.began.trans htime) hactive rfl)
      · exact .goto hfind trivial
    · exact .goto hfind ⟨ht, fun hs => by cases hs⟩ (.met hprevious.2 hprevious.1 rfl)
  | rotateWrite r tries session d =>
    split
    · exact .blocked hfind ht
    split
    next hlive =>
      simp only [Bool.and_eq_true, decide_eq_true_eq] at hlive
      exact .goto hfind ht (.rotated (hlive.2.trans ht.of.presented)
        (System.active_of_live hlive.1))
    · exact .goto hfind ht (.lose rfl)
  | reuseWrite r session =>
    split
    · exact .blocked hfind ht
    split
    · exact .goto hfind ht (.revoked rfl)
    next hlive =>
      simp only [ht.of.caller]
      exact .goto hfind trivial (.ended (by simpa using hlive) rfl)
  | revoke caller reason => exact .goto hfind ⟨ht.1, ht.2.1, ht.2.2⟩
  | revokeRead r =>
    split
    · exact .goto hfind ht
    · simp only [ht.caller]
      exact .goto hfind trivial
  | revokeWrite r candidate =>
    split
    · exact .blocked hfind ht
    split
    · exact .goto hfind ht (.secured ht.unfit (by rw [← ht.reason]; rfl))
    · simp only [ht.caller]
      exact .goto hfind trivial
  | returned result =>
    exact .blocked hfind ht
  | touch | touchRead | touchWrite | advance | advanceNow | advanceWrite | revokeByHash
  | hashLock | hashWrite | hashRollback | revokeAll | bulkRead | bulkWrite => cases ht

end Phases

/-! ## Runs of a refresh -/

open Runs

/-- The call `k` is a refresh of `x` that began at a time. -/
structure System.Tracked (cfg : Config) (x : String) (began : Int) (seen : Prop) (k : Nat) (v : Int)
    (s : System) : Prop where
  linked : s.Linked cfg v
  started : began ≤ unix s.clock
  call : ∃ stage, s.calls.find k = some ⟨k, stage⟩ ∧ stage.Tracks cfg x began seen

section Runs

variable {cfg : Config} {x : String} {began v : Int} {seen : Prop} {k : Nat} {s : System}

theorem System.phase_of_find {stage : Stage} (h : s.calls.find k = some ⟨k, stage⟩) :
    s.phase k = stage.phase := by
  simp [System.phase, h]

theorem System.phase_goto {call : Call} {stage : Stage} (h : s.calls.find k = some call) :
    (s.goto k stage).phase k = stage.phase :=
  System.phase_of_find (Table.find_save_self h)

theorem System.Tracked.step (h : s.Tracked cfg x began seen k v) {a : Action}
    (ha : a.inChain = true) (hseen : s.Unfit k → seen) :
    (s.step cfg a).Tracked cfg x began seen k v ∧
      (Moved cfg x began seen s (s.step cfg a).row (s.phase k) ((s.step cfg a).phase k) ∨
        a ≠ .step k ∧ (s.step cfg a).phase k = s.phase k) := by
  obtain ⟨stage, hfind, htracks⟩ := h.call
  have hlinked : (s.step cfg a).Linked cfg v := h.linked.step ha
  have hbegan : began ≤ unix (s.step cfg a).clock :=
    h.started.trans (Int.ediv_le_ediv (by decide) (System.clock_step a))
  by_cases hk : a = .step k
  · subst hk
    have hstep : s.step cfg (.step k) = s.advance cfg k stage := by simp only [System.step, hfind]
    obtain ⟨stage', hfind', htracks', hmoved⟩ := h.linked.goes hfind htracks h.started hseen
    rw [← hstep] at hfind' hmoved
    refine ⟨⟨hlinked, hbegan, stage', hfind', htracks'⟩, .inl ?_⟩
    rw [System.phase_of_find hfind, System.phase_of_find hfind']
    exact hmoved
  · rcases @System.find_step cfg s k _ hfind a with hkept | ⟨hstep, -⟩
    · refine ⟨⟨hlinked, hbegan, stage, hkept, htracks⟩, .inr ⟨hk, ?_⟩⟩
      rw [System.phase_of_find hfind, System.phase_of_find hkept]
    · exact absurd hstep hk

/-- The secret is the current one, or its predecessor in the grace window. -/
def System.Accepts (cfg : Config) (x : String) (began : Int) (u : System) : Prop :=
  u.Current cfg x ∨ (u.Predecessor cfg x ∧ began ≤ u.row.previousValidUntil)

variable (bs : List Action) (h : s.Tracked cfg x began True k v) (hb : ∀ a ∈ bs, a.inChain = true)

include h hb

theorem System.Tracked.after : (run (System.step cfg) s bs).Tracked cfg x began True k v :=
  run_invariant (C := fun _ a => a.inChain = true)
    (fun s _ (h : s.Tracked cfg x began True k v) ha => (h.step ha fun _ => trivial).1) h
    (along_of_mem (fun a ha _ => hb a ha) s)

/-- What a step of the run does to the phase. -/
theorem System.Tracked.moved {cs ds : List Action} {a : Action} (hbs : bs = cs ++ a :: ds) :
    let u := run (System.step cfg) s cs
    Moved cfg x began True u (u.step cfg a).row (u.phase k) ((u.step cfg a).phase k) ∨
      (u.step cfg a).phase k = u.phase k := by
  subst hbs
  have hu := h.after cs fun b hmem => hb b (List.mem_append_left _ hmem)
  exact (hu.step (hb a (by simp)) fun _ => trivial).2.imp_right And.right

theorem System.Tracked.accepted
    (hstart : s.phase k ≠ .granted) (hend : (run (System.step cfg) s bs).phase k = .granted) :
    ∃ cs, cs <+: bs ∧ (run (System.step cfg) s cs).Accepts cfg x began ∧
      (run (System.step cfg) s cs).row.status = .active := by
  obtain ⟨cs, a, ds, hbs, hbefore, hafter⟩ :=
    exists_step (I := fun u : System => u.phase k = .granted) hstart hend
  refine ⟨cs, ⟨a :: ds, hbs.symm⟩, ?_⟩
  have hmove := h.moved bs hb hbs
  dsimp only at hmove
  rw [hafter] at hmove
  generalize (run (System.step cfg) s cs).phase k = p at hmove hbefore
  rcases hmove with hmoved | hsame
  · cases hmoved with
    | stay => exact absurd rfl hbefore
    | raced predecessor inTime active => exact ⟨.inr ⟨predecessor, inTime⟩, active⟩
    | rotated current active => exact ⟨.inl current, active⟩
  · exact absurd hsame.symm hbefore

omit h hb in
theorem not_live_of_revoked {row : UserSession} (h : row.status = .revoked) (now : Int) :
    row.live now = false := by
  simp [UserSession.live, h]

theorem System.Tracked.replayed {now : Int} (hphase : s.phase k = .replaying now)
    (hend : ((run (System.step cfg) s bs).result k).isSome) :
    ∃ cs, cs <+: bs ∧ (run (System.step cfg) s cs).row.live now = false := by
  have hleft : (run (System.step cfg) s bs).phase k ≠ .replaying now := by
    obtain ⟨stage, hfind, -⟩ := (h.after bs hb).call
    rw [System.phase_of_find hfind]
    simp only [System.result, hfind] at hend
    cases stage with
    | returned result => cases result <;> exact Phase.noConfusion
    | _ => cases hend
  obtain ⟨cs, a, ds, hbs, hbefore, hafter⟩ :=
    exists_step (I := fun u : System => u.phase k ≠ .replaying now) (not_not.mpr hphase) hleft
  have hmove := h.moved bs hb hbs
  dsimp only at hmove
  rw [not_not.mp hbefore] at hmove
  generalize ((run (System.step cfg) s cs).step cfg a).phase k = p at hmove hafter
  rcases hmove with hmoved | hsame
  · cases hmoved with
    | stay => exact absurd rfl hafter
    | revoked hrevoked =>
      refine ⟨cs ++ [a], ⟨ds, by rw [hbs, List.append_assoc]; rfl⟩, ?_⟩
      rw [run_append]
      exact not_live_of_revoked hrevoked now
    | ended dead => exact ⟨cs, ⟨a :: ds, hbs.symm⟩, dead⟩
  · exact absurd hsame hafter

omit h hb

theorem System.Linked.predecessor (h : s.Linked cfg v)
    (hinj : Function.Injective cfg.hashRefreshSecret)
    (hprev : s.row.previousRefreshHash = cfg.hashRefreshSecret x)
    (hset : s.row.previousRefreshHash ≠ "") : s.Predecessor cfg x := by
  rcases h.chain.previous with hempty | ⟨y, hy, hnext⟩
  · exact absurd hempty hset
  · obtain rfl : x = y := hinj (hprev.symm.trans hy)
    exact ⟨hy, hnext⟩

/-- A step of a refresh of such a secret leaves the row, but for the revocation when the
user does not fit. -/
theorem System.Tracked.unknown (h : s.Tracked cfg x began seen k v)
    (hinj : Function.Injective cfg.hashRefreshSecret)
    (hother : ¬s.Current cfg x ∧ ¬s.Predecessor cfg x) (hphase : s.phase k = .waiting)
    {row : UserSession} {p : Phase} (hmoved : Moved cfg x began seen s row (s.phase k) p) :
    p = .waiting ∧
      (row = s.row ∨ ((∃ now, row = revokedWith s.row now userSecurityChanged) ∧ seen)) := by
  rw [hphase] at hmoved
  cases hmoved with
  | stay same => exact ⟨rfl, .inl same⟩
  | secured unfit changed => exact ⟨rfl, .inr ⟨⟨_, changed⟩, unfit⟩⟩
  | found current => exact absurd current hother.1
  | raced predecessor => exact absurd predecessor hother.2
  | met previous set => exact absurd (h.linked.predecessor hinj previous set) hother.2

include hb in
/-- A refresh of a secret that is not of the last two waits. -/
theorem System.Tracked.waits (h : s.Tracked cfg x began seen k v)
    (hinj : Function.Injective cfg.hashRefreshSecret) (hphase : s.phase k = .waiting)
    (hseen : ∀ cs, cs <+: bs → (run (System.step cfg) s cs).Unfit k → seen)
    (hother : ∀ cs, cs <+: bs → ¬(run (System.step cfg) s cs).Current cfg x ∧
      ¬(run (System.step cfg) s cs).Predecessor cfg x) :
    (run (System.step cfg) s bs).Tracked cfg x began seen k v ∧
      (run (System.step cfg) s bs).phase k = .waiting := by
  induction bs generalizing s with
  | nil => exact ⟨h, hphase⟩
  | cons a bs ih =>
    obtain ⟨hnext, hmove⟩ := h.step (hb a List.mem_cons_self) (hseen [] List.nil_prefix)
    refine ih (List.forall_mem_cons.mp hb).2 hnext ?_
      (fun cs hcs => hseen (a :: cs) (List.cons_prefix_cons.mpr ⟨rfl, hcs⟩))
      (fun cs hcs => hother (a :: cs) (List.cons_prefix_cons.mpr ⟨rfl, hcs⟩))
    rcases hmove with hmoved | ⟨-, hsame⟩
    · exact (h.unknown hinj (hother [] List.nil_prefix) hphase hmoved).1
    · exact hsame.trans hphase

end Runs

/-! ## The chain of refreshes -/

/-- A new session: nothing has been called, the row has its first digest, and no cached entry
is newer than it. -/
structure System.NewSession (cfg : Config) (s : System) : Prop where
  calls : s.calls = .empty
  secret : ∃ x, s.row.refreshHash = cfg.hashRefreshSecret x
  previous : s.row.previousRefreshHash = ""
  version : 0 < s.row.version
  cached : ∀ c ∈ s.cache, c.entry.version ≤ s.row.version

theorem System.NewSession.linked {cfg : Config} {s : System} (h : s.NewSession cfg) :
    s.Linked cfg s.row.version := by
  refine ⟨rfl, h.version, h.cached, ⟨h.secret, .inl h.previous⟩, fun call hcall => ?_⟩
  rw [h.calls] at hcall
  cases hcall

/-- The time the call has read, if it is about to read the row. -/
def System.reads (s : System) (k : Nat) : Option Int :=
  match s.calls.find k with
  | some ⟨_, .rotateRead r _ _⟩ => some r.now
  | _ => none

/-- What holds of a refresh `k` that presents `x`, from its start in the state `t` on. -/
structure RefreshChain (cfg : Config) (x : String) (k : Nat) (t : System) (bs : List Action) :
    Prop where
  /-- One secret is current, and it is derived from its predecessor. -/
  line : ∀ cs, cs <+: bs → ∃ c, (∀ y, (run (System.step cfg) t cs).Current cfg y ↔ y = c) ∧
    ∀ y, (run (System.step cfg) t cs).Predecessor cfg y → cfg.next y = c
  /-- A refresh that succeeds returns the secret after the one it has presented. -/
  successor : ∀ y, (run (System.step cfg) t bs).result k = some (.refreshed y) → y = cfg.next x
  /-- A refresh succeeds only if its secret was the current one at a moment of the call, or
  its predecessor, whose grace window had not ended when the call began. -/
  accepted : ∀ y, (run (System.step cfg) t bs).result k = some (.refreshed y) →
    ∃ cs, cs <+: bs ∧ (run (System.step cfg) t cs).Accepts cfg x (unix t.clock)
  /-- A refresh that reads a live row and presents the predecessor after its grace window
  returns only when the row has been revoked or has ended. -/
  replay : ∀ cs ds now, bs = cs ++ .step k :: ds → (run (System.step cfg) t cs).reads k = some now →
    (run (System.step cfg) t cs).row.live now = true →
    (run (System.step cfg) t cs).Predecessor cfg x → ¬(run (System.step cfg) t cs).Current cfg x →
    (run (System.step cfg) t cs).row.previousValidUntil < now →
    ((run (System.step cfg) t bs).result k).isSome →
    ∃ es, es <+: ds ∧ (run (System.step cfg) t (cs ++ .step k :: es)).row.live now = false
  /-- Once the row is revoked it stays so, and the refresh does not succeed unless it has
  been granted its secret before. -/
  revoked : ∀ cs, cs <+: bs → (run (System.step cfg) t cs).row.status ≠ .active →
    (run (System.step cfg) t bs).row = (run (System.step cfg) t cs).row ∧
      ((run (System.step cfg) t cs).phase k ≠ .granted →
        ∀ y, (run (System.step cfg) t bs).result k ≠ some (.refreshed y))
  /-- A refresh of a secret that is neither does not succeed and does not change the row,
  but for the revocation after it has seen that the user does not fit the session. -/
  unknown : (∀ cs, cs <+: bs → ¬(run (System.step cfg) t cs).Current cfg x ∧
      ¬(run (System.step cfg) t cs).Predecessor cfg x) →
    (∀ y, (run (System.step cfg) t bs).result k ≠ some (.refreshed y)) ∧
      ∀ cs ds u, bs = cs ++ .step k :: ds → u = run (System.step cfg) t cs →
        (u.step cfg (.step k)).row = u.row ∨
          ((∃ now, (u.step cfg (.step k)).row = revokedWith u.row now userSecurityChanged) ∧
            ∃ es, es <+: cs ∧ (run (System.step cfg) t es).Unfit k)

section Chain

variable {cfg : Config} {x : String} {began v : Int} {k : Nat} {s : System}

theorem System.run_row_of_inactive (h : s.row.status ≠ .active) (bs : List Action) :
    (run (System.step cfg) s bs).row = s.row :=
  run_invariant_of_step (I := fun u : System => u.row = s.row)
    (fun u a hu => (System.row_step_of_inactive (by rw [hu]; exact h) a).trans hu) bs rfl

theorem System.Tracked.of_refreshed (h : s.Tracked cfg x began True k v) {y : String}
    (hy : s.result k = some (.refreshed y)) : s.phase k = .granted ∧ y = cfg.next x := by
  obtain ⟨stage, hfind, htracks⟩ := h.call
  unfold System.result at hy
  split at hy
  next hreturned =>
    cases hy
    cases hfind.symm.trans hreturned
    exact ⟨System.phase_of_find hfind, htracks⟩
  · cases hy

theorem System.Tracked.meets (h : s.Tracked cfg x began True k v) {now : Int}
    (hreads : s.reads k = some now) (hlive : s.row.live now = true) (hprev : s.Predecessor cfg x)
    (hcurrent : ¬s.Current cfg x) (htime : s.row.previousValidUntil < now) :
    (s.step cfg (.step k)).phase k = .replaying now := by
  obtain ⟨stage, hfind, htracks⟩ := h.call
  unfold System.reads at hreads
  split at hreads
  next r _ _ hread =>
    cases hreads
    cases hfind.symm.trans hread
    have hpresented := htracks.of.presented
    have hset := hpresented ▸ htracks.of.set
    unfold System.Current at hcurrent
    have hstep : s.step cfg (.step k) = s.goto k (.writing
        (denyEntry s.row .revoking r.now "refresh_reuse") none (.reuseFence r s.row)) := by
      simp only [System.step, hfind, System.advance, hlive, hpresented, hprev.1, hcurrent]
      rw [if_neg (by simp), if_neg (by simp), if_neg (by simp [hset]), if_neg (by omega)]
    rw [hstep, System.phase_goto hfind]
    rfl
  · cases hreads

end Chain

theorem refresh_tokens_chain (cfg : Config) (hinj : Function.Injective cfg.hashRefreshSecret)
    {s : System} (hs : s.NewSession cfg) {as bs : List Action} {k : Nat} {x : String}
    (ha : ∀ a ∈ as ++ bs, a.inChain = true)
    (hk : (run (System.step cfg) s as).calls.find k = none) :
    RefreshChain cfg x k
      (run (System.step cfg) s (as ++ [.call k (.refreshLoginSession x)])) bs := by
  have hbefore : (run (System.step cfg) s as).Linked cfg s.row.version :=
    run_invariant (C := fun _ a => a.inChain = true)
      (fun u a (h : u.Linked cfg s.row.version) ha => h.step ha) hs.linked
      (along_of_mem (fun a hmem _ => ha a (List.mem_append_left bs hmem)) s)
  have hb : ∀ a ∈ bs, a.inChain = true := fun a hmem => ha a (List.mem_append_right as hmem)
  rw [run_append, run_cons, run_nil]
  generalize run (System.step cfg) s as = w at hbefore hk
  -- the call is made, and it is a refresh of its secret that waits
  obtain ⟨ht, hwaiting⟩ : (∀ seen, (w.step cfg (.call k (.refreshLoginSession x))).Tracked cfg x
      (unix (w.step cfg (.call k (.refreshLoginSession x))).clock) seen k s.row.version) ∧
      (w.step cfg (.call k (.refreshLoginSession x))).phase k = .waiting := by
    have hlinked := hbefore.step
      (show (Action.call k (.refreshLoginSession x)).inChain = true from rfl)
    obtain ⟨calls, hins⟩ := Option.isSome_iff_exists.mp (Table.insert_isSome (t := w.calls)
      (r := ⟨k, (Job.refreshLoginSession x).stage w.clock⟩) hk)
    have hfind : (w.step cfg (.call k (.refreshLoginSession x))).calls.find k =
        some ⟨k, (Job.refreshLoginSession x).stage w.clock⟩ := by
      simp only [System.step, hins]
      rw [Table.find_insert hins, if_pos rfl]
    rw [System.phase_of_find hfind]
    simp only [Job.stage] at hfind ⊢
    split at hfind
    next hbad =>
      rw [if_pos hbad]
      exact ⟨fun _ => ⟨hlinked, le_rfl, _, hfind, trivial⟩, rfl⟩
    next hgood =>
      rw [if_neg hgood]
      exact ⟨fun _ => ⟨hlinked, le_rfl, _, hfind, rfl⟩, rfl⟩
  generalize w.step cfg (.call k (.refreshLoginSession x)) = t at ht hwaiting
  have hnot : t.phase k ≠ .granted := fun hg => by
    cases hwaiting.symm.trans hg
  constructor
  case line =>
    rintro cs ⟨ds, rfl⟩
    have hcs := ((ht True).after cs fun a hmem => hb a (List.mem_append_left ds hmem)).linked.chain
    obtain ⟨c, hc⟩ := hcs.current
    refine ⟨c, fun y => ⟨fun hy => hinj (hy.symm.trans hc), fun hy => hy ▸ hc⟩, fun y hy => ?_⟩
    exact hinj (hy.2.symm.trans hc)
  case successor =>
    intro y hy
    exact (((ht True).after bs hb).of_refreshed hy).2
  case accepted =>
    intro y hy
    obtain ⟨cs, hcs, haccepts, -⟩ :=
      (ht True).accepted bs hb hnot (((ht True).after bs hb).of_refreshed hy).1
    exact ⟨cs, hcs, haccepts⟩
  case replay =>
    rintro cs ds now rfl hreads hlive hprev hcurrent htime hend
    have hcs : ∀ a ∈ cs, a.inChain = true := fun a hmem => hb a (List.mem_append_left _ hmem)
    have hds : ∀ a ∈ Action.step k :: ds, a.inChain = true := fun a hmem =>
      hb a (List.mem_append_right cs hmem)
    have hu := (ht True).after cs hcs
    rw [run_append, run_cons] at hend
    have hphase := hu.meets hreads hlive hprev hcurrent htime
    obtain ⟨es, hes, hover⟩ := (hu.step (hds _ List.mem_cons_self) fun _ => trivial).1.replayed ds
      (fun a hmem => hds a (List.mem_cons_of_mem _ hmem)) hphase hend
    refine ⟨es, hes, ?_⟩
    rw [run_append, run_cons]
    exact hover
  case revoked =>
    rintro cs ⟨ds, rfl⟩ hrow
    have hcs := (ht True).after cs fun a hmem => hb a (List.mem_append_left ds hmem)
    rw [run_append]
    refine ⟨System.run_row_of_inactive hrow ds, fun hphase y hy => ?_⟩
    have hds : ∀ a ∈ ds, a.inChain = true := fun a hmem => hb a (List.mem_append_right cs hmem)
    obtain ⟨es, -, -, hactive⟩ :=
      hcs.accepted ds hds hphase ((hcs.after ds hds).of_refreshed hy).1
    rw [System.run_row_of_inactive hrow es] at hactive
    exact hrow hactive
  case unknown =>
    intro hother
    constructor
    · intro y hy
      have hphase := (ht True).waits bs hb hinj hwaiting (fun _ _ _ => trivial) hother
      rw [(((ht True).after bs hb).of_refreshed hy).1] at hphase
      cases hphase.2
    · rintro cs ds u rfl rfl
      have hcs : ∀ es, es <+: cs → es <+: cs ++ .step k :: ds := fun es hes =>
        hes.trans (List.prefix_append cs _)
      obtain ⟨hu, hphase⟩ := (ht (∃ es, es <+: cs ∧ (run (System.step cfg) t es).Unfit k)).waits cs
        (fun a ha => hb a (List.mem_append_left _ ha)) hinj hwaiting
        (fun es hes hunfit => ⟨es, hes, hunfit⟩) fun es hes => hother es (hcs es hes)
      obtain ⟨-, hmoved | ⟨hne, -⟩⟩ := hu.step (hb (.step k) (by simp))
        fun hunfit => ⟨cs, List.prefix_refl cs, hunfit⟩
      · exact (hu.unknown hinj (hother cs (hcs cs (List.prefix_refl cs))) hphase hmoved).2
      · exact absurd rfl hne

/-! ## Two runs -/

theorem sampleConfig_injective : Function.Injective sampleConfig.hashRefreshSecret := by
  intro a b h
  simpa [sampleConfig] using h

theorem sampleSystem_new (expiresAt : Int) : (sampleSystem expiresAt).NewSession sampleConfig := by
  refine ⟨rfl, ⟨"a", rfl⟩, rfl, Int.one_pos, fun c hc => ?_⟩
  cases hc

def firstRefresh : List Action := .call 1 (.refreshLoginSession "a") :: stepsOf 1 16

theorem firstRefresh_chain :
    (run (System.step sampleConfig) (run (System.step sampleConfig) (sampleSystem 5000)
        (firstRefresh ++ [.call 2 (.refreshLoginSession "a")])) (stepsOf 2 9)).result 2 =
      some (.refreshed "as1") ∧
    RefreshChain sampleConfig "a" 2 (run (System.step sampleConfig) (sampleSystem 5000)
      (firstRefresh ++ [.call 2 (.refreshLoginSession "a")])) (stepsOf 2 9) :=
  ⟨by decide, refresh_tokens_chain sampleConfig sampleConfig_injective (sampleSystem_new 5000)
    (by decide) (by decide)⟩

def movedUser : System := { sampleSystem 5000 with user := ⟨1, 2⟩ }

/-- A revocation has written its fence when the first secret is presented after its grace
window. The fence ends, and the second secret is presented. -/
def deniedReplay : List Action :=
  firstRefresh ++ .tick 31000 :: .call 2 (.revokeUserSession "logout") :: stepsOf 2 4 ++
    .call 3 (.refreshLoginSession "a") :: stepsOf 3 2

def laterRefresh : List Action :=
  .tick 61000 :: .call 4 (.refreshLoginSession "as1") :: stepsOf 4 16

/-- A secret the session never had revokes the session of a user whose version has moved on;
and a replay that the cache denies does not revoke the session, which is refreshed later. -/
theorem refresh_tokens_apart :
    ((run (System.step sampleConfig) movedUser
        (.call 1 (.refreshLoginSession "zzz") :: stepsOf 1 18)).row.status = .revoked ∧
      movedUser.row.status = .active) ∧
    (run (System.step sampleConfig) (sampleSystem 5000) deniedReplay).result 3 =
        some (.refreshFailed .sessionRevoked) ∧
      (run (System.step sampleConfig) (sampleSystem 5000) deniedReplay).row.previousRefreshHash =
        sampleConfig.hashRefreshSecret "a" ∧
      (run (System.step sampleConfig) (sampleSystem 5000) deniedReplay).row.previousValidUntil <
        1031 ∧
      (run (System.step sampleConfig) (sampleSystem 5000) deniedReplay).row.status = .active ∧
      (run (System.step sampleConfig) (sampleSystem 5000)
        (deniedReplay ++ laterRefresh)).result 4 = some (.refreshed "as1s1") :=
  ⟨by decide, by decide, by decide, by decide, by decide, by decide⟩

end NewApi.Session
