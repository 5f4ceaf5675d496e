import NewApi.Session.Calls

/-!
# A revoked login session stays revoked

A revocation writes its tombstone after it has updated the row, and an active entry carries a
deadline that was read before the row was. So the entries from before the revocation end a time
to live after it at the latest, or with the session (`staleUntil`), and the tombstone should last
until then.

`RevokeUserSession` writes it from the row as it was before the revocation. When the session has
been extended meanwhile, the tombstone is gone while a fill of the extended session is still on its
way. `Fresh` is the condition under which the tombstones last.
-/

namespace NewApi.Session

/-! ## What has to end -/

namespace System

/-- The latest deadline of a fill that has seen the row active. -/
def window (cfg : Config) (s : System) : Int := cacheDeadline cfg (s.revokedTime.getD s.clock)

/-- The last moment of an entry that shows the session as it was before its revocation. -/
def staleUntil (cfg : Config) (s : System) : Int := min (s.window cfg) (s.longest * 1000)

/-- The row is revoked and no active entry is or will be in the cache: a denial lasts until
the stale entries have ended, or they have. -/
structure Denied (cfg : Config) (s : System) : Prop where
  revoked : s.revokedTime.isSome
  noActive : ∀ e, lookup s.cache s.clock = some e → e.status ≠ .active
  lasts : s.staleUntil cfg ≤ s.clock ∨ ∃ c, s.cache = some c ∧ s.staleUntil cfg ≤ c.expireAt

def cachedVersion (s : System) : Int := ((lookup s.cache s.clock).map (·.version)).getD 0

end System

/-- The call has returned that it has revoked the session. -/
def Result.revokes : Result → Bool
  | .revoked b => b
  | .revokedAll total => 0 < total
  | _ => false

/-- A bulk revocation has revoked the session in an earlier round. -/
def AfterWrite.Settled : AfterWrite → Prop
  | .bulkFence _ total => 0 < total
  | _ => False

/-- The call has revoked the session and written its tombstone. -/
def Stage.Settled : Stage → Prop
  | .write w _ _ next => next.Settled ∨ (w = .complete ∧ next.final)
  | .bulkRead _ total => 0 < total
  | .bulkWrite _ total => 0 < total
  | .returned result => result.revokes
  | _ => False

/-- An entry that is about to be written: an active one ends in time, and a tombstone is
written after the row is revoked. -/
structure EntryBounded (cfg : Config) (s : System) (entry : UserSession)
    (deadline : Option Int) (next : AfterWrite) : Prop where
  deadline : entry.status = .active → ∀ d ∈ deadline, d ≤ s.window cfg
  session : entry.status = .active → entry.expiresAt ≤ s.longest
  final : next.final → s.revokedTime.isSome ∧ entry.status ≠ .active

/-- The expiration a script carries is the one computed when it was prepared. -/
structure ScriptBounded (cfg : Config) (s : System) (entry : UserSession)
    (prepared expiration : Int) : Prop where
  active : entry.status = .active → expiration ≤ s.window cfg ∧ expiration ≤ s.longest * 1000
  past : prepared ≤ s.clock
  denial : entry.status ≠ .active →
    (sessionEnd entry - prepared ≤ expiration ∨ cfg.cacheTTL * 1000 ≤ expiration) ∧
      (prepared + cfg.cacheTTL * 1000 ≤ sessionEnd entry → cfg.cacheTTL * 1000 ≤ expiration)

/-- The deadlines a call carries were read before the row was. -/
def Stage.Bounded (cfg : Config) (s : System) : Stage → Prop
  | .readSession _ d => d ≤ cacheDeadline cfg s.clock
  | .rotateRead _ _ d => d ≤ cacheDeadline cfg s.clock
  | .touchRead _ _ _ d => d ≤ cacheDeadline cfg s.clock
  | .advanceNow _ d => d ≤ cacheDeadline cfg s.clock
  | .advanceWrite _ d _ => d ≤ cacheDeadline cfg s.clock
  | .judgeSession _ d session =>
    session.status = .active → d ≤ s.window cfg ∧ session.expiresAt ≤ s.longest
  | .rotateWrite _ _ _ d => d ≤ s.window cfg
  | .touchWrite _ _ _ d => d ≤ s.window cfg
  | .write (.script prepared expiration) entry d next =>
    EntryBounded cfg s entry d next ∧ ScriptBounded cfg s entry prepared expiration
  | .write _ entry d next => EntryBounded cfg s entry d next
  | _ => True

/-- What holds in every state of a run. -/
structure System.Sound (cfg : Config) (s : System) : Prop where
  active : s.row.status = .active → s.revokedTime = none
  past : ∀ t ∈ s.revokedTime, t ≤ s.clock
  longest : s.row.expiresAt ≤ s.longest
  calls : ∀ call ∈ s.calls.rows, call.stage.Bounded cfg s
  denied : ∀ call ∈ s.calls.rows, call.stage.Settled → s.Denied cfg

/-! ## Later states -/

/-- What the bounds of the calls need of a later state. -/
structure System.Grows (cfg : Config) (s t : System) : Prop where
  clock : s.clock ≤ t.clock
  longest : s.longest ≤ t.longest
  window : s.window cfg ≤ t.window cfg
  revoked : s.revokedTime.isSome → t.revokedTime.isSome

section Later

variable {cfg : Config} {s t : System}

theorem System.Grows.refl : s.Grows cfg s := ⟨le_rfl, le_rfl, le_rfl, id⟩

theorem EntryBounded.grows {entry : UserSession} {d : Option Int} {next : AfterWrite}
    (h : EntryBounded cfg s entry d next) (hg : s.Grows cfg t) :
    EntryBounded cfg t entry d next where
  deadline ha x hx := (h.deadline ha x hx).trans hg.window
  session ha := (h.session ha).trans hg.longest
  final hf := ⟨hg.revoked (h.final hf).1, (h.final hf).2⟩

theorem ScriptBounded.grows {entry : UserSession} {p e : Int}
    (h : ScriptBounded cfg s entry p e) (hg : s.Grows cfg t) : ScriptBounded cfg t entry p e where
  active ha := by
    have := hg.longest
    exact ⟨(h.active ha).1.trans hg.window, by have := (h.active ha).2; omega⟩
  past := h.past.trans hg.clock
  denial := h.denial

theorem cacheDeadline_mono {a b : Int} (h : a ≤ b) : cacheDeadline cfg a ≤ cacheDeadline cfg b := by
  simp only [cacheDeadline]
  omega

theorem Stage.Bounded.grows {stage : Stage} (h : stage.Bounded cfg s) (hg : s.Grows cfg t) :
    stage.Bounded cfg t := by
  have hclock := @cacheDeadline_mono cfg _ _ hg.clock
  cases stage with
  | readSession | rotateRead | touchRead | advanceNow | advanceWrite => exact le_trans h hclock
  | judgeSession _ d session =>
    exact fun ha => ⟨(h ha).1.trans hg.window, (h ha).2.trans hg.longest⟩
  | rotateWrite | touchWrite => exact le_trans h hg.window
  | write w entry d next =>
    cases w with
    | script p e => exact ⟨h.1.grows hg, h.2.grows hg⟩
    | prepare | complete => exact EntryBounded.grows h hg
  | _ => trivial

/-- The row is active, so every deadline read so far is in the window. -/
theorem System.window_active (h : s.revokedTime = none) :
    s.window cfg = cacheDeadline cfg s.clock := by
  simp [System.window, h]

end Later

/-! ## Stages without a bound -/

/-- The stage carries no deadline, and its call has not revoked the session. -/
structure Stage.Plain (stage : Stage) : Prop where
  bounded : ∀ cfg s, stage.Bounded cfg s
  unsettled : ¬stage.Settled

section Plain

variable {cfg : Config}

theorem Stage.Plain.of_constructor {stage : Stage}
    (hbounded : ∀ cfg s, stage.Bounded cfg s := by intro _ _; trivial)
    (hunsettled : ¬stage.Settled := by intro h; cases h) : stage.Plain :=
  ⟨hbounded, hunsettled⟩

/-- A call that has nothing to write asks for the user, confirms its fill or returns. -/
inductive Stage.Simple : Stage → Prop
  | readUserCache (secret : String) (session : UserSession) : Simple (.readUserCache secret session)
  | confirm (fill : Fill) (session : UserSession) : Simple (.confirm fill session)
  | returned {result : Result} (h : result.revokes = false) : Simple (.returned result)

theorem getReturned_simple (result : Except Err UserSession) (caller : Caller) :
    (getReturned result caller).Simple := by
  cases caller with
  | direct => cases result <;> exact .returned rfl
  | refresh secret =>
    cases result with
    | ok session => exact .readUserCache secret session
    | error e => cases e <;> exact .returned rfl

variable (session : UserSession) (caller : Caller)

theorem rotateReturned_simple : (rotateReturned cfg session caller).Simple := by
  cases caller <;> exact .returned rfl

theorem rotateRaced_simple : (rotateRaced cfg session caller).Simple := by
  cases caller with
  | direct => exact .returned rfl
  | refresh secret =>
    simp only [rotateRaced]
    split <;> exact .returned rfl

variable (e : Err)

theorem rotateFailed_simple (caller : Caller) : (rotateFailed e caller).Simple := by
  cases caller with
  | direct => exact .returned rfl
  | refresh secret => cases e <;> exact .returned rfl

theorem notRevoked_simple : (revokeReturned (.ok false) caller).Simple := by
  cases caller <;> exact .returned rfl

theorem revokeFailed_simple (caller : Caller) : (revokeReturned (.error e) caller).Simple := by
  cases caller <;> exact .returned rfl

variable (fill : Fill)

theorem fillReturned_simple : (fillReturned cfg session fill).Simple := by
  cases fill with
  | get caller => exact getReturned_simple (.ok session) caller
  | rotate r => exact rotateReturned_simple session r.caller
  | touch | advance => exact .returned rfl

theorem fillFailed_simple : (fillFailed e fill).Simple := by
  cases fill with
  | get caller => exact getReturned_simple (.error e) caller
  | rotate r => exact rotateFailed_simple e r.caller
  | touch | advance => exact .returned rfl

theorem fillError_simple : (fillError cfg session e fill).Simple := by
  unfold fillError
  split
  · exact fillFailed_simple _ _
  · exact .confirm _ _
  · exact fillFailed_simple _ _
  · exact fillFailed_simple _ _
  · exact fillReturned_simple _ _

theorem Stage.Simple.plain {stage : Stage} (h : stage.Simple) : stage.Plain := by
  cases h with
  | readUserCache | confirm => exact .of_constructor
  | returned h => exact ⟨fun _ _ => trivial, by simp [Stage.Settled, h]⟩

theorem Stage.Simple.spec {stage : Stage} {P : Prop} (h : stage.Simple) :
    stage.Bounded cfg s ∧ (stage.Settled → P) :=
  ⟨h.plain.bounded cfg s, fun hs => absurd hs h.plain.unsettled⟩

/-- A call that has revoked the session after a write had done so before it, or has written
its tombstone. -/
theorem AfterWrite.resume_spec (next : AfterWrite) (result : Option Err) :
    (next.resume cfg result).Bounded cfg s ∧
      ((next.resume cfg result).Settled → next.Settled ∨ next.final) := by
  cases next with
  | fill f session =>
    cases result with
    | none => exact (fillReturned_simple session f).spec
    | some e => exact (fillError_simple session e f).spec
  | denied caller => exact (getReturned_simple (.error .inactive) caller).spec
  | reuseFence r session =>
    cases result with
    | none => exact ⟨trivial, fun h => by cases h⟩
    | some e => exact (rotateFailed_simple e r.caller).spec
  | reuseTombstone r =>
    exact ⟨(rotateFailed_simple _ r.caller).plain.bounded cfg s, fun _ => .inr rfl⟩
  | revokeFence r candidate =>
    cases result with
    | none => exact ⟨trivial, fun h => by cases h⟩
    | some e => exact (revokeFailed_simple e r.caller).spec
  | tombstone r =>
    refine ⟨?_, fun _ => .inr rfl⟩
    cases h : r.caller <;> simp only [resume, revokeReturned, h, Stage.Bounded]
  | hashFence => cases result <;> exact ⟨trivial, fun h => by cases h⟩
  | bulkFence =>
    cases result with
    | none => exact ⟨trivial, .inl⟩
    | some e => exact ⟨trivial, fun h => by cases h⟩
  | bulkTombstone => exact ⟨trivial, fun _ => .inr rfl⟩

end Plain

/-! ## One step -/

/-- A denial whose script is on its way. -/
structure Denial where
  prepared : Int
  entry : UserSession
  final : Bool

def Stage.denial : Stage → Option Denial
  | .write (.script prepared _) entry _ next =>
    if entry.status = .active then none else some ⟨prepared, entry, next.final⟩
  | _ => none

/-- A denial that is written once the row is revoked lasts the whole time to live of the
cache, or its session is as long as the row has ever been; and the tombstone of the revoking
call is not older than the entry it replaces. -/
def Denial.Fresh (cfg : Config) (s : System) (d : Denial) : Prop :=
  s.row.status ≠ .active →
    (d.prepared + cfg.cacheTTL * 1000 ≤ sessionEnd d.entry ∨ s.longest ≤ d.entry.expiresAt) ∧
      (d.final = true → s.cachedVersion ≤ d.entry.version)

instance (cfg : Config) (s : System) (d : Denial) : Decidable (d.Fresh cfg s) :=
  inferInstanceAs (Decidable (_ → _ ∧ (_ → _)))

def System.Fresh (cfg : Config) (s : System) : Action → Prop
  | .step id => ∀ call ∈ s.calls.find id, ∀ d ∈ call.stage.denial, d.Fresh cfg s
  | _ => True

instance (cfg : Config) (s : System) : (a : Action) → Decidable (s.Fresh cfg a)
  | .step id => inferInstanceAs (Decidable (∀ call ∈ s.calls.find id, _))
  | .call _ _ | .tick _ | .userChanges _ _ => isTrue trivial

section Steps

variable {cfg : Config} {s : System} {id : Nat} {stage : Stage}

theorem System.goto_grows : s.Grows cfg (s.goto id stage) := ⟨le_rfl, le_rfl, le_rfl, fun h => h⟩

theorem System.Denied.goto (h : s.Denied cfg) : (s.goto id stage).Denied cfg :=
  ⟨h.revoked, h.noActive, h.lasts⟩

theorem writing_unsettled {entry : UserSession} {d : Option Int} {next : AfterWrite}
    (h : ¬next.Settled := by intro hs; cases hs) :
    ¬(Stage.writing entry d next).Settled := by
  rintro (hs | ⟨hs, -⟩)
  · exact h hs
  · cases hs

namespace System.Sound

theorem move {u : System} (h : s.Sound cfg) (hcalls : u.calls = s.calls) (hg : s.Grows cfg u)
    (hactive : u.row.status = .active → u.revokedTime = none)
    (hpast : ∀ t ∈ u.revokedTime, t ≤ u.clock) (hlongest : u.row.expiresAt ≤ u.longest)
    (hden : s.Denied cfg → u.Denied cfg) (hb : stage.Bounded cfg u)
    (hset : stage.Settled → u.Denied cfg) : (u.goto id stage).Sound cfg where
  active := hactive
  past := hpast
  longest := hlongest
  calls call hcall := by
    refine Stage.Bounded.grows ?_ goto_grows
    rcases Table.mem_save hcall with rfl | ⟨hold, _⟩
    · exact hb
    · exact (h.calls call (hcalls ▸ hold)).grows hg
  denied call hcall hsettled := by
    refine Denied.goto ?_
    rcases Table.mem_save hcall with rfl | ⟨hold, _⟩
    · exact hset hsettled
    · exact hden (h.denied call (hcalls ▸ hold) hsettled)

theorem goto (h : s.Sound cfg) (hb : stage.Bounded cfg s)
    (hset : stage.Settled → s.Denied cfg := by intro hs; cases hs) :
    (s.goto id stage).Sound cfg :=
  h.move rfl .refl h.active h.past h.longest (fun hd => hd) hb hset

theorem simple (h : s.Sound cfg) (hp : stage.Simple) : (s.goto id stage).Sound cfg :=
  h.goto (hp.plain.bounded cfg s) fun hs => absurd hs hp.plain.unsettled

theorem relock (h : (s.goto id stage).Sound cfg) (locked : Option Nat) :
    ({ s with locked := locked }.goto id stage).Sound cfg where
  active := h.active
  past := h.past
  longest := h.longest
  calls call hcall := (h.calls call hcall).grows ⟨le_rfl, le_rfl, le_rfl, fun h => h⟩
  denied call hcall hs :=
    have hd := h.denied call hcall hs
    ⟨hd.revoked, hd.noActive, hd.lasts⟩

theorem updateRow (h : s.Sound cfg) {row : UserSession} (hrow : s.row.status = .active)
    (hb : stage.Bounded cfg (s.updateRow row))
    (hset : ¬stage.Settled := by exact writing_unsettled) :
    ((s.updateRow row).goto id stage).Sound cfg := by
  have hnone := h.active hrow
  refine h.move rfl ⟨le_rfl, le_max_left _ _, le_rfl, fun hs => hs⟩ (fun _ => hnone) h.past
    (le_max_right _ _) (fun hd => ?_) hb fun hs => absurd hs hset
  have := hd.revoked
  simp [hnone] at this

theorem revokeRow (h : s.Sound cfg) (hrow : s.row.status = .active) {now : Int}
    {reason : String} (hb : ∀ u : System, u.revokedTime.isSome → stage.Bounded cfg u)
    (hset : ¬stage.Settled := by exact writing_unsettled) :
    ((s.revokeRow now reason).goto id stage).Sound cfg := by
  have hnone := h.active hrow
  have hg : s.Grows cfg (s.revokeRow now reason) :=
    ⟨le_rfl, le_rfl, by rw [window_active hnone]; exact le_rfl, fun _ => rfl⟩
  refine h.move rfl hg (fun ha => by cases ha) (fun t ht => ?_) h.longest (fun hd => ?_) (hb _ rfl)
    fun hs => absurd hs hset
  · cases ht
    exact le_rfl
  · have := hd.revoked
    simp [hnone] at this

end System.Sound

/-! ## The cache writes -/

variable {d : Option Int} {entry session : UserSession} {next : AfterWrite}

theorem EntryBounded.deny (hdeny : entry.status ≠ .active)
    (hfinal : next.final → s.revokedTime.isSome) : EntryBounded cfg s entry d next :=
  ⟨fun ha => absurd ha hdeny, fun ha => absurd ha hdeny, fun hf => ⟨hfinal hf, hdeny⟩⟩

theorem EntryBounded.fill {d : Int} {f : Fill} (hd : d ≤ s.window cfg)
    (hsession : entry.expiresAt ≤ s.longest) :
    EntryBounded cfg s entry (some d) (.fill f session) :=
  ⟨fun _ _ hx => Option.some.inj hx ▸ hd, fun _ => hsession, fun hf => by cases hf⟩

/-- An active entry that is accepted has already ended when the denial before it has. -/
theorem System.Denied.active_entry (h : s.Denied cfg) {p e : Int} {cache : Option Cached}
    (hb : ScriptBounded cfg s entry p e) (hactive : entry.status = .active)
    (hfree : ∀ c, lookup s.cache s.clock = some c → c.status = .active)
    (hcache : cache = if e ≤ s.clock then none else some ⟨entry, e⟩) :
    { s with cache := cache }.Denied cfg := by
  have hnone : lookup s.cache s.clock = none := by
    cases hl : lookup s.cache s.clock with
    | none => rfl
    | some c => exact absurd (hfree c hl) (h.noActive c hl)
  have hend : s.staleUntil cfg ≤ s.clock := by
    rcases h.lasts with hend | ⟨c, hc, hlast⟩
    · exact hend
    · rw [hc] at hnone
      simp only [lookup, ite_eq_right_iff, reduceCtorEq, imp_false, not_le] at hnone
      omega
  have he : e ≤ s.clock := (le_min (hb.active hactive).1 (hb.active hactive).2).trans hend
  rw [if_pos he] at hcache
  subst hcache
  refine ⟨h.revoked, fun c hc => ?_, .inl hend⟩
  simp [lookup] at hc

theorem System.Denied.of_denial {p e : Int} (hpast : ∀ t ∈ s.revokedTime, t ≤ s.clock)
    (hrevoked : s.revokedTime.isSome) (hb : ScriptBounded cfg s entry p e)
    (hdeny : entry.status ≠ .active)
    (hfresh : p + cfg.cacheTTL * 1000 ≤ sessionEnd entry ∨ s.longest ≤ entry.expiresAt) :
    { s with cache := some ⟨entry, s.clock + e⟩ }.Denied cfg := by
  obtain ⟨time, htime⟩ := Option.isSome_iff_exists.mp hrevoked
  refine ⟨hrevoked, fun c hc => ?_, .inr ⟨_, rfl, ?_⟩⟩
  · obtain ⟨_, hentry, rfl, -⟩ := lookup_some hc
    cases hentry
    exact hdeny
  have hbefore : time ≤ s.clock := hpast time htime
  have hwindow : s.window cfg = time + cfg.cacheTTL * 1000 := by
    simp [window, cacheDeadline, htime]
  have hclock := hb.past
  obtain ⟨hlength, hfull⟩ := hb.denial hdeny
  show min (s.window cfg) (s.longest * 1000) ≤ s.clock + e
  simp only [sessionEnd] at hlength hfull hfresh
  omega

theorem System.Sound.advanceWrite (h : s.Sound cfg) {w : Write}
    (hb : (Stage.write w entry d next).Bounded cfg s)
    (hset : (Stage.write w entry d next).Settled → s.Denied cfg)
    (hf : ∀ d' ∈ (Stage.write w entry d next).denial, d'.Fresh cfg s) :
    (s.advanceWrite cfg id entry d next w).Sound cfg := by
  have hresume (result : Option Err) (hfinal : next.final → s.Denied cfg) :
      (s.goto id (next.resume cfg result)).Sound cfg := by
    obtain ⟨hbounded, hsettled⟩ := next.resume_spec result
    refine h.goto hbounded fun hs => ?_
    rcases hsettled hs with hearlier | hf
    · exact hset (.inl hearlier)
    · exact hfinal hf
  cases w with
  | prepare =>
    simp only [System.advanceWrite]
    split
    next e he =>
      refine hresume _ fun hfinal => ?_
      have hdeny := (EntryBounded.final hb hfinal).2
      simp [cacheExpiration, hdeny] at he
    next e he =>
      refine h.goto ⟨hb, fun ha => ?_, le_rfl, fun hd => cacheExpiration_denial hd he⟩
        fun hs => hset (.inl (hs.resolve_right fun hc => by cases hc.1))
      obtain ⟨_, rfl, hdeadline, hend⟩ := cacheExpiration_active ha he
      have hsession := EntryBounded.session hb ha
      have hwindow := EntryBounded.deadline hb ha _ rfl
      simp only [sessionEnd] at hend
      omega
  | script p e =>
    obtain ⟨hentry, hscript⟩ := hb
    -- the row is not active any more once it has been revoked
    have hfresh : entry.status ≠ .active → s.revokedTime.isSome →
        Denial.Fresh cfg s ⟨p, entry, next.final⟩ ∧ s.row.status ≠ .active := by
      intro hdeny hrevoked
      refine ⟨hf _ (if_neg hdeny), fun ha => ?_⟩
      simp [h.active ha] at hrevoked
    simp only [System.advanceWrite]
    split
    next hrefused =>
      refine hresume _ fun hfinal => ?_
      obtain ⟨hrevoked, hdeny⟩ := hentry.final hfinal
      obtain ⟨hfresh, hrow⟩ := hfresh hdeny hrevoked
      rw [cacheScript_denial hdeny ((hfresh hrow).2 hfinal)] at hrefused
      cases hrefused
    next cache haccepted =>
      have hg : s.Grows cfg { s with cache := cache } := ⟨le_rfl, le_rfl, le_rfl, fun h => h⟩
      rcases cacheScript_some haccepted with ⟨hactive, hfree, hcache⟩ | ⟨hdeny, hcache⟩
      · refine h.move rfl hg h.active h.past h.longest
          (fun hd => hd.active_entry hscript hactive hfree hcache) (hentry.grows hg) fun hs => ?_
        rcases hs with hearlier | ⟨-, hfinal⟩
        · exact (hset (.inl hearlier)).active_entry hscript hactive hfree hcache
        · exact absurd hactive (hentry.final hfinal).2
      · have hden : s.revokedTime.isSome → { s with cache := cache }.Denied cfg := by
          intro hrevoked
          obtain ⟨hfresh, hrow⟩ := hfresh hdeny hrevoked
          subst hcache
          exact .of_denial h.past hrevoked hscript hdeny (hfresh hrow).1
        refine h.move rfl hg h.active h.past h.longest (fun hd => hden hd.revoked)
          (hentry.grows hg) fun hs => ?_
        rcases hs with hearlier | ⟨-, hfinal⟩
        · exact hden (hset (.inl hearlier)).revoked
        · exact hden (hentry.final hfinal).1
  | complete =>
    exact hresume _ fun hfinal => hset (.inr ⟨rfl, hfinal⟩)

/-! ## The calls -/

theorem System.Sound.denying (h : s.Sound cfg)
    (hset : next.Settled → s.Denied cfg := by intro hs; cases hs)
    (hdeny : entry.status ≠ .active := by intro hs; cases hs)
    (hfinal : next.final = false := by rfl) :
    (s.goto id (.writing entry none next)).Sound cfg := by
  refine h.goto (.deny hdeny fun hf => ?_) fun hs => hset (hs.resolve_right fun hc => by cases hc.1)
  cases hfinal.symm.trans hf

theorem System.Sound.deadline_le (h : s.Sound cfg) (hrow : s.row.status = .active) {d : Int}
    (hd : d ≤ cacheDeadline cfg s.clock) : d ≤ s.window cfg := by
  rw [window_active (h.active hrow)]
  exact hd

theorem tombstone_bounded {now : Int} {reason : String} (u : System) (hu : u.revokedTime.isSome) :
    (Stage.writing (cacheEntry (revokedWith session now reason)) none next).Bounded cfg u :=
  .deny (fun hs => by cases hs) fun _ => hu

theorem System.Sound.advance (h : s.Sound cfg) (hb : stage.Bounded cfg s)
    (hset : stage.Settled → s.Denied cfg) (hf : ∀ d ∈ stage.denial, d.Fresh cfg s) :
    (s.advance cfg id stage).Sound cfg := by
  cases stage with simp only [System.advance]
  | write w entry d next => exact h.advanceWrite hb hset hf
  | readCache caller | readUserCache secret session | readUser secret session fits =>
    split <;> exact h.goto trivial
  | judgeCached caller entry =>
    split
    · exact h.goto trivial
    split <;> exact h.simple (getReturned_simple _ caller)
  | missed caller | touch hash now e | advance versions =>
    exact h.goto (le_refl (cacheDeadline cfg s.clock))
  | readSession caller d =>
    exact h.goto (fun ha => ⟨h.deadline_le ha hb, h.longest⟩)
  | judgeSession caller d session =>
    split
    next hlive =>
      have hactive := System.active_of_live hlive
      exact h.goto (.fill (hb hactive).1 (hb hactive).2) fun hs =>
        absurd hs writing_unsettled
    · exact h.denying
  | confirm fill session =>
    split
    · exact h.simple (fillFailed_simple _ fill)
    split
    · exact h.simple (fillReturned_simple session fill)
    · exact h.simple (fillFailed_simple _ fill)
  | derive secret =>
    split
    · exact h.simple (rotateFailed_simple _ _)
    · exact h.goto trivial
  | rotateTry r tries =>
    cases tries with
    | zero => exact h.simple (rotateFailed_simple _ r.caller)
    | succ tries =>
      exact h.goto (le_refl (cacheDeadline cfg s.clock))
  | rotateRead r tries d =>
    split
    · exact h.simple (rotateFailed_simple _ r.caller)
    next hlive =>
    have hactive := System.active_of_live (by simpa using hlive)
    split
    · exact h.goto (h.deadline_le hactive hb)
    split
    · exact h.simple (rotateFailed_simple _ r.caller)
    split
    · exact h.simple (rotateRaced_simple _ r.caller)
    · exact h.denying
  | rotateWrite r tries session d =>
    split
    · exact h
    split
    next hlive =>
      simp only [Bool.and_eq_true] at hlive
      exact h.updateRow (System.active_of_live hlive.1) (.fill hb (le_max_right _ _))
    · exact h.goto trivial
  | reuseWrite r session =>
    split
    · exact h
    split
    next hlive =>
      exact h.revokeRow (System.active_of_live hlive) tombstone_bounded
    · exact h.simple (rotateFailed_simple _ r.caller)
  | touchRead hash now e d =>
    split
    · exact h.goto trivial
    next hlive =>
    split
    · exact h.goto trivial
    · have hactive := System.active_of_live (by simpa using hlive)
      exact h.goto (h.deadline_le hactive hb)
  | touchWrite now e session d =>
    split
    · exact h
    split
    next hlive =>
      exact h.updateRow (System.active_of_live hlive) (.fill hb (le_max_right _ _))
    · exact h.goto trivial
  | advanceNow versions d => exact h.goto hb
  | advanceWrite versions d now =>
    split
    · exact h
    split
    next hrow =>
      exact h.updateRow hrow.1 (.fill (h.deadline_le hrow.1 hb) (le_max_right _ _))
    · exact h.goto trivial
  | revoke caller reason | revokeByHash hash reason => exact h.goto trivial
  | revokeRead r =>
    split
    · exact h.denying
    · exact h.simple (notRevoked_simple r.caller)
  | revokeWrite r candidate =>
    split
    · exact h
    split
    next hlive =>
      exact h.revokeRow (System.active_of_live hlive) tombstone_bounded
    · exact h.simple (notRevoked_simple r.caller)
  | hashLock hash r =>
    split
    · exact h
    split
    · refine System.Sound.relock ?_ (some id)
      exact h.denying
    · exact h.simple (notRevoked_simple r.caller)
  | hashWrite r session =>
    split <;> refine System.Sound.relock ?_ none
    next hrow =>
      exact h.revokeRow hrow tombstone_bounded
    · exact h.simple (notRevoked_simple r.caller)
  | hashRollback e =>
    refine System.Sound.relock ?_ none
    exact h.goto trivial
  | revokeAll reason => exact h.goto trivial fun hs => absurd hs (lt_irrefl 0)
  | bulkRead r total =>
    split
    · exact h.denying hset
    · exact h.goto trivial fun hs => hset (show 0 < total from of_decide_eq_true hs)
  | bulkWrite r total =>
    split
    · exact h
    split
    next hrow =>
      exact h.revokeRow hrow tombstone_bounded
    · exact h.goto trivial hset
  | returned result => exact h

/-! ## Runs -/

theorem Job.stage_plain (job : Job) (clock : Int) : (job.stage clock).Plain := by
  cases job with
  | getUserSessionCached | revokeUserSession | revokeUserSessions =>
    exact .of_constructor
  | refreshLoginSession | rotateUserSessionRefresh | touchUserSessionPresence
  | advanceUserSessionAuthVersion | revokeUserSessionByRefreshHash =>
    simp only [Job.stage]
    split <;> exact .of_constructor

/-- Time passes: what was cached may end, and the stale entries are nearer their end. -/
theorem System.Denied.tick (h : s.Denied cfg) (duration : Nat) :
    { s with clock := s.clock + duration }.Denied cfg := by
  obtain ⟨time, htime⟩ := Option.isSome_iff_exists.mp h.revoked
  have hstale : { s with clock := s.clock + duration }.staleUntil cfg = s.staleUntil cfg := by
    simp [staleUntil, window, htime]
  refine ⟨h.revoked, fun e he => h.noActive e ?_, ?_⟩
  · obtain ⟨c, hc, rfl, hlast⟩ := lookup_some he
    have hnow : s.clock ≤ c.expireAt := by
      have : s.clock + duration ≤ c.expireAt := hlast
      omega
    rw [show s.cache = some c from hc]
    exact if_pos hnow
  · rw [hstale]
    rcases h.lasts with hend | hlasts
    · exact .inl (by show s.staleUntil cfg ≤ s.clock + duration; omega)
    · exact .inr hlasts

theorem System.tick_grows (duration : Nat) :
    s.Grows cfg { s with clock := s.clock + duration } := by
  have hclock : s.clock ≤ s.clock + duration := by omega
  refine ⟨hclock, le_rfl, ?_, fun h => h⟩
  cases ht : s.revokedTime with
  | none => simpa [window, ht] using cacheDeadline_mono hclock
  | some time => simp [window, ht]

theorem System.Sound.step (h : s.Sound cfg) (a : Action) (hf : s.Fresh cfg a) :
    (s.step cfg a).Sound cfg := by
  cases a with simp only [System.step]
  | call id job =>
    split
    next calls hins =>
      have hg : s.Grows cfg { s with calls := calls } := ⟨le_rfl, le_rfl, le_rfl, fun h => h⟩
      have hp := job.stage_plain s.clock
      refine ⟨h.active, h.past, h.longest, ?_, ?_⟩
      · refine Table.forall_insert hins (hp.bounded cfg _) ?_
        exact fun call hold => (h.calls call hold).grows hg
      · refine Table.forall_insert hins (fun hs => absurd hs hp.unsettled) ?_
        intro call hold hs
        have hd := h.denied call hold hs
        exact ⟨hd.revoked, hd.noActive, hd.lasts⟩
    · exact h
  | step id =>
    split
    next call hfind =>
      have hmem := Table.find_mem hfind
      exact h.advance (h.calls call hmem) (h.denied call hmem) (hf call hfind)
    · exact h
  | tick duration =>
    refine ⟨h.active, fun t ht => ?_, h.longest,
      fun call hcall => (h.calls call hcall).grows (tick_grows duration),
      fun call hcall hs => (h.denied call hcall hs).tick duration⟩
    have := h.past t ht
    show t ≤ s.clock + duration
    omega
  | userChanges cachedUser user =>
    have hg : s.Grows cfg { s with cachedUser := cachedUser, user := user } :=
      ⟨le_rfl, le_rfl, le_rfl, fun h => h⟩
    refine ⟨h.active, h.past, h.longest, fun call hcall => (h.calls call hcall).grows hg,
      fun call hcall hs => ?_⟩
    have hd := h.denied call hcall hs
    exact ⟨hd.revoked, hd.noActive, hd.lasts⟩

/-! ## The reader that starts later -/

/-- What a `GetUserSessionCached` that starts after the revocation can be doing. -/
def Stage.Late : Stage → Prop
  | .readCache .direct => True
  | .missed .direct => True
  | .readSession .direct _ => True
  | .judgeCached .direct entry => entry.status ≠ .active
  | .judgeSession .direct _ session => session.status ≠ .active
  | .write _ _ _ (.denied .direct) => True
  | .returned result => ∀ session, result ≠ .session session
  | _ => False

theorem UserSession.not_live {now : Int} (h : session.status ≠ .active) :
    session.live now = false := by
  simp [UserSession.live, h]

theorem Stage.late_failed (e : Err) : (Stage.returned (.failed e)).Late := by
  intro session h
  cases h

/-- The row is revoked and no active entry is cached, so the reader finds neither. -/
theorem System.Denied.advance_late (hd : s.Denied cfg) (hrow : s.row.status ≠ .active)
    (h : stage.Late) : s.advance cfg id stage = s ∨
      ∃ stage', (s.advance cfg id stage).calls = s.calls.save ⟨id, stage'⟩ ∧ stage'.Late := by
  cases stage with
  | readCache caller =>
    cases caller with
    | refresh => cases h
    | direct =>
      simp only [System.advance]
      split
      next entry hentry => exact .inr ⟨_, rfl, hd.noActive entry hentry⟩
      · exact .inr ⟨_, rfl, trivial⟩
  | missed caller =>
    cases caller with
    | refresh => cases h
    | direct => exact .inr ⟨_, rfl, trivial⟩
  | readSession caller d =>
    cases caller with
    | refresh => cases h
    | direct => exact .inr ⟨_, rfl, hrow⟩
  | judgeCached caller entry =>
    cases caller with
    | refresh => cases h
    | direct =>
      simp only [System.advance, UserSession.not_live h]
      split
      · exact .inr ⟨_, rfl, trivial⟩
      · exact .inr ⟨_, rfl, Stage.late_failed .inactive⟩
  | judgeSession caller d session =>
    cases caller with
    | refresh => cases h
    | direct =>
      simp only [System.advance, UserSession.not_live h]
      exact .inr ⟨_, rfl, trivial⟩
  | write w entry d next =>
    cases next with
    | denied caller =>
      cases caller with
      | refresh => cases h
      | direct =>
        cases w with
        | complete => exact .inr ⟨_, rfl, Stage.late_failed .inactive⟩
        | prepare | script p e =>
          simp only [System.advance, System.advanceWrite]
          split
          · exact .inr ⟨_, rfl, Stage.late_failed .inactive⟩
          · exact .inr ⟨_, rfl, trivial⟩
    | _ => cases h
  | returned result => exact .inl rfl
  | _ => cases h

/-- The reader `k` started after the call `id` had returned that it revoked the session. -/
structure System.After (cfg : Config) (id k : Nat) (s : System) : Prop where
  sound : s.Sound cfg
  revoked : ∃ result, s.result id = some result ∧ result.revokes
  late : ∃ call, s.calls.find k = some call ∧ call.stage.Late

theorem System.Sound.denied_of_result (h : s.Sound cfg) {result : Result}
    (hr : s.result id = some result) (hrevokes : result.revokes) : s.Denied cfg := by
  unfold System.result at hr
  split at hr
  next hfind =>
    cases hr
    exact h.denied _ (Table.find_mem hfind) hrevokes
  · cases hr

theorem System.After.step {k : Nat} (h : s.After cfg id k) (a : Action) (hf : s.Fresh cfg a) :
    (s.step cfg a).After cfg id k := by
  obtain ⟨result, hresult, hrevokes⟩ := h.revoked
  obtain ⟨call, hfind, hlate⟩ := h.late
  refine ⟨h.sound.step a hf, ⟨result, result_step hresult a, hrevokes⟩, ?_⟩
  rcases @find_step cfg s k _ hfind a with hkept | ⟨-, hstep⟩
  · exact ⟨call, hkept, hlate⟩
  have hd := h.sound.denied_of_result hresult hrevokes
  have hrow : s.row.status ≠ .active := fun ha => by
    have := hd.revoked
    simp [h.sound.active ha] at this
  rw [hstep]
  have hnext := @System.Denied.advance_late cfg s k call.stage hd hrow hlate
  rcases hnext with hsame | ⟨stage, hcalls, hl⟩
  · rw [hsame]
    exact ⟨call, hfind, hlate⟩
  · rw [hcalls]
    exact ⟨⟨k, stage⟩, Table.find_save_self hfind, hl⟩

end Steps

/-- Nothing has been called yet. -/
structure System.Initial (s : System) : Prop where
  calls : s.calls = .empty
  locked : s.locked = none
  longest : s.longest = s.row.expiresAt
  revokedTime : s.revokedTime = none

theorem System.Initial.sound {cfg : Config} {s : System} (h : s.Initial) : s.Sound cfg := by
  have hrows : s.calls.rows = [] := by rw [h.calls]; rfl
  refine ⟨fun _ => h.revokedTime, fun t ht => ?_, h.longest.ge, fun call hcall => ?_,
    fun call hcall => ?_⟩
  · rw [h.revokedTime] at ht
    cases ht
  all_goals
    rw [hrows] at hcall
    cases hcall

open Runs

/-- In every run whose denials are fresh, no `GetUserSessionCached` that starts after a
revocation has returned that it revoked the session returns the session. -/
theorem revoked_session_not_returned (cfg : Config) {s : System} (hs : s.Initial)
    {as bs : List Action} {id k : Nat} {result : Result}
    (hfresh : Along (System.step cfg) (System.Fresh cfg) s
      (as ++ .call k .getUserSessionCached :: bs))
    (hresult : (run (System.step cfg) s as).result id = some result)
    (hrevokes : result.revokes) (hk : (run (System.step cfg) s as).calls.find k = none)
    (session : UserSession) :
    (run (System.step cfg) s (as ++ .call k .getUserSessionCached :: bs)).result k ≠
      some (.session session) := by
  obtain ⟨hbefore, -, hafter⟩ := along_append.mp hfresh
  have hsound : (run (System.step cfg) s as).Sound cfg :=
    run_invariant (fun s a (h : s.Sound cfg) ha => h.step a ha) hs.sound hbefore
  have hstart : (System.step cfg (run (System.step cfg) s as)
      (.call k .getUserSessionCached)).After cfg id k := by
    refine ⟨hsound.step _ trivial, ⟨result, System.result_step hresult _, hrevokes⟩, ?_⟩
    obtain ⟨calls, hins⟩ := Option.isSome_iff_exists.mp (Table.insert_isSome
      (t := (run (System.step cfg) s as).calls) (r := ⟨k, .readCache .direct⟩) hk)
    simp only [System.step, Job.stage, hins]
    exact ⟨⟨k, .readCache .direct⟩, by rw [Table.find_insert hins, if_pos rfl], trivial⟩
  have hend := run_invariant (fun s a (h : s.After cfg id k) ha => h.step a ha) hstart hafter
  obtain ⟨call, hfind, hlate⟩ := hend.late
  rw [run_append, run_cons]
  intro hsession
  unfold System.result at hsession
  split at hsession
  next hreturned =>
    cases hsession
    cases hfind.symm.trans hreturned
    exact hlate session rfl
  · cases hsession

/-! ## Two runs -/

/-- A session of a minute of cache time and a month of idle time. -/
def sampleConfig : Config where
  sid := "s1"
  cacheTTL := 60
  idleTimeout := 2592000
  hashRefreshSecret secret := "h:" ++ secret
  deriveNextRefreshSecret sid secret := secret ++ sid

/-- Nothing has been called on a session that ends at a time; it is the thousandth second. -/
def sampleSystem (expiresAt : Int) : System where
  clock := 1000000
  row := ⟨"s1", 7, 1, 1, .active, "h:a", "", 0, 990, expiresAt, 0, ""⟩
  cache := none
  locked := none
  cachedUser := ⟨1, 1⟩
  user := ⟨1, 1⟩
  calls := .empty
  longest := expiresAt
  revokedTime := none

theorem sampleSystem_initial (expiresAt : Int) : (sampleSystem expiresAt).Initial :=
  ⟨rfl, rfl, rfl, rfl⟩

def stepsOf (id n : Nat) : List Action := List.replicate n (.step id)

/-- The session is revoked, and a reader comes after two minutes. -/
def revokedSession : List Action := .call 1 (.revokeUserSession "logout") :: stepsOf 1 9

def laterReader : List Action := .tick 120000 :: stepsOf 2 8

theorem revokedSession_denied :
    (run (System.step sampleConfig) (sampleSystem 5000) revokedSession).result 1 =
        some (.revoked true) ∧
      (run (System.step sampleConfig) (sampleSystem 5000)
        (revokedSession ++ .call 2 .getUserSessionCached :: laterReader)).result 2 =
          some (.failed .inactive) ∧
      ∀ session, (run (System.step sampleConfig) (sampleSystem 5000)
        (revokedSession ++ .call 2 .getUserSessionCached :: laterReader)).result 2 ≠
          some (.session session) := by
  have hrevoked : (run (System.step sampleConfig) (sampleSystem 5000) revokedSession).result 1 =
      some (.revoked true) := by decide
  exact ⟨hrevoked, by decide, revoked_session_not_returned sampleConfig
    (sampleSystem_initial 5000) (by decide) hrevoked rfl (by decide)⟩

/-- A session in its last second is being revoked when its client is seen again. The row is
extended, and the fill of the extended session is still on its way when the tombstone, which
lasts as long as the session the revocation has read, is gone. -/
def extendedSession : List Action :=
  .call 1 (.revokeUserSession "logout") :: stepsOf 1 2 ++
    .call 2 (.touchUserSessionPresence "h:a" 1000 2593000) :: stepsOf 2 4 ++ stepsOf 1 7

/-- The tombstone ends, the fill arrives and a reader starts. -/
def revivedSession : List Action :=
  [.tick 1001, .step 2, .call 3 .getUserSessionCached] ++ stepsOf 3 2

theorem revoked_session_returned :
    (sampleSystem 1001).Initial ∧
      (run (System.step sampleConfig) (sampleSystem 1001) extendedSession).result 1 =
        some (.revoked true) ∧
      (run (System.step sampleConfig) (sampleSystem 1001) extendedSession).row.status = .revoked ∧
      ∃ session, session.sid = "s1" ∧
        (run (System.step sampleConfig) (sampleSystem 1001)
          (extendedSession ++ revivedSession)).result 3 = some (.session session) :=
  ⟨sampleSystem_initial 1001, by decide, by decide,
    ⟨"s1", 7, 1, 1, .active, "", "", 0, 1000, 2593000, 0, ""⟩, rfl, by decide⟩

end NewApi.Session
