import NewApi.Token.Lockout

/-!
# A token at rest can be used

No mutation is in progress, and the marker and the hash have expired. If no call left an odd
generation behind whose mutation did not commit, then `GetTokenByKey`, running alone, returns the
row: it ends a committed mutation, raises a generation that Redis lost, and fills the hash. A
mutation can begin after it, at the even generation.
-/

namespace NewApi

open Runs Relation

/-! ## Invariants -/

namespace TokenSystem

/-- A generation whose mutation is not committed has an owner, and the owner's call
can still commit or take it back. -/
structure Unlocked (s : TokenSystem) : Prop where
  opened : s.store.Open → s.store.owner ≠ none
  owner : ∀ id, s.store.owner = some id → ∃ c, s.calls.find id = some c ∧ c.stage.owning = true

/-- A committed generation is ended by its own call. -/
def Closing (s : TokenSystem) : Prop :=
  s.store.current % 2 = 1 → s.store.row ≠ none → s.store.owner = none →
    ∃ id c, s.calls.find id = some c ∧ c.stage.closing s.store.current = true

variable {s : TokenSystem}

theorem Initial.unlocked (h : s.Initial) : s.Unlocked where
  opened hopen := by
    have heven := h.generation
    have hodd := hopen.1
    omega
  owner id howner := by
    cases h.owner.symm.trans howner

theorem Initial.closing (h : s.Initial) : s.Closing := by
  intro hodd
  have heven := h.generation
  omega

variable {id : Nat} {call : TokenCall}

variable {c : TokenCall} {next : TokenStore × TokenStage}

theorem find_stage_of_ne {j : Nat} (stage : TokenStage) (hj : call.id ≠ j)
    (hfind : s.calls.find j = some c) :
    (s.calls.save { call with stage := stage }).find j = some c := by
  rw [Table.find_save_of_ne (show ({ call with stage := stage } : TokenCall).id ≠ j from hj)]
  exact hfind

theorem Unlocked.crash (h : s.Unlocked) (hfind : s.calls.find id = some call)
    (hstage : call.stage.owning = false) :
    TokenStore.Calm s.store (s.store.crash id) ∧ s.store.owner ≠ some id := by
  have hown : s.store.owner ≠ some id := by
    intro howner
    obtain ⟨c, hfind', howning⟩ := h.owner id howner
    obtain rfl := Option.some.inj (hfind.symm.trans hfind')
    cases howning.symm.trans hstage
  have hcrash : s.store.crash id = s.store.release id := if_neg hown
  rw [hcrash]
  exact ⟨(TokenStore.Calm.refl s.store).release id, hown⟩

theorem Unlocked.stepped (h : s.Unlocked) (hfind : s.calls.find id = some call)
    (hnext : Owned id s.store next) :
    TokenSystem.Unlocked ⟨next.1, s.calls.save { call with stage := next.2 }⟩ where
  opened := hnext.opened
  owner j howner := by
    obtain rfl : call.id = id := Table.find_key hfind
    by_cases hj : j = call.id
    · subst hj
      exact ⟨_, Table.find_save_self hfind, hnext.own howner⟩
    · obtain ⟨c, hfind', howning⟩ := h.owner j (hnext.other j hj howner)
      exact ⟨c, find_stage_of_ne _ (Ne.symm hj) hfind', howning⟩

theorem Unlocked.step (h : s.Unlocked) (hs : s.Fenced) (a : TokenAction) (ha : s.Survives a) :
    (s.step a).Unlocked := by
  cases a with simp only [TokenSystem.step]
  | call id job =>
    cases hinsert : s.calls.insert ⟨id, job.start, s.store.versions⟩ with
    | none => exact h
    | some calls =>
      refine ⟨h.opened, fun j howner => ?_⟩
      obtain ⟨c, hfind, howning⟩ := h.owner j howner
      exact ⟨c, Table.find_after_insert hinsert hfind, howning⟩
  | step id env =>
    simp only [TokenSystem.Survives] at ha
    cases hfind : s.calls.find id with
    | none => exact h
    | some call =>
      rw [hfind] at ha
      have hmem := Table.find_mem hfind
      have hok := hs.ok call hmem
      rw [Table.find_key hfind] at hok
      refine h.stepped hfind
        (advance_owned hs.sound env hok (hs.born call hmem) ha h.opened fun howner => ?_)
      obtain ⟨c, hfind', howning⟩ := h.owner id howner
      obtain rfl := Option.some.inj (hfind.symm.trans hfind')
      exact howning
  | crash id =>
    simp only [TokenSystem.Survives] at ha
    cases hfind : s.calls.find id with
    | none => exact h
    | some call =>
      rw [hfind] at ha
      obtain ⟨hcalm, hown⟩ := h.crash hfind ha
      have howned : Owned id s.store (s.store.crash id, .crashed) := .of_calm hcalm h.opened hown
      exact h.stepped hfind howned
  | expireHash | expirePending => exact ⟨h.opened, h.owner⟩

/-- A step of a call, from what it does to the end of the mutation. -/
theorem Closing.stepped (h : s.Closing) (hfind : s.calls.find id = some call)
    (hnext : Closes s.store call.stage next) :
    TokenSystem.Closing ⟨next.1, s.calls.save { call with stage := next.2 }⟩ := by
  intro hodd hrow howner
  obtain rfl : call.id = id := Table.find_key hfind
  rcases hnext hodd hrow howner with hown | ⟨hcurrent, hrow', howner', hstage⟩
  · exact ⟨call.id, _, Table.find_save_self hfind, hown⟩
  rw [hcurrent] at hodd ⊢
  rw [hrow'] at hrow
  obtain ⟨j, c, hfind', hclosing⟩ := h hodd hrow howner'
  have hj : call.id ≠ j := by
    rintro rfl
    obtain rfl := Option.some.inj (hfind.symm.trans hfind')
    cases hclosing.symm.trans hstage
  exact ⟨j, c, find_stage_of_ne _ hj hfind', hclosing⟩

theorem Closing.step (h : s.Closing) (hs : s.Fenced) (hu : s.Unlocked) (a : TokenAction)
    (ha : s.Survives a) (ha' : s.Completes a) : (s.step a).Closing := by
  cases a with simp only [TokenSystem.step]
  | call id job =>
    cases hinsert : s.calls.insert ⟨id, job.start, s.store.versions⟩ with
    | none => exact h
    | some calls =>
      intro hodd hrow howner
      obtain ⟨j, c, hfind, hclosing⟩ := h hodd hrow howner
      exact ⟨j, c, Table.find_after_insert hinsert hfind, hclosing⟩
  | step id env =>
    simp only [TokenSystem.Survives] at ha
    simp only [TokenSystem.Completes] at ha'
    cases hfind : s.calls.find id with
    | none => exact h
    | some call =>
      rw [hfind] at ha ha'
      have hmem := Table.find_mem hfind
      have hok := hs.ok call hmem
      rw [Table.find_key hfind] at hok
      exact h.stepped hfind (advance_closes hs.sound env hok (hs.born call hmem) ha ha' hu.opened)
  | crash id =>
    simp only [TokenSystem.Survives] at ha
    simp only [TokenSystem.Completes] at ha'
    cases hfind : s.calls.find id with
    | none => exact h
    | some call =>
      rw [hfind] at ha ha'
      have hcloses : Closes s.store call.stage (s.store.crash id, .crashed) :=
        .of_calm (hu.crash hfind ha).1 (ha' _)
      exact h.stepped hfind hcloses
  | expireHash => exact h
  | expirePending => exact h

end TokenSystem

/-! ## A reader alone -/

/-- No mutation is open, and the marker and the hash have expired. -/
structure TokenStore.Settled (s : TokenStore) (r : TokenRow) : Prop where
  row : s.row = some r
  pending : s.pending = none
  hash : s.hash = none
  closed : s.current % 2 = 1 → r.cacheGeneration = s.current + 1
  even : r.cacheGeneration % 2 = 0

/-- A mutation can begin. -/
structure TokenStore.Ready (s : TokenStore) (r : TokenRow) : Prop where
  row : s.row = some r
  pending : s.pending = none
  lock : s.lock = none
  current : s.current % 2 = 0
  even : r.cacheGeneration % 2 = 0

def Alone (id : Nat) (p q : TokenStore × TokenStage) : Prop := q = p.2.advance id ⟨.ok, ""⟩ p.1

section

variable {id : Nat} {s : TokenStore} {r : TokenRow}

open TokenStore (Settled Ready)

attribute [local simp] Alone TokenStage.advance TokenStage.advanceRecover TokenEnv.script

/-- The mutation is ended, and the hash stays away. -/
def TokenStore.ended (s : TokenStore) : TokenStore := { s with generation := some (s.current + 1) }

theorem TokenStore.ended_current (s : TokenStore) : s.ended.current = s.current + 1 := rfl

theorem TokenStore.Settled.finish (h : s.Settled r) (hodd : s.current % 2 = 1) :
    (TokenEnv.mk .ok "").finish r s.current s = (.ok (), s.ended) ∧ s.ended.Settled r := by
  obtain ⟨g, hgen⟩ : ∃ g, s.generation = some g := by
    cases hgen : s.generation with
    | none =>
      rw [TokenStore.current, hgen, Option.getD_none] at hodd
      omega
    | some g => exact ⟨g, rfl⟩
  have hcurrent := TokenStore.current_of_generation hgen
  have hcommit : s.commitTokenCacheMutation r s.current = (true, s.ended) := by
    rw [hcurrent] at hodd ⊢
    simp [TokenStore.commitTokenCacheMutation, TokenStore.endMutation, TokenStore.ended,
      TokenStore.current, hgen, h.pending, h.hash, hodd]
  refine ⟨by simp [TokenEnv.finish, TokenEnv.script, hcommit], h.row, h.pending, h.hash, ?_, h.even⟩
  intro hodd'
  rw [TokenStore.ended_current] at hodd'
  omega

theorem before_reaches (h : s.Settled r) :
    ReflTransGen (Alone id) (s, .before .getToken) (s, .across 3) := by
  have hmiss : Alone id (s, .before .getToken) (s, .across 3) ∨
      Alone id (s, .before .getToken) (s, .readHash .getToken s.current) := by
    simp only [Alone, TokenStage.advance, TokenStage.advanceRead, ne_eq, not_true, if_false]
    split
    · exact .inl rfl
    split
    · exact .inl rfl
    · exact .inr rfl
  rcases hmiss with hmiss | hread
  · exact .single hmiss
  · have hnone : Alone id (s, .readHash .getToken s.current) (s, .across 3) := by
      simp [TokenStage.advanceRead, h.hash, ReadBy.miss]
    exact (ReflTransGen.single hread).tail hnone

theorem acrossRow_even (h : s.Settled r) (k : Nat) (heven : s.current % 2 = 0) :
    ReflTransGen (Alone id) (s, .across (k + 1)) (s, .recover 3) := by
  have hstate : Alone id (s, .across (k + 1)) (s, .acrossRow k s.current false) := by
    simp [h.pending]
  have hrow : Alone id (s, .acrossRow k s.current false) (s, .recover 3) := by
    simp [heven, h.row]
  exact (ReflTransGen.single hstate).tail hrow

variable (id)

/-- `getTokenByKeyAcrossGeneration` ends a committed mutation and goes on to the row. -/
theorem across_reaches (h : s.Settled r) (k : Nat) :
    ∃ s', ReflTransGen (Alone id) (s, .across (k + 2)) (s', .recover 3) ∧ s'.Settled r ∧
      s'.lock = s.lock := by
  rcases Nat.mod_two_eq_zero_or_one s.current with heven | hodd
  · exact ⟨s, acrossRow_even h (k + 1) heven, h, rfl⟩
  obtain ⟨hfinish, hended⟩ := h.finish hodd
  have hstate : Alone id (s, .across (k + 2)) (s, .acrossRow (k + 1) s.current false) := by
    simp [h.pending]
  have hrow : Alone id (s, .acrossRow (k + 1) s.current false)
      (s, .finish (.across (k + 1)) r s.current) := by
    simp [hodd, h.row, h.closed hodd]
  have hend : Alone id (s, .finish (.across (k + 1)) r s.current) (s.ended, .across (k + 1)) := by
    simp [TokenStage.advanceEnd, hfinish, EndedBy.next]
  have heven : s.ended.current % 2 = 0 := by
    rw [TokenStore.ended_current]
    omega
  exact ⟨s.ended, (((ReflTransGen.single hstate).tail hrow).tail hend).trans
    (acrossRow_even hended k heven), hended, rfl⟩

theorem recover_reaches (h : s.Settled r) (k : Nat) (hlock : s.lock = none ∨ s.lock = some id) :
    Alone id (s, .recover (k + 1))
      ({ s with lock := some id }, .recoverState k (.ok (some r))) := by
  have hfree : ¬(s.lock.isSome ∧ s.lock ≠ some id) := by
    rintro ⟨hsome, hne⟩
    rcases hlock with hnone | hown
    · rw [hnone] at hsome
      cases hsome
    · exact hne hown
  simp only [Alone, TokenStage.advance, TokenStage.advanceRecover, ne_eq, not_true, if_false, h.row]
  rw [if_neg hfree]

theorem TokenStore.Settled.locked (h : s.Settled r) (id : Nat) :
    TokenStore.Settled { s with lock := some id } r :=
  ⟨h.row, h.pending, h.hash, h.closed, h.even⟩

theorem recover_level (h : s.Settled r) (k : Nat) (hlock : s.lock = none ∨ s.lock = some id)
    (heven : s.current % 2 = 0) (hle : r.cacheGeneration ≤ s.current) :
    ∃ s', ReflTransGen (Alone id) (s, .recover (k + 1)) (s', .returned r.metadata) ∧
      s'.Ready r := by
  let locked : TokenStore := { s with lock := some id }
  let filled : TokenStore :=
    { locked with generation := some s.current, hash := some ⟨r.metadata, s.current⟩ }
  have hsettled : locked.Settled r := h.locked id
  have hlocked : locked.current = s.current := rfl
  have hstate : Alone id (locked, .recoverState k (.ok (some r))) (locked,
    .init k r s.current) := by
    simp [hsettled.pending, hlocked, heven, Nat.not_lt.mpr hle]
  have hinit : Alone id (locked, .init k r s.current) (filled, .recovered r.metadata) := by
    simp [h.even, TokenStore.cacheInitToken, hlocked, Nat.not_lt.mpr hle, heven, hsettled.pending,
      hsettled.hash, filled]
  have hend : Alone id (filled, .recovered r.metadata)
      ({ filled with lock := none }, .returned r.metadata) := by
    simp [TokenStore.release, filled, locked]
  exact ⟨_,
    (((ReflTransGen.single (recover_reaches id h k hlock)).tail hstate).tail hinit).tail hend,
    h.row, h.pending, rfl, heven, h.even⟩

/-- `recoverTokenCacheFromDatabase` ends a committed mutation, or raises the generation
that Redis lost, and then fills the hash. -/
theorem recover_returns (h : s.Settled r) (k : Nat) (hlock : s.lock = none ∨ s.lock = some id) :
    ∃ s', ReflTransGen (Alone id) (s, .recover (k + 2)) (s', .returned r.metadata) ∧
      s'.Ready r := by
  let locked : TokenStore := { s with lock := some id }
  have hsettled : locked.Settled r := h.locked id
  have hlocked : locked.current = s.current := rfl
  have hrow := recover_reaches id h (k + 1) hlock
  rcases Nat.mod_two_eq_zero_or_one s.current with heven | hodd
  · rcases Nat.lt_or_ge s.current r.cacheGeneration with hlt | hle
    · let raised : TokenStore := { locked with generation := some r.cacheGeneration }
      have hstate : Alone id (locked, .recoverState (k + 1) (.ok (some r)))
          (locked, .restore (k + 1) r) := by
        simp [hsettled.pending, hlocked, heven, hlt, h.even]
      have hraise : Alone id (locked, .restore (k + 1) r) (raised, .recover (k + 1)) := by
        simp [TokenStore.restoreTokenCacheGeneration, hsettled.pending, hsettled.hash, hlocked,
          heven, Nat.not_lt.mpr (Nat.le_of_lt hlt), raised]
      have hraised : raised.Settled r := by
        refine ⟨h.row, h.pending, h.hash, fun hodd => ?_, h.even⟩
        have hodd' : r.cacheGeneration % 2 = 1 := hodd
        have heven' := h.even
        omega
      obtain ⟨s', hreaches, hready⟩ := recover_level id hraised k (.inr rfl) h.even (Nat.le_refl _)
      exact ⟨s', (((ReflTransGen.single hrow).tail hstate).tail hraise).trans hreaches, hready⟩
    · exact recover_level id h (k + 1) hlock heven hle
  · obtain ⟨hfinish, hended⟩ := hsettled.finish hodd
    have hgen := h.closed hodd
    have hstate : Alone id (locked, .recoverState (k + 1) (.ok (some r)))
        (locked, .finish (.recover (k + 1)) r locked.current) := by
      simp [hsettled.pending, hlocked, hodd, hgen]
    have hend : Alone id (locked, .finish (.recover (k + 1)) r locked.current)
        (locked.ended, .recover (k + 1)) := by
      simp [TokenStage.advanceEnd, hfinish, EndedBy.next]
    have hcurrent : locked.ended.current = s.current + 1 := rfl
    obtain ⟨s', hreaches, hready⟩ := recover_level id hended k (.inr rfl) (by omega) (by omega)
    exact ⟨s', (((ReflTransGen.single hrow).tail hstate).tail hend).trans hreaches, hready⟩

theorem begin_reaches (hpending : s.pending = none) (hcurrent : s.current % 2 = 0)
    (heven : r.cacheGeneration % 2 = 0) (mutation : TokenMutation) :
    ∃ s' g, Alone id (s, .begin mutation r) (s', .write mutation r g) := by
  simp [TokenStage.advanceWriter, heven, TokenStore.beginTokenCacheMutation, hcurrent, hpending]

end

/-! ## Mutations and tokens at rest -/

/-- The end of a mutation by the call that made it. -/
def EndedBy.mutating : EndedBy → Bool
  | .writer | .reconciled _ | .reconciledDelete _ => true
  | .across _ | .recover _ => false

/-- The call is a mutation that has not returned. -/
def TokenStage.mutating : TokenStage → Bool
  | .lockRow _ | .begin .. | .write .. | .expect .. | .commit .. | .reload _ | .reconcile ..
  | .abort _ | .undoRow .. | .undo .. => true
  | .finish caller _ _ | .finishDelete caller _ => caller.mutating
  | _ => false

theorem TokenStage.mutating_of_owning {stage : TokenStage} (h : stage.owning = true) :
    stage.mutating = true := by
  cases stage <;> first | rfl | cases h

theorem TokenStage.mutating_of_closing {stage : TokenStage} {g : Nat}
    (h : stage.closing g = true) : stage.mutating = true := by
  cases stage with
  | reload g' => rfl
  | finish caller token g' =>
    cases caller with
    | writer => rfl
    | _ => cases h
  | _ => cases h

namespace TokenSystem

/-- No mutation is in progress, and the marker and the hash have expired. -/
structure AtRest (s : TokenSystem) : Prop where
  calls : ∀ c ∈ s.calls.rows, c.stage.mutating = false
  pending : s.store.pending = none
  hash : s.store.hash = none

/-- A new mutation gets past `beginTokenCacheMutation`. -/
def Begins (s : TokenSystem) : Prop :=
  ∀ id mutation, s.calls.find id = none → ∃ row g,
    ((run step s [.call id (.mutate mutation), tokenStep id, tokenStep id]).calls.find id).map
      TokenCall.stage = some (.write mutation row g)

/-- The call, alone and without errors, returns the metadata, and after it a mutation
can begin. -/
def Reads (s : TokenSystem) (id : Nat) (m : TokenMetadata) : Prop :=
  ∃ n, ((run step s (List.replicate n (tokenStep id))).calls.find id).map TokenCall.stage =
      some (.returned m) ∧ (run step s (List.replicate n (tokenStep id))).Begins

/-- The call gets to the row, which another transaction has locked. -/
def Waits (s : TokenSystem) (id : Nat) : Prop :=
  ∃ n, ((run step s (List.replicate n (tokenStep id))).calls.find id).map TokenCall.stage =
      some (.recover 3) ∧ (run step s (List.replicate n (tokenStep id))).store.lock = s.store.lock

variable {s : TokenSystem} {r : TokenRow} {id : Nat}

theorem find_new (job : TokenJob) (hnew : s.calls.find id = none) :
    (s.step (.call id job)).store = s.store ∧
      (s.step (.call id job)).calls.find id = some ⟨id, job.start, s.store.versions⟩ := by
  have hsome : (s.calls.insert ⟨id, job.start, s.store.versions⟩).isSome := Table.insert_isSome hnew
  obtain ⟨calls, hinsert⟩ := Option.isSome_iff_exists.mp hsome
  simp only [TokenSystem.step, hinsert]
  exact ⟨trivial, (Table.find_insert hinsert id).trans (if_pos rfl)⟩

theorem step_alone {call : TokenCall} (hfind : s.calls.find id = some call) {store : TokenStore}
    {stage : TokenStage} (hnext : Alone id (s.store, call.stage) (store, stage)) :
    (s.step (tokenStep id)).store = store ∧
      (s.step (tokenStep id)).calls.find id = some { call with stage := stage } := by
  have hadvance : (store, stage) = call.stage.advance id ⟨.ok, ""⟩ s.store := hnext
  obtain rfl : call.id = id := Table.find_key hfind
  simp only [tokenStep, TokenSystem.step, hfind, ← hadvance]
  exact ⟨trivial, Table.find_save_self hfind⟩

theorem run_alone {p q : TokenStore × TokenStage} (h : ReflTransGen (Alone id) p q) :
    ∀ {s : TokenSystem} {call : TokenCall}, s.calls.find id = some call →
      p = (s.store, call.stage) →
      ∃ n, (run step s (List.replicate n (tokenStep id))).store = q.1 ∧
        (run step s (List.replicate n (tokenStep id))).calls.find id =
          some { call with stage := q.2 } := by
  induction h using ReflTransGen.head_induction_on with rintro s call hfind rfl
  | refl =>
    exact ⟨0, rfl, hfind⟩
  | @head p q' hhead htail ih =>
    obtain ⟨hstore, hcall⟩ := step_alone hfind hhead
    obtain ⟨n, hstore', hcall'⟩ := ih hcall (by rw [hstore])
    exact ⟨n + 1, hstore', hcall'⟩

theorem begins_of_ready (h : s.store.Ready r) : s.Begins := by
  intro id mutation hnew
  obtain ⟨hstore, hcall⟩ := find_new (.mutate mutation) hnew
  obtain ⟨locked, hlock, hpending, hcurrent⟩ : ∃ locked : TokenStore,
      Alone id (s.store, .lockRow mutation) (locked, .begin mutation r) ∧
        locked.pending = none ∧ locked.current % 2 = 0 := by
    refine ⟨{ s.store with lock := some id }, ?_, h.pending, h.current⟩
    simp [Alone, TokenStage.advance, TokenStage.advanceWriter, h.lock, h.row]
  obtain ⟨begun, g, hbegin⟩ := begin_reaches id hpending hcurrent h.even mutation
  rw [← hstore] at hlock
  obtain ⟨hstore₁, hcall₁⟩ := step_alone hcall hlock
  rw [← hstore₁] at hbegin
  obtain ⟨-, hcall₂⟩ := step_alone hcall₁ hbegin
  refine ⟨r, g, ?_⟩
  rw [run_cons, run_cons, run_cons, run_nil, hcall₂]
  rfl

/-- At rest the row is what the last mutation committed, or the generation is even. -/
theorem AtRest.settled (h : s.AtRest) (hs : s.Fenced) (hu : s.Unlocked)
    (hrow : s.store.row = some r) : s.store.Settled r where
  row := hrow
  pending := h.pending
  hash := h.hash
  closed hodd := by
    by_contra hne
    obtain ⟨id, howner⟩ := Option.ne_none_iff_exists'.mp (hu.opened ⟨hodd, r, hrow, hne⟩)
    obtain ⟨c, hfind, howning⟩ := hu.owner id howner
    have hrest := h.calls c (Table.find_mem hfind)
    rw [TokenStage.mutating_of_owning howning] at hrest
    cases hrest
  even := hs.sound.even r hrow

/-- With mutations that their own calls end, the generation is even at rest. -/
theorem AtRest.ready (h : s.AtRest) (hs : s.Fenced) (hu : s.Unlocked) (hc : s.Closing)
    (hrow : s.store.row = some r) (hlock : s.store.lock = none) : s.store.Ready r := by
  refine ⟨hrow, h.pending, hlock, ?_, hs.sound.even r hrow⟩
  rcases Nat.mod_two_eq_zero_or_one s.store.current with heven | hodd
  · exact heven
  have hnone : s.store.owner = none := by
    cases howner : s.store.owner with
    | none => rfl
    | some id =>
      obtain ⟨c, hfind, howning⟩ := hu.owner id howner
      have hrest := h.calls c (Table.find_mem hfind)
      rw [TokenStage.mutating_of_owning howning] at hrest
      cases hrest
  obtain ⟨id, c, hfind, hclosing⟩ := hc hodd (by rw [hrow]; simp) hnone
  have hrest := h.calls c (Table.find_mem hfind)
  rw [TokenStage.mutating_of_closing hclosing] at hrest
  cases hrest

theorem reads_of_recover (h : s.store.Settled r) (hlock : s.store.lock = none) {call : TokenCall}
    (hfind : s.calls.find id = some call) (hstage : call.stage = .recover 3) :
    s.Reads id r.metadata := by
  obtain ⟨s', hreaches, hready⟩ := recover_returns id h 1 (.inl hlock)
  obtain ⟨n, hstore, hcall⟩ := run_alone hreaches hfind (by rw [hstage])
  refine ⟨n, by rw [hcall]; rfl, ?_⟩
  refine begins_of_ready (r := r) ?_
  rw [hstore]
  exact hready

theorem recover_of_new (h : s.store.Settled r) (fromDB : Bool) (hnew : s.calls.find id = none) :
    ∃ n s' call, run step (s.step (.call id (.getTokenByKey fromDB)))
        (List.replicate n (tokenStep id)) = s' ∧
      s'.calls.find id = some call ∧ call.stage = .recover 3 ∧ s'.store.Settled r ∧
        s'.store.lock = s.store.lock := by
  obtain ⟨hstore, hcall⟩ := find_new (.getTokenByKey fromDB) hnew
  obtain ⟨s', hreaches, hsettled, hlock⟩ := across_reaches id h 1
  have hstart : ReflTransGen (Alone id)
      ((s.step (.call id (.getTokenByKey fromDB))).store, (TokenJob.getTokenByKey fromDB).start)
      (s', .recover 3) := by
    rw [hstore]
    cases fromDB with
    | true => exact hreaches
    | false => exact (before_reaches h).trans hreaches
  obtain ⟨n, hstore', hcall'⟩ := run_alone hstart hcall rfl
  refine ⟨n, _, _, rfl, hcall', rfl, ?_⟩
  rw [hstore']
  exact ⟨hsettled, hlock⟩

theorem waits_of_new (h : s.store.Settled r) (fromDB : Bool) (hnew : s.calls.find id = none) :
    (s.step (.call id (.getTokenByKey fromDB))).Waits id := by
  obtain ⟨n, s', call, rfl, hfind, hstage, -, hlock⟩ := recover_of_new h fromDB hnew
  refine ⟨n, by rw [hfind, Option.map_some, hstage], hlock.trans ?_⟩
  rw [(find_new (.getTokenByKey fromDB) hnew).1]

theorem reads_of_new (h : s.store.Settled r) (hlock : s.store.lock = none) (fromDB : Bool)
    (hnew : s.calls.find id = none) :
    (s.step (.call id (.getTokenByKey fromDB))).Reads id r.metadata := by
  obtain ⟨n, s', call, rfl, hfind, hstage, hsettled, hlock'⟩ := recover_of_new h fromDB hnew
  obtain ⟨n', hreads⟩ := reads_of_recover hsettled (hlock'.trans hlock) hfind hstage
  refine ⟨n + n', ?_⟩
  rw [List.replicate_add, run_append]
  exact hreads

end TokenSystem

/-! ## Runs -/

/-- From a token at rest, after every run in which no call leaves an open generation
behind, and with the token at rest again: a reader gets the metadata of the row, and
after it a mutation can begin; it waits only for the lock of the row, and a reader
that waited for the lock gets the metadata when the lock is free. If moreover every
committed mutation is ended by its own call, a mutation can begin at once. -/
theorem token_not_locked_out {s : TokenSystem} (hs : s.Initial) {as : List TokenAction}
    (hsurvives : Along TokenSystem.step TokenSystem.Survives s as)
    (hrest : (run TokenSystem.step s as).AtRest) {r : TokenRow}
    (hrow : (run TokenSystem.step s as).store.row = some r) :
    let s' := run TokenSystem.step s as
    (∀ id fromDB, s'.calls.find id = none →
        (s'.step (.call id (.getTokenByKey fromDB))).Waits id) ∧
      (s'.store.lock = none →
        (∀ id fromDB, s'.calls.find id = none →
          (s'.step (.call id (.getTokenByKey fromDB))).Reads id r.metadata) ∧
        (∀ id call, s'.calls.find id = some call → call.stage = .recover 3 →
          s'.Reads id r.metadata) ∧
        (Along TokenSystem.step TokenSystem.Completes s as → s'.Begins)) := by
  have hunlocked : (run TokenSystem.step s as).Fenced ∧ (run TokenSystem.step s as).Unlocked :=
    run_invariant (I := fun s => s.Fenced ∧ s.Unlocked)
      (fun t a h ha => ⟨h.1.step a, h.2.step h.1 a ha⟩) ⟨hs.fenced, hs.unlocked⟩ hsurvives
  have hsettled := hrest.settled hunlocked.1 hunlocked.2 hrow
  refine ⟨fun id fromDB hnew => TokenSystem.waits_of_new hsettled fromDB hnew, fun hlock =>
    ⟨fun id fromDB hnew => TokenSystem.reads_of_new hsettled hlock fromDB hnew,
      fun id call hfind hstage => TokenSystem.reads_of_recover hsettled hlock hfind hstage, ?_⟩⟩
  intro hcompletes
  have hclosing : (run TokenSystem.step s as).Fenced ∧ (run TokenSystem.step s as).Unlocked ∧
      (run TokenSystem.step s as).Closing :=
    run_invariant (I := fun s => s.Fenced ∧ s.Unlocked ∧ s.Closing)
      (fun t a h ha => ⟨h.1.step a, h.2.1.step h.1 a ha.1, h.2.2.step h.1 h.2.1 a ha.1 ha.2⟩)
      ⟨hs.fenced, hs.unlocked, hs.closing⟩ (hsurvives.and hcompletes)
  exact TokenSystem.begins_of_ready
    (hrest.ready hclosing.1 hclosing.2.1 hclosing.2.2 hrow hlock)

/-- A writer disables the token and ends its mutation, then the marker and the hash
are gone. -/
def disabledAtRest : List TokenAction :=
  .call 1 (.mutate (.update (fun m => { m with status := 2 }) "a")) ::
    List.replicate 7 (tokenStep 1) ++ [.expirePending, .expireHash]

theorem disabledAtRest_reads :
    ((run TokenSystem.step coldToken disabledAtRest).step
        (.call 2 (.getTokenByKey false))).Reads 2 disabledToken ∧
      (run TokenSystem.step coldToken disabledAtRest).Begins := by
  have hrest : (run TokenSystem.step coldToken disabledAtRest).AtRest :=
    ⟨by decide, rfl, rfl⟩
  have hsurvives : Along TokenSystem.step TokenSystem.Survives coldToken disabledAtRest :=
    ⟨trivial, trivial, (show TokenFate.ok ≠ .unacked by decide), trivial, trivial, .inl rfl,
      trivial, trivial, trivial, trivial, trivial⟩
  have hcompletes : Along TokenSystem.step TokenSystem.Completes coldToken disabledAtRest :=
    ⟨trivial, trivial, trivial, trivial, trivial, rfl, rfl,
      (show TokenFate.ok ≠ .lost by decide), trivial, trivial, trivial⟩
  obtain ⟨hreads, -, hbegins⟩ := (token_not_locked_out coldToken_initial hsurvives hrest
    (r := ⟨disabledToken, 2, "a"⟩) rfl).2 rfl
  exact ⟨hreads 2 false rfl, hbegins hcompletes⟩

/-- A writer stops between `beginTokenCacheMutation` and its commit. -/
def abandonedRun : List TokenAction :=
  .call 1 (.mutate (.update (fun m => { m with status := 2 }) "a")) ::
    List.replicate 3 (tokenStep 1) ++ [.crash 1, .expirePending]

/-- What a call answers when it runs alone after the run. -/
def answerAfter (as : List TokenAction) (job : TokenJob) (n : Nat) : Option TokenStage :=
  ((run TokenSystem.step coldToken (as ++ .call 2 job :: List.replicate n (tokenStep 2))).calls.find
    2).map TokenCall.stage

/-- The row is there and the token is at rest, but nobody can read or change it. -/
theorem abandoned_locked_out :
    (run TokenSystem.step coldToken abandonedRun).AtRest ∧
      (run TokenSystem.step coldToken abandonedRun).store.row = some ⟨issuedToken, 0, ""⟩ ∧
      (run TokenSystem.step coldToken abandonedRun).store.lock = none ∧
      answerAfter abandonedRun (.getTokenByKey false) 3 =
        some (.failed tokenCacheMutationPending) ∧
      answerAfter abandonedRun (.mutate .delete) 3 = some (.failed tokenCacheMutationPending) :=
  ⟨⟨by decide, rfl, rfl⟩, rfl, rfl, rfl, rfl⟩

end NewApi
