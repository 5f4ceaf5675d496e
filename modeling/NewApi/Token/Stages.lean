import NewApi.Token.Fence

/-!
# What a call knows at each stage

Every call knows something about the stores at each of its stages (`Ok`): a writer holds the lock
of the row it read and owns the generation it began, whoever ends a mutation holds the row that
was committed with it, and a reader holds a copy that shows the row while its generation is
current. `advance_ok` leads from one stage to the next, and `Ok.other` carries a call's fact over
the moves of the others.
-/

namespace NewApi

open TokenStore (CacheInit Move Effect LockMove Sound)

/-! ## What the scripts do -/

namespace TokenStore

variable {id : Nat} {s s' : TokenStore}

theorem Effect.refl : Effect id s s := .kept rfl rfl rfl (.inl rfl) (.inl rfl)

theorem Move.refl (hs : s.Sound) : Move id s s := ⟨.inl rfl, .refl, hs.marker⟩

@[simp] theorem release_current : (s.release id).current = s.current := by
  unfold release; split <;> rfl

@[simp] theorem release_owner : (s.release id).owner = s.owner := by
  unfold release; split <;> rfl

@[simp] theorem release_generation : (s.release id).generation = s.generation := by
  unfold release; split <;> rfl

@[simp] theorem release_pending : (s.release id).pending = s.pending := by
  unfold release; split <;> rfl

theorem release_lock : LockMove id s (s.release id) := by
  unfold release
  split
  next hlock => exact .inr (.inr ⟨hlock, rfl⟩)
  · exact .inl rfl

theorem Effect.setLock (h : Effect id s s') (lock : Option Nat) :
    Effect id s { s' with lock := lock } := by
  cases h with
  | kept h₁ h₂ h₃ h₄ h₅ => exact .kept h₁ h₂ h₃ h₄ h₅
  | fenced h₁ h₂ h₃ h₄ h₅ h₆ h₇ => exact .fenced h₁ h₂ h₃ h₄ h₅ h₆ h₇
  | undone h₁ h₂ h₃ h₄ h₅ h₆ => exact .undone h₁ h₂ h₃ h₄ h₅ h₆
  | ended h₁ h₂ h₃ h₄ h₅ h₆ h₇ => exact .ended h₁ h₂ h₃ h₄ h₅ h₆ h₇
  | raised h₁ h₂ h₃ h₄ h₅ h₆ h₇ => exact .raised h₁ h₂ h₃ h₄ h₅ h₆ h₇
  | cached h₁ h₂ h₃ h₄ h₅ h₆ h₇ => exact .cached h₁ h₂ h₃ h₄ h₅ h₆ h₇
  | committed h₁ h₂ h₃ h₄ h₅ h₆ h₇ => exact .committed h₁ h₂ h₃ h₄ h₅ h₆ h₇

theorem Effect.release (h : Effect id s s') : Effect id s (s'.release id) := by
  unfold TokenStore.release
  split
  · exact h.setLock none
  · exact h

theorem Move.release (h : Move id s s') : Move id s (s'.release id) where
  lock := by
    rcases h.lock with hsame | ⟨hnone, htaken⟩ | ⟨hown, hfree⟩
    · have hrelease := @release_lock id s'
      simp only [LockMove, hsame] at hrelease ⊢
      exact hrelease
    · exact .inl (by simp [TokenStore.release, htaken, hnone])
    · exact .inr (.inr ⟨hown, by simp [TokenStore.release, hfree]⟩)
  effect := h.effect.release
  marker := by simpa using h.marker

/-- An odd generation was there before, with the same row. -/
structure Calm (s s' : TokenStore) : Prop where
  owner : s'.owner = s.owner
  odd : s'.current % 2 = 1 → s'.current = s.current ∧ s'.row = s.row

theorem Calm.refl (s : TokenStore) : Calm s s := ⟨rfl, fun _ => ⟨rfl, rfl⟩⟩

theorem Calm.even (howner : s'.owner = s.owner) (heven : s'.current % 2 = 0) : Calm s s' :=
  ⟨howner, fun hodd => by omega⟩

theorem Calm.release (h : Calm s s') (id : Nat) : Calm s (s'.release id) := by
  unfold TokenStore.release
  split
  · exact ⟨h.owner, h.odd⟩
  · exact h

/-- A move that makes no odd generation. -/
structure Quiet (id : Nat) (s s' : TokenStore) : Prop extends Move id s s', Calm s s'

theorem Quiet.refl (hs : s.Sound) : Quiet id s s := ⟨.refl hs, .refl s⟩

theorem Quiet.release (h : Quiet id s s') : Quiet id s (s'.release id) :=
  ⟨h.toMove.release, h.toCalm.release id⟩

/-- A script that ends a mutation does nothing, or it runs at the mutation's own
generation. -/
theorem endMutation_cases (hs : s.Sound) (incoming : Nat) (change : TokenStore → TokenStore) :
    (endMutation incoming change s).2 = s ∨
      (s.generation = some incoming ∧ incoming % 2 = 1 ∧
        (endMutation incoming change s).2 =
          { change s with pending :=
              if (change s).pending = some incoming then none else (change s).pending }) := by
  cases hgen : s.generation with
  | none =>
    have hpending := hs.marker hgen
    simp [endMutation, hgen, hpending]
  | some current =>
    have hself : { s with generation := some ((some current).getD incoming) } = s := by
      rw [Option.getD_some, ← hgen]
    have hcurrent : s.current = current := by rw [TokenStore.current, hgen, Option.getD_some]
    simp only [endMutation, hgen, hself, hcurrent, reduceCtorEq, false_and, if_false]
    split
    · exact .inl rfl
    split
    · exact .inl rfl
    next hlt hne =>
      obtain rfl : current = incoming := by omega
      exact .inr ⟨rfl, by omega, rfl⟩

/-! ## Facts of a call -/

/-- The call holds the lock of the row it read. -/
structure Locked (s : TokenStore) (id : Nat) (r : TokenRow) : Prop where
  lock : s.lock = some id
  row : s.row = some r

/-- The generation is the call's to take back. -/
structure Owns (s : TokenStore) (id g : Nat) : Prop where
  owner : s.owner = some id
  current : s.current = g

/-- The mutation at `g` was committed with the row, as far as it has not ended. -/
structure Finishing (s : TokenStore) (token : TokenRow) (g : Nat) : Prop where
  released : s.Released g
  generation : token.cacheGeneration = g + 1
  row : s.current = g → s.row = some token

variable {r token : TokenRow} {g : Nat}

theorem Locked.other {j : Nat} (hm : Move id s s') (hj : j ≠ id) (h : s.Locked j r) :
    s'.Locked j r :=
  ⟨hm.lock.keeps hj h.lock, (hm.effect.row_locked hj h.lock).trans h.row⟩

theorem Owns.other {j : Nat} (hs : s.Sound) (hm : Move id s s') (hj : j ≠ id) (h : s.Owns j g) :
    s'.Owns j g := by
  obtain ⟨howner, hcurrent⟩ := hm.effect.owns hs hj h.owner h.current
  exact ⟨howner, hcurrent⟩

/-- A released generation is current only as long as the row does not change. -/
theorem Released.back (hs : s.Sound) (hm : Effect id s s') (h : s.Released g)
    (hcurrent : s'.current = g) : s.current = g ∧ s'.row = s.row := by
  obtain ⟨hodd, hcase⟩ := h
  cases hm with
  | kept hsame hrow => exact ⟨by omega, hrow⟩
  | fenced _ heven hnext | ended _ _ hnext | raised heven hle | cached heven _ hsame => omega
  | undone howner hback =>
    have hown := hs.owner_odd howner
    omega
  | committed howner _ hsame =>
    rcases hcase with hlt | ⟨-, hnone⟩
    · omega
    · cases howner.symm.trans hnone

theorem Finishing.move (hs : s.Sound) (hm : Effect id s s') (h : s.Finishing token g) :
    s'.Finishing token g where
  released := h.released.move hs hm
  generation := h.generation
  row hcurrent := by
    obtain ⟨hback, hrow⟩ := h.released.back hs hm hcurrent
    exact hrow.trans (h.row hback)

/-! ## The scripts are moves -/

theorem beginTokenCacheMutation_move (hs : s.Sound) (hr : s.row = some r) :
    Move id s (s.beginTokenCacheMutation r.cacheGeneration).2 := by
  unfold beginTokenCacheMutation
  split
  · exact .refl hs
  next hfree =>
  have heven : s.current % 2 = 0 := by
    by_contra hodd
    exact hfree (.inl hodd)
  exact ⟨.inl rfl, .fenced hr heven rfl rfl rfl rfl (.inl rfl), fun h => by cases h⟩

theorem beginTokenCacheMutation_owned (hr : s.row = some r)
    (hg : (s.beginTokenCacheMutation r.cacheGeneration).1 = some g) :
    Move id s { (s.beginTokenCacheMutation r.cacheGeneration).2 with owner := some id } ∧
      (s.beginTokenCacheMutation r.cacheGeneration).2.current = g := by
  revert hg
  unfold beginTokenCacheMutation
  split
  · exact fun hg => by cases hg
  next hfree =>
  intro hg
  have heven : s.current % 2 = 0 := by
    by_contra hodd
    exact hfree (.inl hodd)
  exact ⟨⟨.inl rfl, .fenced hr heven rfl rfl rfl rfl (.inr rfl), fun h => by cases h⟩,
    Option.some.inj hg⟩

theorem not_open_of_row (hr : s.row = some r) (hgen : r.cacheGeneration = s.current + 1) :
    ¬s.Open := by
  rintro ⟨-, r', hr', hne⟩
  obtain rfl := Option.some.inj (hr.symm.trans hr')
  exact hne hgen

theorem not_open_of_deleted (hr : s.row = none) : ¬s.Open := by
  rintro ⟨-, r, hr', -⟩
  rw [hr] at hr'
  cases hr'

theorem next_even (h : g % 2 = 1) : (g + 1) % 2 = 0 := by omega

theorem current_of_generation (h : s.generation = some g) : s.current = g := by
  rw [TokenStore.current, h, Option.getD_some]

section

variable (hs : s.Sound)

include hs

theorem commitTokenCacheMutation_quiet (h : s.Finishing token g) :
    Quiet id s (s.commitTokenCacheMutation token g).2 := by
  rcases endMutation_cases hs g _ with hsame | ⟨hgen, hodd, hchange⟩
  · rw [commitTokenCacheMutation, hsame]
    exact .refl hs
  have hcurrent := current_of_generation hgen
  have hrow := h.row hcurrent
  have hclosed := not_open_of_row hrow (by rw [hcurrent, h.generation])
  rw [commitTokenCacheMutation, hchange]
  refine ⟨⟨.inl rfl, .ended (by omega) hclosed (by rw [hcurrent]; rfl) rfl rfl ?_ rfl,
    fun h => by cases h⟩, .even rfl (next_even hodd)⟩
  cases hhash : s.hash with
  | none => exact .inl rfl
  | some old => exact .inr (.inr ⟨token, hrow, by simp [hcurrent]⟩)

theorem abortedCommit_quiet (h : s.Finishing token g) : Quiet id s (s.abortedCommit g) := by
  unfold abortedCommit
  split
  next hgen =>
    have hcurrent := current_of_generation hgen.1
    have hclosed := not_open_of_row (h.row hcurrent) (by rw [hcurrent, h.generation])
    exact ⟨⟨.inl rfl, .ended (by omega) hclosed (by rw [hcurrent]; rfl) rfl rfl (.inl rfl) rfl,
      fun h => by cases h⟩, .even rfl (next_even (by omega))⟩
  · exact .refl hs

theorem commitTokenCacheDeleteMutation_quiet (hrow : s.row = none) (g : Nat) :
    Quiet id s (s.commitTokenCacheDeleteMutation g).2 := by
  rcases endMutation_cases hs g _ with hsame | ⟨hgen, hodd, hchange⟩
  · rw [commitTokenCacheDeleteMutation, hsame]
    exact .refl hs
  have hcurrent := current_of_generation hgen
  rw [commitTokenCacheDeleteMutation, hchange]
  exact ⟨⟨.inl rfl, .ended (by omega) (not_open_of_deleted hrow) (by rw [hcurrent]; rfl) rfl rfl
    (.inr (.inl rfl)) rfl, fun h => by cases h⟩, .even rfl (next_even hodd)⟩

theorem Move.disown (howner : s.owner = some id) : Move id s s.disown :=
  ⟨.inl rfl, .kept rfl rfl rfl (.inl rfl) (.inr ⟨howner, rfl⟩), hs.marker⟩

theorem rollbackTokenCacheMutation_move (h : s.Owns id g) :
    Move id s (s.rollbackTokenCacheMutation g).2.disown := by
  rcases endMutation_cases hs g _ with hsame | ⟨hgen, hodd, hchange⟩
  · rw [rollbackTokenCacheMutation, hsame]
    exact .disown hs h.owner
  rw [rollbackTokenCacheMutation, hchange]
  have hback : g - 1 + 1 = s.current := by
    rw [h.current]
    omega
  exact ⟨.inl rfl, .undone h.owner hback rfl rfl rfl rfl, fun h => by cases h⟩

theorem restoreTokenCacheGeneration_quiet (hr : s.row = some r) :
    Quiet id s (s.restoreTokenCacheGeneration r.cacheGeneration).2 := by
  have heven := hs.even r hr
  unfold restoreTokenCacheGeneration
  split
  · exact .refl hs
  split
  · exact .refl hs
  next hcold hstable =>
  have hhash : s.hash = none := by
    by_contra hsome
    exact hcold (.inr (Option.isSome_iff_ne_none.mpr hsome))
  have hcurrent : s.current % 2 = 0 ∧ s.current ≤ r.cacheGeneration := by
    cases hgen : s.generation with
    | none =>
      have hzero : s.current = 0 := by rw [TokenStore.current, hgen, Option.getD_none]
      omega
    | some g =>
      simp only [hgen, Option.isSome_some, true_and, not_or, not_not, not_lt] at hstable
      exact hstable
  exact ⟨⟨.inl rfl, .raised hcurrent.1 hcurrent.2 heven rfl rfl hhash rfl, fun h => by cases h⟩,
    .even rfl heven⟩

theorem invalidateTokenCache_quiet : Quiet id s s.invalidateTokenCache := by
  rcases Nat.mod_two_eq_zero_or_one s.current with heven | hodd
  · have hgen : s.invalidateTokenCache.generation = some (s.current + 2) := by
      simp [invalidateTokenCache, heven]
    have hcurrent := current_of_generation hgen
    refine ⟨⟨.inl rfl, .raised heven ?_ ?_ rfl rfl rfl rfl, fun h => ?_⟩, .even rfl ?_⟩
    · omega
    · omega
    · cases hgen.symm.trans h
    · omega
  · have hgen : s.invalidateTokenCache.generation = s.generation := by
      simp [invalidateTokenCache, hodd]
    have hcurrent : s.invalidateTokenCache.current = s.current := by
      simp only [TokenStore.current, hgen]
    exact ⟨⟨.inl rfl, .kept hcurrent rfl rfl (.inr rfl) (.inl rfl), fun h => hs.marker (hgen ▸ h)⟩,
      rfl, fun _ => ⟨hcurrent, rfl⟩⟩

theorem cacheInitToken_quiet (hr : s.row = some r) (expected : Nat) :
    Quiet id s (s.cacheInitToken r expected).2 := by
  unfold cacheInitToken
  split
  · exact .refl hs
  split
  · exact .refl hs
  next hstable =>
  simp only [not_or, not_not] at hstable
  obtain ⟨rfl, heven, -⟩ := hstable
  cases hhash : s.hash with
  | none =>
    exact ⟨⟨.inl rfl, .cached heven hr rfl rfl rfl rfl rfl, fun h => by cases h⟩, .even rfl heven⟩
  | some hash =>
    dsimp only
    split
    · exact .refl hs
    · exact ⟨⟨.inl rfl, .kept rfl rfl rfl (.inl hhash.symm) (.inl rfl), fun h => by cases h⟩,
        .even rfl heven⟩

end

end TokenStore

open TokenStore (Quiet)

/-! ## Stages -/

/-- `recoverTokenCacheFromDatabase` reads the cache under the lock of the row. -/
def ReadBy.Holds (s : TokenStore) (id : Nat) : ReadBy → Prop
  | .getToken => True
  | .recover => s.lock = some id

def TokenStage.Ok (s : TokenStore) (id : Nat) (born : List (Option TokenMetadata)) :
    TokenStage → Prop
  | .begin _ row => s.Locked id row
  | .write _ row g | .expect _ row g | .commit _ row g => s.Locked id row ∧ s.Owns id g
  | .reload g | .reconcile _ g _ => s.Released g
  | .undoRow g _ | .undo g _ => s.Owns id g
  | .finish _ token g => s.Finishing token g
  | .finishDelete _ _ => s.row = none
  | .before caller | .readHash caller _ => caller.Holds s id
  | .after caller _ hash => caller.Holds s id ∧ s.Seen hash
  | .acrossRow _ g _ => g % 2 = 1 → s.Warm
  | .recoverState _ (.ok none) => s.row = none
  | .recoverState _ (.ok (some row)) | .restore _ row | .init _ row _ => s.Locked id row
  | .recovered m => ∃ row, s.Locked id row ∧ row.metadata = m
  | .returned m => s.Fresh born m
  | _ => True

section

variable {id : Nat} {s s' : TokenStore} {born : List (Option TokenMetadata)}

theorem ReadBy.Holds.other {j : Nat} (hm : Move id s s') (hj : j ≠ id) {caller : ReadBy}
    (h : caller.Holds s j) : caller.Holds s' j := by
  cases caller with
  | getToken => trivial
  | recover => exact hm.lock.keeps hj h

variable {stage : TokenStage} {row : TokenRow} {attempts : Nat}

theorem TokenStage.Ok.other (hs : s.Sound) {j : Nat} (hm : Move id s s') (hj : j ≠ id)
    (h : stage.Ok s j born) : stage.Ok s' j born := by
  cases stage with
  | begin mutation row | restore attempts row | init attempts row expected =>
    exact TokenStore.Locked.other hm hj h
  | write mutation row g | expect mutation row g | commit mutation row g =>
    exact ⟨h.1.other hm hj, h.2.other hs hm hj⟩
  | reload g | reconcile mutation g commitErr => exact TokenStore.Released.move hs hm.effect h
  | undoRow g err | undo g err => exact TokenStore.Owns.other hs hm hj h
  | finish caller token g => exact TokenStore.Finishing.move hs hm.effect h
  | finishDelete caller g => exact hm.effect.row_none hs h
  | before caller | readHash caller g => exact ReadBy.Holds.other hm hj h
  | after caller g hash => exact ⟨h.1.other hm hj, h.2.move hs hm.effect⟩
  | acrossRow attempts g marked => exact fun hodd => (h hodd).move hs hm.effect
  | recoverState attempts found =>
    rcases found with err | _ | row
    · trivial
    · exact hm.effect.row_none hs h
    · exact TokenStore.Locked.other hm hj h
  | recovered m =>
    obtain ⟨row, hlocked, hm'⟩ := h
    exact ⟨row, hlocked.other hm hj, hm'⟩
  | returned m => exact TokenStore.Fresh.move hm.effect h
  | _ => trivial

/-- A step is a move, and the call knows what its next stage needs. -/
structure Stepped (id : Nat) (born : List (Option TokenMetadata)) (s : TokenStore)
    (next : TokenStore × TokenStage) : Prop where
  move : Move id s next.1
  ok : next.2.Ok next.1 id born

theorem Stepped.look (hs : s.Sound) (h : stage.Ok s id born) : Stepped id born s (s, stage) :=
  ⟨.refl hs, h⟩

theorem Stepped.quit (hs : s.Sound) (err : String) :
    Stepped id born s (s.release id, .failed err) :=
  ⟨(Move.refl hs).release, trivial⟩

/-- A step that makes no odd generation. -/
structure CalmStep (id : Nat) (born : List (Option TokenMetadata)) (s : TokenStore)
    (next : TokenStore × TokenStage) : Prop where
  quiet : Quiet id s next.1
  ok : next.2.Ok next.1 id born

theorem CalmStep.look (hs : s.Sound) (h : stage.Ok s id born) : CalmStep id born s (s, stage) :=
  ⟨.refl hs, h⟩

theorem CalmStep.quit (hs : s.Sound) (err : String) :
    CalmStep id born s (s.release id, .failed err) :=
  ⟨(Quiet.refl hs).release, trivial⟩

theorem CalmStep.stepped {next : TokenStore × TokenStage} (h : CalmStep id born s next) :
    Stepped id born s next :=
  ⟨h.quiet.toMove, h.ok⟩

theorem TokenEnv.script_cases {α : Type} (env : TokenEnv) (run : TokenStore → α × TokenStore)
    (s : TokenStore) :
    env.script run s = (.ok (run s).1, (run s).2) ∨ env.script run s = (.error env.err, (run s).2) ∨
      env.script run s = (.error env.err, s) := by
  unfold TokenEnv.script
  cases env.fate with
  | ok => exact .inl rfl
  | unacked => exact .inr (.inl rfl)
  | lost | aborted => exact .inr (.inr rfl)

theorem TokenStore.Quiet.script {α : Type} {run : TokenStore → α × TokenStore} (hs : s.Sound)
    (env : TokenEnv) (hm : Quiet id s (run s).2) : Quiet id s (env.script run s).2 := by
  rcases env.script_cases run s with hok | hunacked | hlost
  · rw [hok]
    exact hm
  · rw [hunacked]
    exact hm
  · rw [hlost]
    exact .refl hs

/-! ### The writer -/

variable {mutation : TokenMutation} {g : Nat} {token : TokenRow}

theorem begin_ok (hs : s.Sound) (env : TokenEnv) (h : s.Locked id row) :
    Stepped id born s ((TokenStage.begin mutation row).advanceWriter id env s) := by
  unfold TokenStage.advanceWriter
  dsimp only
  split
  · exact .look hs trivial
  have hmove : Move id s _ := s.beginTokenCacheMutation_move hs h.row
  rcases env.script_cases (TokenStore.beginTokenCacheMutation row.cacheGeneration) s
    with hok | hunacked | hlost
  · rw [hok]
    cases hg : (s.beginTokenCacheMutation row.cacheGeneration).1 with
    | none => exact ⟨hmove, trivial⟩
    | some g =>
      obtain ⟨howned, hcurrent⟩ := TokenStore.beginTokenCacheMutation_owned h.row hg
      refine ⟨howned, ⟨?_, ?_⟩, ⟨rfl, hcurrent⟩⟩
      · show (s.beginTokenCacheMutation row.cacheGeneration).2.lock = some id
        rw [TokenStore.beginTokenCacheMutation]
        split <;> exact h.lock
      · show (s.beginTokenCacheMutation row.cacheGeneration).2.row = some row
        rw [TokenStore.beginTokenCacheMutation]
        split <;> exact h.row
  · rw [hunacked]
    exact ⟨hmove, trivial⟩
  · rw [hlost]
    exact .look hs trivial

theorem commitRow_move (hs : s.Sound) (mutation : TokenMutation)
    (hlocked : s.Locked id row) (howns : s.Owns id g) :
    Move id s (s.commitRow (mutation.apply row g)) ∧
      (s.commitRow (mutation.apply row g)).Released g := by
  have hodd := hs.owner_odd howns.owner
  rw [howns.current] at hodd
  refine ⟨⟨.inr (.inr ⟨hlocked.lock, rfl⟩), ?_, hs.marker⟩, hodd, .inr ⟨howns.current, rfl⟩⟩
  refine .committed howns.owner hlocked.lock rfl ?_ rfl rfl rfl
  intro r hr
  cases mutation with
  | update change mutationId =>
    cases hr
    rw [howns.current]
  | delete => cases hr

theorem disown_release_move (hs : s.Sound) (h : s.Owns id g) :
    Move id s (s.release id).disown ∧ (s.release id).disown.Released g := by
  have hodd := hs.owner_odd h.owner
  rw [h.current] at hodd
  have heffect := (Move.disown hs h.owner).release
  have hcomm : (s.release id).disown = s.disown.release id := by
    unfold TokenStore.release TokenStore.disown
    split <;> rfl
  have hcurrent : (s.release id).disown.current = s.current := TokenStore.release_current
  exact ⟨hcomm ▸ heffect, hodd, .inr ⟨hcurrent.trans h.current, rfl⟩⟩

theorem commit_ok (hs : s.Sound) (env : TokenEnv) (hlocked : s.Locked id row)
    (howns : s.Owns id g) :
    Stepped id born s ((TokenStage.commit mutation row g).advanceWriter id env s) := by
  obtain ⟨hmove, hreleased⟩ := commitRow_move hs mutation hlocked howns
  obtain ⟨hmove', hreleased'⟩ := disown_release_move hs howns
  cases hfate : env.fate with simp only [TokenStage.advanceWriter, hfate]
  | ok =>
    cases mutation with
    | update change mutationId =>
      exact ⟨hmove, hreleased⟩
    | delete =>
      exact ⟨hmove, rfl⟩
  | unacked =>
    exact ⟨hmove, hreleased⟩
  | lost | aborted =>
    exact ⟨hmove', hreleased'⟩

theorem undo_ok (hs : s.Sound) (env : TokenEnv) {err : String} (h : s.Owns id g) :
    Stepped id born s ((TokenStage.undo g err).advanceWriter id env s) := by
  have hmove := TokenStore.rollbackTokenCacheMutation_move hs h
  unfold TokenStage.advanceWriter
  dsimp only
  rcases env.script_cases (TokenStore.rollbackTokenCacheMutation g) s with hok | hunacked | hlost
  · rw [hok]
    cases (s.rollbackTokenCacheMutation g).1 with
    | true | false => exact ⟨hmove, trivial⟩
  · rw [hunacked]
    exact ⟨hmove, trivial⟩
  · rw [hlost]
    exact ⟨.disown hs h.owner, trivial⟩

theorem advanceWriter_ok (hs : s.Sound) (env : TokenEnv)
    (h : stage.Ok s id born) : Stepped id born s (stage.advanceWriter id env s) := by
  cases stage with simp only [TokenStage.advanceWriter]
  | lockRow mutation =>
    split
    · exact .look hs trivial
    split
    · exact .look hs trivial
    next hfree =>
    have hlock : s.lock = none := Option.not_isSome_iff_eq_none.mp hfree
    cases hrow : s.row with
    | none => exact .look hs trivial
    | some row =>
      refine ⟨⟨.inr (.inl ⟨hlock, rfl⟩), ?_, hs.marker⟩, rfl, rfl⟩
      exact .kept rfl hrow.symm rfl (.inl rfl) (.inl rfl)
  | begin mutation row => exact begin_ok hs env h
  | write mutation row g =>
    split
    · exact .look hs h.2
    · cases mutation with
      | update change mutationId | delete => exact .look hs h
  | expect mutation row g =>
    split
    · exact .look hs h.2
    · exact .look hs h
  | commit mutation row g => exact commit_ok hs env h.1 h.2
  | abort err => exact .quit hs _
  | undoRow g err =>
    split
    · exact ⟨(Move.refl hs).release, by simpa using h.owner, by simpa using h.current⟩
    · exact ⟨(disown_release_move hs h).1, trivial⟩
  | undo g err => exact undo_ok hs env h
  | _ => exact .look hs h

/-! ### The end of a mutation -/

theorem next_ok (hm : Quiet id s s') (caller : EndedBy) (result : Except String Unit) :
    CalmStep id born s (caller.next id s' result) := by
  cases caller with
  | recover attempts =>
    rcases result with err | _
    · exact ⟨hm.release, trivial⟩
    · exact ⟨hm, trivial⟩
  | _ => rcases result with err | _ <;> exact ⟨hm, trivial⟩

section

variable (hs : s.Sound) (env : TokenEnv)

include hs

theorem finish_quiet (h : s.Finishing token g) : Quiet id s (env.finish token g s).2 := by
  unfold TokenEnv.finish
  split
  · exact TokenStore.abortedCommit_quiet hs h
  have hmove : Quiet id s _ := (TokenStore.commitTokenCacheMutation_quiet hs h).script hs env
  generalize env.script (TokenStore.commitTokenCacheMutation token g) s = result at hmove ⊢
  obtain ⟨err | _ | _, s'⟩ := result <;> exact hmove

theorem finishDelete_quiet (h : s.row = none) (g : Nat) : Quiet id s (env.finishDelete g s).2 := by
  unfold TokenEnv.finishDelete
  have hmove : Quiet id s _ :=
    (TokenStore.commitTokenCacheDeleteMutation_quiet hs h g).script hs env
  generalize env.script (TokenStore.commitTokenCacheDeleteMutation g) s = result at hmove ⊢
  obtain ⟨err | _ | _, s'⟩ := result <;> exact hmove

theorem reconcile_ok {commitErr : String} (h : s.Released g) :
    CalmStep id born s ((TokenStage.reconcile mutation g commitErr).advanceEnd id env s) := by
  simp only [TokenStage.advanceEnd]
  split
  · exact .look hs trivial
  cases hrow : s.row with
  | none =>
    cases mutation with
    | update change mutationId => exact .look hs trivial
    | delete => exact .look hs hrow
  | some stored =>
    cases mutation with
    | update change mutationId =>
      dsimp only
      split
      next hsame => exact .look hs ⟨h, hsame.1, fun _ => hrow⟩
      · exact .look hs trivial
    | delete => exact .look hs trivial

theorem advanceEnd_ok (h : stage.Ok s id born) :
    CalmStep id born s (stage.advanceEnd id env s) := by
  cases stage with
  | reload g =>
    simp only [TokenStage.advanceEnd]
    split
    · exact .look hs trivial
    cases hrow : s.row with
    | none => exact .look hs trivial
    | some stored =>
      dsimp only
      split
      · exact .look hs trivial
      next hgen => exact .look hs ⟨h, not_not.mp hgen, fun _ => hrow⟩
  | reconcile mutation g commitErr => exact reconcile_ok hs env h
  | finish caller token g => exact next_ok (finish_quiet hs env h) caller _
  | finishDelete caller g => exact next_ok (finishDelete_quiet hs env h g) caller _
  | invalidate =>
    have hmove : Quiet id s (env.script (fun s => ((), s.invalidateTokenCache)) s).2 :=
      (TokenStore.invalidateTokenCache_quiet hs).script hs env
    simp only [TokenStage.advanceEnd]
    generalize env.script (fun s => ((), s.invalidateTokenCache)) s = result at hmove ⊢
    obtain ⟨err | _, s'⟩ := result <;> exact ⟨hmove, trivial⟩
  | _ => exact .look hs h

/-! ### The cache -/

theorem miss_ok (caller : ReadBy) (err : String) : CalmStep id born s (caller.miss id err s) := by
  cases caller with
  | getToken => exact .look hs trivial
  | recover => exact .quit hs err

theorem hit_ok (hborn : born <:+ s.versions) {caller : ReadBy} {hash : TokenHash}
    (hholds : caller.Holds s id) (hseen : s.Seen hash) (hgen : hash.cacheGeneration = s.current) :
    CalmStep id born s (s, caller.hit hash.metadata) := by
  obtain ⟨row, hrow, hmetadata⟩ := hseen.row (.inl hgen.symm)
  cases caller with
  | getToken => exact .look hs (hmetadata ▸ hs.fresh hborn hrow)
  | recover => exact .look hs ⟨row, ⟨hholds, hrow⟩, hmetadata⟩

theorem advanceRead_ok (hborn : born <:+ s.versions) (env : TokenEnv) (h : stage.Ok s id born) :
    CalmStep id born s (stage.advanceRead id env s) := by
  cases stage with simp only [TokenStage.advanceRead]
  | before caller =>
    split
    · exact miss_ok hs caller _
    split
    · exact miss_ok hs caller _
    split
    · exact miss_ok hs caller _
    · exact .look hs h
  | readHash caller g =>
    split
    · exact miss_ok hs caller _
    cases hhash : s.hash with
    | none => exact miss_ok hs caller _
    | some hash => exact .look hs ⟨h, hs.hash hash hhash⟩
  | after caller g hash =>
    split
    · exact miss_ok hs caller _
    split
    · exact miss_ok hs caller _
    split
    · exact miss_ok hs caller _
    split
    · exact miss_ok hs caller _
    next hsame =>
      simp only [not_or, not_not] at hsame
      exact hit_ok hs hborn h.1 h.2 hsame.2
  | _ => exact .look hs h

/-! ### The recovery -/

/-- A row of the next even generation was committed at an odd one, which is behind or
still current. -/
theorem finishing_of_row (hodd : g % 2 = 1) (hwarm : s.Warm)
    (hrow : s.row = some token) (hgen : token.cacheGeneration = g + 1) : s.Finishing token g := by
  have hle := hwarm token hrow
  refine ⟨⟨hodd, ?_⟩, hgen, fun _ => hrow⟩
  rcases Nat.lt_or_ge g s.current with hlt | hge
  · exact .inl hlt
  · have hcurrent : s.current = g := by omega
    exact .inr ⟨hcurrent, hs.closed hrow (by omega)⟩

theorem acrossRow_ok {marked : Bool} (h : g % 2 = 1 → s.Warm) :
    CalmStep id born s ((TokenStage.acrossRow attempts g marked).advanceRecover id env s) := by
  simp only [TokenStage.advanceRecover]
  split
  · exact .look hs trivial
  split
  · exact .look hs trivial
  split
  next hodd =>
    have hodd : g % 2 = 1 := by omega
    cases hrow : s.row with
    | none => exact .look hs hrow
    | some loaded =>
      dsimp only
      split
      next hgen => exact .look hs (finishing_of_row hs hodd (h hodd) hrow hgen)
      · exact .look hs trivial
  split <;> exact .look hs trivial

theorem recover_ok (attempts : Nat) :
    CalmStep id born s ((TokenStage.recover attempts).advanceRecover id env s) := by
  cases attempts with
  | zero => exact .quit hs _
  | succ attempts =>
    simp only [TokenStage.advanceRecover]
    split
    · exact .look hs trivial
    split
    · exact .look hs trivial
    next hfree =>
    cases hrow : s.row with
    | none => exact .look hs hrow
    | some loaded =>
      refine ⟨⟨⟨?_, .kept rfl hrow.symm rfl (.inl rfl) (.inl rfl), hs.marker⟩, rfl,
        fun _ => ⟨rfl, hrow.symm⟩⟩, rfl, rfl⟩
      cases hlock : s.lock with
      | none => exact .inr (.inl ⟨hlock, rfl⟩)
      | some holder =>
        simp only [hlock, Option.isSome_some, true_and, not_not] at hfree
        exact .inl (hfree.symm.trans hlock.symm)

theorem recoverState_ok {found : Except String (Option TokenRow)}
    (h : (TokenStage.recoverState attempts found).Ok s id born) :
    CalmStep id born s ((TokenStage.recoverState attempts found).advanceRecover id env s) := by
  simp only [TokenStage.advanceRecover]
  split
  · exact .quit hs _
  split
  · exact .quit hs _
  rcases found with err | _ | loaded
  · exact .quit hs _
  · dsimp only
    split
    · exact .look hs h
    · exact .quit hs _
  · dsimp only
    split
    next hodd =>
      have hodd : s.current % 2 = 1 := by omega
      split
      next hgen => exact .look hs (finishing_of_row hs hodd (hs.warm hodd) h.row hgen)
      · exact .quit hs _
    split <;> exact .look hs h

theorem restore_ok (h : s.Locked id token) :
    CalmStep id born s ((TokenStage.restore attempts token).advanceRecover id env s) := by
  have hmove : Quiet id s _ := (TokenStore.restoreTokenCacheGeneration_quiet hs h.row).script hs env
  simp only [TokenStage.advanceRecover]
  generalize env.script (TokenStore.restoreTokenCacheGeneration token.cacheGeneration) s = result
    at hmove ⊢
  obtain ⟨err | _ | _, s'⟩ := result
  · exact ⟨hmove.release, trivial⟩
  · exact ⟨hmove.release, trivial⟩
  · exact ⟨hmove, trivial⟩

end

theorem cacheInitToken_lock (s : TokenStore) (token : TokenRow) (expected : Nat) :
    (s.cacheInitToken token expected).2.lock = s.lock ∧
      (s.cacheInitToken token expected).2.row = s.row := by
  unfold TokenStore.cacheInitToken
  split
  · exact ⟨rfl, rfl⟩
  split
  · exact ⟨rfl, rfl⟩
  cases s.hash with
  | none => exact ⟨rfl, rfl⟩
  | some hash =>
    dsimp only
    split <;> exact ⟨rfl, rfl⟩

theorem init_ok (hs : s.Sound) (env : TokenEnv) {expected : Nat} (h : s.Locked id token) :
    CalmStep id born s ((TokenStage.init attempts token expected).advanceRecover id env s) := by
  have hmove : Quiet id s _ := TokenStore.cacheInitToken_quiet hs h.row expected
  obtain ⟨hlock, hrow⟩ := cacheInitToken_lock s token expected
  simp only [TokenStage.advanceRecover]
  split
  · exact .quit hs _
  rcases env.script_cases (TokenStore.cacheInitToken token expected) s with hok | hunacked | hlost
  · rw [hok]
    cases (s.cacheInitToken token expected).1 with
    | refused => exact ⟨hmove, trivial⟩
    | stored => exact ⟨hmove, token, ⟨hlock.trans h.lock, hrow.trans h.row⟩, rfl⟩
    | present => exact ⟨hmove, hlock.trans h.lock⟩
  · rw [hunacked]
    exact ⟨hmove.release, trivial⟩
  · rw [hlost]
    exact .quit hs _

section

variable (hs : s.Sound) (hborn : born <:+ s.versions) (env : TokenEnv)

include hs hborn env

theorem recovered_ok {m : TokenMetadata} (h : ∃ row, s.Locked id row ∧ row.metadata = m) :
    CalmStep id born s ((TokenStage.recovered m).advanceRecover id env s) := by
  obtain ⟨row, hlocked, rfl⟩ := h
  simp only [TokenStage.advanceRecover]
  split
  · exact .quit hs _
  · have hmove : Quiet id s (s.release id) := (Quiet.refl hs).release
    exact ⟨hmove, (hs.fresh hborn hlocked.row).move hmove.effect⟩

theorem advanceRecover_ok (h : stage.Ok s id born) :
    CalmStep id born s (stage.advanceRecover id env s) := by
  cases stage with
  | across attempts =>
    cases attempts with
    | zero => exact .look hs trivial
    | succ attempts =>
      simp only [TokenStage.advanceRecover]
      split
      · exact .look hs trivial
      · exact .look hs hs.warm
  | acrossRow attempts g marked => exact acrossRow_ok hs env h
  | recover attempts => exact recover_ok hs env attempts
  | recoverState attempts found => exact recoverState_ok hs env h
  | restore attempts token => exact restore_ok hs env h
  | init attempts token expected => exact init_ok hs env h
  | recovered m => exact recovered_ok hs hborn env h
  | _ => exact .look hs h

/-- Every step of a call is a move, and the call knows what its next stage needs. -/
theorem advance_ok (h : stage.Ok s id born) : Stepped id born s (stage.advance id env s) := by
  unfold TokenStage.advance
  split
  -- a stage that is over does nothing in any of the four groups
  all_goals first
    | exact advanceWriter_ok hs env h
    | exact (advanceEnd_ok hs env h).stepped
    | exact (advanceRead_ok hs hborn env h).stepped
    | exact (advanceRecover_ok hs hborn env h).stepped

end

end

end NewApi
