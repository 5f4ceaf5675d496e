import NewApi.Token.Stages

/-!
# Revocation is immediate

The invariant of the system is that the stores are `Sound` and that every call knows
what its stage needs. It holds when the token is at rest, and every action keeps it.

`GetTokenByKey` returns what the row holds at that moment. So a call that starts
after a commit returns the committed metadata or later ones, and after a deletion it
returns nothing.
-/

namespace NewApi

open Runs
open TokenStore (Move Effect LockMove Sound)

/-- The token is at rest: no call, a stable generation, and a hash that shows the
row if there is one. Redis may have lost everything about the token. -/
structure TokenSystem.Initial (s : TokenSystem) : Prop where
  calls : s.calls.rows = []
  lock : s.store.lock = none
  owner : s.store.owner = none
  versions : s.store.versions = [s.store.row.map TokenRow.metadata]
  row : ∀ r, s.store.row = some r → r.cacheGeneration % 2 = 0
  generation : s.store.current % 2 = 0
  pending : s.store.generation = none → s.store.pending = none
  hash : ∀ h, s.store.hash = some h → h.cacheGeneration = s.store.current ∧
    ∃ r, s.store.row = some r ∧ r.metadata = h.metadata

/-- The stores are sound, and every call knows what its stage needs. -/
structure TokenSystem.Fenced (s : TokenSystem) : Prop where
  sound : s.store.Sound
  born : ∀ c ∈ s.calls.rows, c.born <:+ s.store.versions
  ok : ∀ c ∈ s.calls.rows, c.stage.Ok s.store c.id c.born

theorem TokenSystem.Initial.fenced {s : TokenSystem} (h : s.Initial) : s.Fenced where
  sound := {
    versions := by rw [h.versions]; rfl
    alive := by
      intro hsome
      obtain ⟨r, hr⟩ := Option.ne_none_iff_exists'.mp hsome
      simp [h.versions, hr]
    even := h.row
    warm := by
      have heven := h.generation
      omega
    owned := fun hsome => absurd h.owner hsome
    hash := by
      intro hash hhash
      obtain ⟨hgen, hrow⟩ := h.hash hash hhash
      exact ⟨by rw [hgen]; exact h.generation, hgen.le, fun _ => hrow⟩
    marker := h.pending }
  born := by simp [h.calls]
  ok := by simp [h.calls]

/-! ## Steps -/

theorem TokenJob.start_ok (job : TokenJob) (s : TokenStore) (id : Nat)
    (born : List (Option TokenMetadata)) : job.start.Ok s id born := by
  cases job with
  | mutate mutation => trivial
  | invalidate => trivial
  | getTokenByKey fromDB => cases fromDB <;> trivial

theorem TokenStore.crash_move {s : TokenStore} (hs : s.Sound) (id : Nat) :
    Move id s (s.crash id) := by
  unfold TokenStore.crash
  split
  next howner => exact (disown_release_move hs ⟨howner, rfl⟩).1
  · exact (Move.refl hs).release

namespace TokenSystem

variable {s : TokenSystem}

theorem Fenced.call (h : s.Fenced) {id : Nat} {job : TokenJob} {calls : Table TokenCall.id}
    (hinsert : s.calls.insert ⟨id, job.start, s.store.versions⟩ = some calls) :
    TokenSystem.Fenced { s with calls := calls } where
  sound := h.sound
  born := by
    exact Table.forall_insert hinsert List.suffix_rfl h.born
  ok := by
    exact Table.forall_insert hinsert (job.start_ok _ _ _) h.ok

theorem Fenced.stepped (h : s.Fenced) {id : Nat} {call : TokenCall}
    (hfind : s.calls.find id = some call) {next : TokenStore × TokenStage}
    (hnext : Stepped id call.born s.store next) :
    TokenSystem.Fenced ⟨next.1, s.calls.save { call with stage := next.2 }⟩ := by
  have hgrown := hnext.move.effect.versions_suffix
  obtain rfl : call.id = id := Table.find_key hfind
  refine ⟨h.sound.move hnext.move, ?_, ?_⟩
  · refine Table.forall_save ((h.born call (Table.find_mem hfind)).trans hgrown) ?_
    exact fun c hold _ => (h.born c hold).trans hgrown
  · refine Table.forall_save hnext.ok ?_
    exact fun c hold hne => (h.ok c hold).other h.sound hnext.move hne

/-- What happens to the stores by themselves is a move of any call. -/
theorem Fenced.environment (h : s.Fenced) {store : TokenStore}
    (hm : ∀ id, Move id s.store store) : TokenSystem.Fenced { s with store := store } where
  sound := h.sound.move (hm 0)
  born c hc := (h.born c hc).trans (hm 0).effect.versions_suffix
  ok c hc := (h.ok c hc).other h.sound (hm (c.id + 1)) (Nat.ne_of_lt (Nat.lt_succ_self c.id))

theorem Fenced.step (h : s.Fenced) (a : TokenAction) : (s.step a).Fenced := by
  cases a with simp only [TokenSystem.step]
  | call id job =>
    cases hinsert : s.calls.insert ⟨id, job.start, s.store.versions⟩ with
    | none => exact h
    | some calls => exact h.call hinsert
  | step id env =>
    cases hfind : s.calls.find id with
    | none => exact h
    | some call =>
      have hmem := Table.find_mem hfind
      have hok := h.ok call hmem
      rw [Table.find_key hfind] at hok
      exact h.stepped hfind (advance_ok h.sound (h.born call hmem) env hok)
  | crash id =>
    cases hfind : s.calls.find id with
    | none => exact h
    | some call =>
      have hcrash : Stepped id call.born s.store (s.store.crash id, .crashed) :=
        ⟨TokenStore.crash_move h.sound id, trivial⟩
      exact h.stepped hfind hcrash
  | expireHash =>
    exact h.environment fun id =>
      ⟨.inl rfl, .kept rfl rfl rfl (.inr rfl) (.inl rfl), h.sound.marker⟩
  | expirePending =>
    exact h.environment fun id => ⟨.inl rfl, .kept rfl rfl rfl (.inl rfl) (.inl rfl), fun _ => rfl⟩

end TokenSystem

/-! ## Runs -/

/-- From a token at rest, in every state of every run: the last version is what the
row holds, and a call of `GetTokenByKey` that returned a token started before any
deletion, with the metadata that were current when it started or were committed
since. -/
theorem token_revocation_immediate {s : TokenSystem} (hs : s.Initial) (as : List TokenAction) :
    (run TokenSystem.step s as).store.versions.head? =
        some ((run TokenSystem.step s as).store.row.map TokenRow.metadata) ∧
      ∀ c ∈ (run TokenSystem.step s as).calls.rows, ∀ m, c.stage = .returned m →
        none ∉ c.born ∧ ∃ since, (run TokenSystem.step s as).store.versions = since ++ c.born ∧
          (some m ∈ since ∨ c.born.head? = some (some m)) := by
  have hend : (run TokenSystem.step s as).Fenced :=
    run_invariant_of_step (fun _ a h => h.step a) as hs.fenced
  refine ⟨hend.sound.versions, ?_⟩
  intro c hc m hstage
  have hok := hend.ok c hc
  rw [hstage] at hok
  exact hok

def issuedToken : TokenMetadata :=
  ⟨1, "ci", -1, false, false, "", "", false, "default", false, "", "", "", "", false⟩

/-- The token after an administrator disabled it. -/
def disabledToken : TokenMetadata := { issuedToken with status := 2 }

/-- The token in the database, and nothing in Redis. -/
def coldToken : TokenSystem :=
  ⟨⟨none, none, none, some ⟨issuedToken, 0, ""⟩, none, none, [some issuedToken]⟩, .empty⟩

theorem coldToken_initial : coldToken.Initial := by
  refine ⟨rfl, rfl, rfl, rfl, ?_, rfl, fun _ => rfl, ?_⟩
  · intro r hr
    cases hr
    rfl
  · intro h hh
    cases hh

def tokenStep (id : Nat) : TokenAction := .step id ⟨.ok, ""⟩

/-- A reader fills the hash, a writer disables the token and stops right after its
commit, the marker expires, and another reader ends the mutation. -/
def disabledRun : List TokenAction :=
  .call 1 (.getTokenByKey false) :: List.replicate 7 (tokenStep 1) ++
    .call 2 (.mutate (.update (fun m => { m with status := 2 }) "a")) ::
      List.replicate 5 (tokenStep 2) ++
    [.crash 2, .expirePending, .call 3 (.getTokenByKey false)] ++ List.replicate 13 (tokenStep 3)

def disabledReader : TokenCall :=
  ⟨3, .returned disabledToken, [some disabledToken, some issuedToken]⟩

theorem token_revocation_after_crash :
    (run TokenSystem.step coldToken disabledRun).calls.find 3 = some disabledReader ∧
      none ∉ disabledReader.born ∧
      ∃ since, (run TokenSystem.step coldToken disabledRun).store.versions =
          since ++ disabledReader.born ∧
        (some disabledToken ∈ since ∨
          disabledReader.born.head? = some (some disabledToken)) := by
  have hfind : (run TokenSystem.step coldToken disabledRun).calls.find 3 = some disabledReader :=
    rfl
  exact ⟨hfind, (token_revocation_immediate coldToken_initial disabledRun).2 disabledReader
    (Table.find_mem hfind) disabledToken rfl⟩

/-- In every run a hash of the current generation shows the row, and a token that was deleted has
no row again. -/
theorem token_cache_coherent {s : TokenSystem} (hs : s.Initial) (as : List TokenAction) :
    let t := (run TokenSystem.step s as).store
    (∀ h, t.hash = some h → h.cacheGeneration = t.current →
        ∃ r, t.row = some r ∧ r.metadata = h.metadata) ∧
      (none ∈ t.versions → t.row = none) := by
  have hend : (run TokenSystem.step s as).Fenced :=
    run_invariant_of_step (fun _ a h => h.step a) as hs.fenced
  refine ⟨fun h hh hcurrent => (hend.sound.hash h hh).row (.inl hcurrent.symm), fun hnone => ?_⟩
  by_contra hrow
  exact hend.sound.alive hrow hnone

theorem disabledRun_coherent :
    let t := (run TokenSystem.step coldToken disabledRun).store
    (∃ h, t.hash = some h ∧ ∃ r, t.row = some r ∧ r.metadata = h.metadata) ∧ none ∉ t.versions :=
  have hcoherent := token_cache_coherent coldToken_initial disabledRun
  ⟨⟨_, rfl, hcoherent.1 _ rfl rfl⟩, fun hnone => by cases hcoherent.2 hnone⟩

end NewApi
