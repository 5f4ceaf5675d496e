import NewApi.Lib.Runs
import NewApi.Lib.Table
import NewApi.Token.Store

/-!
# Calls on a token

The nodes run `mutateTokenMetadata`, `BatchDeleteTokens`, `invalidateTokenCache` and
`GetTokenByKey` on one token. A `TokenStage` is what a call does next: one SQL statement, one
Redis command or one script. Any of them may fail, with or without having taken effect, and a
call may stop for good between any two. The mutexes of a node, which only keep its own calls
apart, are left out.
-/

namespace NewApi

open TokenStore (CacheInit)

/-- What becomes of a step. -/
inductive TokenFate
  | ok
  | lost
  | unacked
  | aborted
deriving DecidableEq

/-- What the environment decides about one step. -/
structure TokenEnv where
  fate : TokenFate
  err : String
deriving DecidableEq

/-- A change of the row. -/
inductive TokenMutation
  /-- `Update`, `UpdateWithQuotaDelta`, `SelectUpdate`, with the identity of the mutation. -/
  | update (change : TokenMetadata → TokenMetadata) (mutationId : String)
  /-- `Delete`, and the deletion of the token by `BatchDeleteTokens`. -/
  | delete

/-- The row a mutation commits at a generation. -/
def TokenMutation.apply (row : TokenRow) (generation : Nat) : TokenMutation → Option TokenRow
  | .update change mutationId => some ⟨change row.metadata, generation + 1, mutationId⟩
  | .delete => none

/-- Who ends a mutation in Redis. -/
inductive EndedBy
  | writer
  | reconciled (commitErr : String)
  | reconciledDelete (causes : String)
  /-- `getTokenByKeyAcrossGeneration`, with the attempts that are left. -/
  | across (attempts : Nat)
  /-- `recoverTokenCacheFromDatabase`, with the attempts that are left. -/
  | recover (attempts : Nat)
deriving DecidableEq

/-- Who reads the cache. -/
inductive ReadBy
  | getToken
  /-- `recoverTokenCacheFromDatabase`, which found the hash in place. -/
  | recover
deriving DecidableEq

/-- What a call does next. -/
inductive TokenStage
  | lockRow (mutation : TokenMutation)
  /-- `beginTokenCacheMutation`. -/
  | begin (mutation : TokenMutation) (row : TokenRow)
  | write (mutation : TokenMutation) (row : TokenRow) (generation : Nat)
  | expect (mutation : TokenMutation) (row : TokenRow) (generation : Nat)
  | commit (mutation : TokenMutation) (row : TokenRow) (generation : Nat)
  | reload (generation : Nat)
  /-- `reconcileTokenMutationCommitError`, `reconcileBatchTokenDeleteCommit`. -/
  | reconcile (mutation : TokenMutation) (generation : Nat) (commitErr : String)
  | abort (err : String)
  | undoRow (generation : Nat) (err : String)
  /-- `rollbackTokenCacheMutation`. -/
  | undo (generation : Nat) (err : String)
  /-- `commitTokenCacheMutation`. -/
  | finish (caller : EndedBy) (token : TokenRow) (generation : Nat)
  /-- `commitTokenCacheDeleteMutation`. -/
  | finishDelete (caller : EndedBy) (generation : Nat)
  /-- `invalidateTokenCache`. -/
  | invalidate
  /-- The first state of `cacheGetTokenByKey`. -/
  | before (caller : ReadBy)
  | readHash (caller : ReadBy) (generation : Nat)
  | after (caller : ReadBy) (generation : Nat) (hash : TokenHash)
  /-- The state of `getTokenByKeyAcrossGeneration`. -/
  | across (attempts : Nat)
  | acrossRow (attempts generation : Nat) (marked : Bool)
  /-- `recoverTokenCacheFromDatabase` locks and reads the row. -/
  | recover (attempts : Nat)
  | recoverState (attempts : Nat) (found : Except String (Option TokenRow))
  /-- `restoreTokenCacheGenerationForColdCache`. -/
  | restore (attempts : Nat) (token : TokenRow)
  /-- `cacheInitToken`. -/
  | init (attempts : Nat) (token : TokenRow) (expected : Nat)
  | recovered (metadata : TokenMetadata)
  /-- `GetTokenByKey` returned the token. -/
  | returned (metadata : TokenMetadata)
  | done
  | failed (err : String)
  | crashed

/-! ## Errors -/

/-- `errTokenCacheMutationPending`. -/
def tokenCacheMutationPending : String := "token metadata update is pending"

/-- `gorm.ErrRecordNotFound` for a token. -/
def tokenNotFound : String := "record not found"

def invalidTokenGeneration : String := "invalid token database cache generation"

def rollbackFailed (err : String) : String :=
  "failed to roll back token database transaction: " ++ err

/-- `errors.Join`. -/
def joinErrors (err err' : String) : String := err ++ "\n" ++ err'

/-- `TokenMutationCommittedError` for one token. -/
def mutationCommitted (cause : String) : String :=
  "token database mutation committed but cache synchronization failed (committed_count=1): " ++
    cause

/-! ## Steps -/

/-- The answer of a script and the stores, or the error. -/
def TokenEnv.script {α : Type} (env : TokenEnv) (run : TokenStore → α × TokenStore)
    (s : TokenStore) : Except String α × TokenStore :=
  match env.fate with
  | .ok => (.ok (run s).1, (run s).2)
  | .unacked => (.error env.err, (run s).2)
  | .lost | .aborted => (.error env.err, s)

/-- `commitTokenCacheMutation` with its errors. -/
def TokenEnv.finish (env : TokenEnv) (token : TokenRow) (generation : Nat) (s : TokenStore) :
    Except String Unit × TokenStore :=
  if env.fate = .aborted then (.error env.err, s.abortedCommit generation)
  else match env.script (TokenStore.commitTokenCacheMutation token generation) s with
    | (.ok true, s') => (.ok (), s')
    | (.ok false, s') => (.error "token cache generation changed before finalization", s')
    | (.error err, s') => (.error err, s')

/-- `commitTokenCacheDeleteMutation` with its errors. -/
def TokenEnv.finishDelete (env : TokenEnv) (generation : Nat) (s : TokenStore) :
    Except String Unit × TokenStore :=
  match env.script (TokenStore.commitTokenCacheDeleteMutation generation) s with
  | (.ok true, s') => (.ok (), s')
  | (.ok false, s') => (.error "token cache generation changed before delete finalization", s')
  | (.error err, s') => (.error err, s')

variable (id : Nat)

def EndedBy.next (s : TokenStore) : EndedBy → Except String Unit → TokenStore × TokenStage
  | .writer, .ok () => (s, .done)
  | .writer, .error err => (s, .failed (mutationCommitted err))
  | .reconciled commitErr, .ok () => (s, .failed (mutationCommitted commitErr))
  | .reconciled commitErr, .error err => (s, .failed (mutationCommitted (joinErrors commitErr err)))
  | .reconciledDelete causes, .ok () => (s, .failed causes)
  | .reconciledDelete causes, .error err => (s, .failed (joinErrors causes err))
  | .across attempts, .ok () => (s, .across attempts)
  | .across _, .error _ => (s, .failed tokenCacheMutationPending)
  | .recover attempts, .ok () => (s, .recover attempts)
  | .recover _, .error _ => (s.release id, .failed tokenCacheMutationPending)

def ReadBy.miss (err : String) (s : TokenStore) : ReadBy → TokenStore × TokenStage
  | .getToken => (s, .across 3)
  | .recover => (s.release id, .failed err)

def ReadBy.hit (metadata : TokenMetadata) : ReadBy → TokenStage
  | .getToken => .returned metadata
  | .recover => .recovered metadata

variable (env : TokenEnv)

/-- The statements of `mutateTokenMetadata` up to the commit. -/
def TokenStage.advanceWriter (s : TokenStore) : TokenStage → TokenStore × TokenStage
  | .lockRow mutation =>
    if env.fate ≠ .ok then (s, .abort env.err)
    else if s.lock.isSome then (s, .lockRow mutation)
    else match s.row with
      | some row => ({ s with lock := some id }, .begin mutation row)
      | none => (s, .abort tokenNotFound)
  | .begin mutation row =>
    if row.cacheGeneration % 2 ≠ 0 then (s, .abort invalidTokenGeneration)
    else match env.script (TokenStore.beginTokenCacheMutation row.cacheGeneration) s with
      | (.ok (some generation), s') =>
        ({ s' with owner := some id }, .write mutation row generation)
      | (.ok none, s') => (s', .abort tokenCacheMutationPending)
      | (.error err, s') => (s', .abort err)
  | .write mutation row generation =>
    if env.fate ≠ .ok then (s, .undoRow generation env.err)
    else match mutation with
      | .update _ _ => (s, .expect mutation row generation)
      | .delete => (s, .commit mutation row generation)
  | .expect mutation row generation =>
    if env.fate ≠ .ok then (s, .undoRow generation env.err)
    else (s, .commit mutation row generation)
  | .commit mutation row generation =>
    let committed := s.commitRow (mutation.apply row generation)
    match env.fate, mutation with
    | .ok, .update _ _ => (committed, .reload generation)
    | .ok, .delete => (committed, .finishDelete .writer generation)
    | .unacked, _ => (committed, .reconcile mutation generation env.err)
    | _, _ => ((s.release id).disown, .reconcile mutation generation env.err)
  | .abort err =>
    (s.release id, .failed
      (if env.fate = .ok then err else joinErrors err (rollbackFailed env.err)))
  | .undoRow generation err =>
    if env.fate = .ok then (s.release id, .undo generation err)
    -- the generation stays odd, since the outcome of the transaction is not known
    else ((s.release id).disown, .failed (joinErrors err (rollbackFailed env.err)))
  | .undo generation err =>
    match env.script (TokenStore.rollbackTokenCacheMutation generation) s with
    | (.ok true, s') => (s'.disown, .failed err)
    | (.ok false, s') =>
      (s'.disown, .failed (joinErrors err ("failed to roll back token cache fence: " ++
        "token cache generation changed before rollback")))
    | (.error err', s') =>
      (s'.disown, .failed (joinErrors err ("failed to roll back token cache fence: " ++ err')))
  | stage => (s, stage)

variable (s : TokenStore)

def TokenStage.advanceEnd : TokenStage → TokenStore × TokenStage
  | .reload generation =>
    if env.fate ≠ .ok then
      (s, .failed (mutationCommitted ("failed to reload committed token metadata: " ++ env.err)))
    else match s.row with
      | none => (s, .failed (mutationCommitted
          ("failed to reload committed token metadata: " ++ tokenNotFound)))
      | some stored =>
        if stored.cacheGeneration ≠ generation + 1 then
          (s, .failed (mutationCommitted "committed token cache generation could not be verified"))
        else (s, .finish .writer stored generation)
  | .reconcile mutation generation commitErr =>
    if env.fate ≠ .ok then
      (s, .failed (joinErrors commitErr
        ("failed to reconcile token database mutation: " ++ env.err)))
    else match mutation, s.row with
      | .delete, none => (s, .finishDelete (.reconciledDelete (joinErrors commitErr
          "token delete outcome is uncertain because the deleted row has no mutation identity"))
          generation)
      | .update _ mutationId, some stored =>
        if stored.cacheGeneration = generation + 1 ∧ stored.metadataMutationId ≠ "" ∧
            stored.metadataMutationId = mutationId then
          (s, .finish (.reconciled commitErr) stored generation)
        else (s, .failed (joinErrors commitErr "token database mutation outcome is uncertain"))
      | _, _ => (s, .failed (joinErrors commitErr "token database mutation outcome is uncertain"))
  | .finish caller token generation =>
    let result := env.finish token generation s
    caller.next id result.2 result.1
  | .finishDelete caller generation =>
    let result := env.finishDelete generation s
    caller.next id result.2 result.1
  | .invalidate =>
    match env.script (fun s => ((), s.invalidateTokenCache)) s with
    | (.ok _, s') => (s', .done)
    | (.error err, s') => (s', .failed err)
  | stage => (s, stage)

/-- `cacheGetTokenByKey`. -/
def TokenStage.advanceRead : TokenStage → TokenStore × TokenStage
  | .before caller =>
    if env.fate ≠ .ok then caller.miss id env.err s
    else if s.generation = none then caller.miss id "token cache generation is missing" s
    else if s.pending.isSome ∨ s.current % 2 ≠ 0 then caller.miss id tokenCacheMutationPending s
    else (s, .readHash caller s.current)
  | .readHash caller generation =>
    if env.fate ≠ .ok then caller.miss id env.err s
    else match s.hash with
      | some hash => (s, .after caller generation hash)
      -- the text names the key of the hash
      | none => caller.miss id env.err s
  | .after caller generation hash =>
    if env.fate ≠ .ok then caller.miss id env.err s
    else if s.generation = none then caller.miss id "token cache generation is missing" s
    else if s.pending.isSome ∨ s.current % 2 ≠ 0 then caller.miss id tokenCacheMutationPending s
    else if generation ≠ s.current ∨ hash.cacheGeneration ≠ s.current then
      caller.miss id "token cache generation is stale" s
    else (s, caller.hit hash.metadata)
  | stage => (s, stage)

/-- `getTokenByKeyAcrossGeneration` and `recoverTokenCacheFromDatabase`. -/
def TokenStage.advanceRecover : TokenStage → TokenStore × TokenStage
  | .across 0 => (s, .failed tokenCacheMutationPending)
  | .across (attempts + 1) =>
    if env.fate ≠ .ok then (s, .failed env.err)
    else (s, .acrossRow attempts s.current s.pending.isSome)
  | .acrossRow attempts generation marked =>
    if marked then (s, .failed tokenCacheMutationPending)
    else if env.fate ≠ .ok then (s, .failed env.err)
    else if generation % 2 ≠ 0 then
      match s.row with
      | none => (s, .finishDelete (.across attempts) generation)
      | some loaded =>
        if loaded.cacheGeneration = generation + 1 then
          (s, .finish (.across attempts) loaded generation)
        else (s, .failed tokenCacheMutationPending)
    else if s.row = none then (s, .failed tokenNotFound)
    else (s, .recover 3)
  | .recover 0 => (s.release id, .failed tokenCacheMutationPending)
  | .recover (attempts + 1) =>
    if env.fate ≠ .ok then (s, .recoverState attempts (.error env.err))
    else if s.lock.isSome ∧ s.lock ≠ some id then (s, .recover (attempts + 1))
    else match s.row with
      | some loaded => ({ s with lock := some id }, .recoverState attempts (.ok (some loaded)))
      | none => (s, .recoverState attempts (.ok none))
  | .recoverState attempts found =>
    if env.fate ≠ .ok then (s.release id, .failed env.err)
    else if s.pending.isSome then (s.release id, .failed tokenCacheMutationPending)
    else match found with
    | .error readErr => (s.release id, .failed readErr)
    | .ok none =>
      if s.current % 2 ≠ 0 then (s, .finishDelete (.recover attempts) s.current)
      else (s.release id, .failed tokenNotFound)
    | .ok (some loaded) =>
      if s.current % 2 ≠ 0 then
        if loaded.cacheGeneration = s.current + 1 then
          (s, .finish (.recover attempts) loaded s.current)
        else (s.release id, .failed tokenCacheMutationPending)
      else if s.current < loaded.cacheGeneration ∧ loaded.cacheGeneration % 2 = 0 then
        (s, .restore attempts loaded)
      else (s, .init attempts loaded s.current)
  | .restore attempts token =>
    match env.script (TokenStore.restoreTokenCacheGeneration token.cacheGeneration) s with
    | (.ok true, s') => (s', .recover attempts)
    | (_, s') => (s'.release id, .failed tokenCacheMutationPending)
  | .init attempts token expected =>
    if token.cacheGeneration % 2 ≠ 0 then
      (s.release id, .failed ("failed to init token cache: " ++ invalidTokenGeneration))
    else match env.script (TokenStore.cacheInitToken token expected) s with
      | (.ok .stored, s') => (s', .recovered token.metadata)
      | (.ok .present, s') => (s', .before .recover)
      | (.ok .refused, s') => (s', .recover attempts)
      | (.error err, s') => (s'.release id, .failed ("failed to init token cache: " ++ err))
  | .recovered metadata =>
    if env.fate ≠ .ok then (s.release id, .failed env.err)
    else (s.release id, .returned metadata)
  | stage => (s, stage)

def TokenStage.advance (id : Nat) (env : TokenEnv) (s : TokenStore) (stage : TokenStage) :
    TokenStore × TokenStage :=
  match stage with
  | .lockRow _ | .begin .. | .write .. | .expect .. | .commit .. | .abort _ | .undoRow ..
  | .undo .. =>
    stage.advanceWriter id env s
  | .reload _ | .reconcile .. | .finish .. | .finishDelete .. | .invalidate =>
    stage.advanceEnd id env s
  | .before _ | .readHash .. | .after .. => stage.advanceRead id env s
  | .across _ | .acrossRow .. | .recover _ | .recoverState .. | .restore .. | .init ..
  | .recovered _ =>
    stage.advanceRecover id env s
  | .returned _ | .done | .failed _ | .crashed => (s, stage)

/-! ## The system -/

/-- A call that a node makes. -/
inductive TokenJob
  | mutate (mutation : TokenMutation)
  | invalidate
  | getTokenByKey (fromDB : Bool)

def TokenJob.start : TokenJob → TokenStage
  | .mutate mutation => .lockRow mutation
  | .invalidate => .invalidate
  | .getTokenByKey false => .before .getToken
  | .getTokenByKey true => .across 3

/-- A call on the token. -/
structure TokenCall where
  id : Nat
  stage : TokenStage
  born : List (Option TokenMetadata)

/-- The stores and the calls. -/
structure TokenSystem where
  store : TokenStore
  calls : Table TokenCall.id

/-- What happens next. -/
inductive TokenAction
  | call (id : Nat) (job : TokenJob)
  | step (id : Nat) (env : TokenEnv)
  /-- The process of a call stops, and the database ends its transaction. -/
  | crash (id : Nat)
  | expireHash
  | expirePending

/-- The stores without the call: its lock is free and nobody takes its generation back. -/
def TokenStore.crash : TokenStore :=
  if s.owner = some id then (s.release id).disown else s.release id

def TokenSystem.step (s : TokenSystem) : TokenAction → TokenSystem
  | .call id job =>
    match s.calls.insert ⟨id, job.start, s.store.versions⟩ with
    | some calls => { s with calls := calls }
    | none => s
  | .step id env =>
    match s.calls.find id with
    | some call =>
      let next := call.stage.advance id env s.store
      ⟨next.1, s.calls.save { call with stage := next.2 }⟩
    | none => s
  | .crash id =>
    match s.calls.find id with
    | some call => ⟨s.store.crash id, s.calls.save { call with stage := .crashed }⟩
    | none => s
  | .expireHash => { s with store := { s.store with hash := none } }
  | .expirePending => { s with store := { s.store with pending := none } }

end NewApi
