import Mathlib.Algebra.Order.Ring.Int

/-!
# The stores of a token

A token is a database row with a cached copy in Redis. The row carries its *generation*. Redis
keeps the current generation, a marker of a pending mutation that expires, and the hash with the
metadata and the generation it was written at. The generation is even while nothing happens. A
mutation takes it to the next odd number before it writes the row, and to the even number after
that once the row is committed, or back when it gives up.

`owner`, the call that may still take an odd generation back, and `versions`, the metadata the row
has had, are not in any store.
-/

namespace NewApi

/-- The fields of `Token` that decide what a request may do. A missing `AllowIps` is
the empty text, which the cache and the checks do not distinguish from it. -/
structure TokenMetadata where
  status : Int
  name : String
  expiredTime : Int
  (unlimitedQuota modelLimitsEnabled : Bool)
  (modelLimits allowIps : String)
  streamRecoveryEnabled : Bool
  group : String
  crossGroupRetry : Bool
  (autoGroups defaultRoutingStrategy allowedRoutingStrategies defaultConversionPolicy : String)
  allowLossyConversion : Bool
deriving DecidableEq

/-- The row of the token. -/
structure TokenRow where
  metadata : TokenMetadata
  cacheGeneration : Nat
  metadataMutationId : String
deriving DecidableEq

/-- The hash of the token. -/
structure TokenHash where
  metadata : TokenMetadata
  cacheGeneration : Nat
deriving DecidableEq

/-- Redis and the database. -/
structure TokenStore where
  (generation pending : Option Nat)
  hash : Option TokenHash
  /-- The committed row, `none` once it is deleted. -/
  row : Option TokenRow
  (lock owner : Option Nat)
  versions : List (Option TokenMetadata)
deriving DecidableEq

namespace TokenStore

def current (s : TokenStore) : Nat := s.generation.getD 0

/-! ## Scripts -/

/-- The script of `beginTokenCacheMutation`: `none` when a mutation is pending. -/
def beginTokenCacheMutation (minimum : Nat) (s : TokenStore) : Option Nat × TokenStore :=
  if s.current % 2 ≠ 0 ∨ s.pending.isSome then (none, s)
  else
    let generation := max s.current minimum + 1
    (some generation, { s with generation := some generation, pending := some generation })

/-- The frame of the three scripts that end a mutation. A missing generation is put
back when the marker is the mutation's, a later one means that somebody else ended
it, and any other but the mutation's own is refused. -/
def endMutation (incoming : Nat) (change : TokenStore → TokenStore) (s : TokenStore) :
    Bool × TokenStore :=
  if s.generation = none ∧ s.pending ≠ some incoming then (false, s)
  else
    let s := { s with generation := some (s.generation.getD incoming) }
    if incoming < s.current then (true, s)
    else if s.current ≠ incoming ∨ s.current % 2 = 0 then (false, s)
    else
      let s := change s
      (true, { s with pending := if s.pending = some incoming then none else s.pending })

/-- The script of `commitTokenCacheMutation`: an existing hash gets the metadata. -/
def commitTokenCacheMutation (token : TokenRow) (generation : Nat) :
    TokenStore → Bool × TokenStore :=
  endMutation generation fun s => { s with
    generation := some (generation + 1)
    hash := s.hash.map fun _ => ⟨token.metadata, generation + 1⟩ }

variable (generation : Nat)

/-- The same script when a command on the hash raises an error: the generation is
already written. -/
def abortedCommit (s : TokenStore) : TokenStore :=
  if s.generation = some generation ∧ generation % 2 ≠ 0 then
    { s with generation := some (generation + 1) }
  else s

/-- The script of `commitTokenCacheDeleteMutation`. -/
def commitTokenCacheDeleteMutation : TokenStore → Bool × TokenStore :=
  endMutation generation fun s => { s with generation := some (generation + 1), hash := none }

/-- The script of `rollbackTokenCacheMutation`. -/
def rollbackTokenCacheMutation : TokenStore → Bool × TokenStore :=
  endMutation generation fun s => { s with generation := some (generation - 1) }

variable (s : TokenStore)

/-- The script of `restoreTokenCacheGenerationForColdCache`. -/
def restoreTokenCacheGeneration : Bool × TokenStore :=
  if s.pending.isSome ∨ s.hash.isSome then (false, s)
  else if s.generation.isSome ∧ (s.current % 2 ≠ 0 ∨ generation < s.current) then (false, s)
  else (true, { s with generation := some generation })

/-- The script of `invalidateTokenCache`. -/
def invalidateTokenCache : TokenStore :=
  { s with
    generation := if s.current % 2 = 0 then some (s.current + 2) else s.generation
    hash := none }

/-- The three answers of `cacheInitToken`. -/
inductive CacheInit
  | refused
  | stored
  | present
deriving DecidableEq

/-- The script of `cacheInitToken`. -/
def cacheInitToken (token : TokenRow) (expected : Nat) (s : TokenStore) : CacheInit × TokenStore :=
  if s.current < token.cacheGeneration then (.refused, s)
  else if s.current ≠ expected ∨ s.current % 2 ≠ 0 ∨ s.pending.isSome then (.refused, s)
  else match s.hash with
    | some hash =>
      if hash.cacheGeneration ≠ expected then (.refused, s)
      else (.present, { s with generation := some expected })
    | none =>
      (.stored, { s with
        generation := some expected
        hash := some ⟨token.metadata, expected⟩ })

/-! ## Transactions -/

/-- The lock is given back when the transaction of the call ends. -/
def release (id : Nat) (s : TokenStore) : TokenStore :=
  if s.lock = some id then { s with lock := none } else s

/-- The call can no longer take the generation back. -/
def disown : TokenStore := { s with owner := none }

def commitRow (row : Option TokenRow) (s : TokenStore) : TokenStore :=
  { s with
    row := row
    lock := none
    owner := none
    versions := row.map TokenRow.metadata :: s.versions }

end TokenStore

end NewApi
