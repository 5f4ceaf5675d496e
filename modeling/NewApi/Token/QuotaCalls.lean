import NewApi.Lib.Double
import NewApi.Lib.Runs
import NewApi.Lib.Table

/-!
# The quota of a token, in the row and in the cache

Requests move quota between the remaining and the used quota of a token, in the hash at once and
in the row when the change is persisted, alone or in a batch. An edit adds to the remaining quota
of the row and later to that of the hash, under the fence of the cache generation.

A script runs as one step, and so does a statement on the row. Everything a script reads is a
double. Every call succeeds. An edit holds the row from its first statement to its commit, and
`recoverTokenCacheFromDatabase` while it reads the row and writes the hash. `delta` is the quota
the last committed edit has added; no code reads it.
-/

namespace NewApi.TokenQuota

/-- The quotas of the row and its generation. -/
structure Row where
  (remainQuota usedQuota : Int)
  cacheGeneration : Nat
deriving DecidableEq

/-- The quotas of the hash and its generation. -/
structure Hash where
  (remainQuota usedQuota : Int)
  cacheGeneration : Nat
deriving DecidableEq

def Row.total (row : Row) : Int := row.remainQuota + row.usedQuota

def Hash.total (hash : Hash) : Int := hash.remainQuota + hash.usedQuota

/-- Redis, the database and the batch of quota changes. -/
structure Store where
  (generation pending : Option Nat)
  hash : Option Hash
  row : Row
  lock : Option Nat
  (batch delta : Int)
deriving DecidableEq

namespace Store

def current (s : Store) : Nat := s.generation.getD 0

/-! ## Scripts on the quotas -/

/-- `cacheQuotaResult`. -/
inductive CacheQuota
  | insufficient | ok | miss
deriving DecidableEq

/-- `tokenQuotaReserveScript`. -/
def cacheTryReserveTokenQuota (quota : Int) (s : Store) : CacheQuota × Store :=
  match s.hash with
  | none => (.miss, s)
  | some h =>
    if Double.ofInt h.remainQuota < Double.ofInt quota then (.insufficient, s)
    else (.ok, { s with hash := some { h with
      remainQuota := h.remainQuota - Double.ofInt quota
      usedQuota := h.usedQuota + Double.ofInt quota } })

variable (delta : Int)

/-- `tokenQuotaDeltaScript`. -/
def cacheApplyTokenQuotaDelta (s : Store) : Store :=
  { s with hash := s.hash.map fun h => { h with
    remainQuota := h.remainQuota + Double.ofInt delta
    usedQuota := h.usedQuota - Double.ofInt delta } }

/-! ## Scripts on the generation -/

/-- The script of `beginTokenCacheMutation`: none when a mutation is pending. -/
def beginTokenCacheMutation (minimum : Nat) (s : Store) : Option Nat × Store :=
  if s.current % 2 ≠ 0 ∨ s.pending.isSome then (none, s)
  else
    let generation := max s.current minimum + 1
    (some generation, { s with generation := some generation, pending := some generation })

variable (token : Row)

/-- The quota the script of `commitTokenCacheMutation` adds to the hash. -/
def quotaDelta (h : Hash) : Int :=
  Double.ofInt (Double.ofInt (Double.ofInt token.remainQuota + Double.ofInt token.usedQuota) -
    Double.ofInt (Double.ofInt h.remainQuota + Double.ofInt h.usedQuota))

/-- The script of `commitTokenCacheMutation`. -/
def commitTokenCacheMutation (incoming : Nat) (s : Store) : Bool × Store :=
  if s.generation = none ∧ s.pending ≠ some incoming then (false, s)
  else
    let s := { s with generation := some (s.generation.getD incoming) }
    if incoming < s.current then (true, s)
    else if s.current ≠ incoming ∨ s.current % 2 = 0 then (false, s)
    else (true, { s with
      generation := some (incoming + 1)
      hash := s.hash.map fun h =>
        ⟨h.remainQuota + quotaDelta token h, h.usedQuota, incoming + 1⟩
      pending := if s.pending = some incoming then none else s.pending })

/-- The script of `restoreTokenCacheGenerationForColdCache`. -/
def restoreTokenCacheGeneration (generation : Nat) (s : Store) : Bool × Store :=
  if s.pending.isSome ∨ s.hash.isSome then (false, s)
  else if s.generation.isSome ∧ (s.current % 2 ≠ 0 ∨ generation < s.current) then (false, s)
  else (true, { s with generation := some generation })

/-- The script of `cacheInitToken`: the hash is written, or found at its generation, or
neither. -/
def cacheInitToken (expected : Nat) (s : Store) : Option Bool × Store :=
  if s.current < token.cacheGeneration then (none, s)
  else if s.current ≠ expected ∨ s.current % 2 ≠ 0 ∨ s.pending.isSome then (none, s)
  else match s.hash with
    | some hash =>
      if hash.cacheGeneration ≠ expected then (none, s)
      else (some false, { s with generation := some expected })
    | none =>
      (some true, { s with
        generation := some expected
        hash := some ⟨token.remainQuota, token.usedQuota, expected⟩ })

/-! ## Statements on the row -/

def blocked (id : Nat) (s : Store) : Bool := s.lock.any (· ≠ id)

/-- `increaseTokenQuota`, `decreaseTokenQuota` and the update of `persistTokenQuotaDelta`. -/
def addTokenQuota (s : Store) : Store :=
  { s with row := { s.row with
    remainQuota := s.row.remainQuota + delta
    usedQuota := s.row.usedQuota - delta } }

def release (id : Nat) (s : Store) : Store :=
  if s.lock = some id then { s with lock := none } else s

/-- The transaction of an edit commits: the row has its new generation and the quota the
administrator has added. -/
def commitEdit (generation : Nat) (s : Store) : Store :=
  { s with
    row := { s.row with
      remainQuota := s.row.remainQuota + delta
      cacheGeneration := generation }
    lock := none
    delta := delta }

end Store

/-! ## Calls -/

/-- Who reads the token with `GetTokenByKey`: a caller, or a reservation that has missed
the hash. -/
inductive Reader
  | direct
  | reserve (quota : Int)
deriving DecidableEq

/-- What a call does next. -/
inductive Stage
  /-- `TryReserveTokenQuota`. -/
  | reserve (quota : Int)
  | reserveAgain (quota : Int)
  | reserveDB (quota : Int)
  /-- `persistTokenQuotaDelta`. -/
  | persist (delta : Int)
  /-- `IncreaseTokenQuota` and `DecreaseTokenQuota`, with what they still have to do. -/
  | change (delta : Int) (background foreground : Bool)
  /-- The state of `getTokenByKeyAcrossGeneration`, with the attempts that are left. -/
  | across (reader : Reader) (attempts : Nat)
  | acrossRow (reader : Reader) (attempts expected : Nat) (marked : Bool)
  | acrossFinish (reader : Reader) (attempts : Nat) (loaded : Row) (expected : Nat)
  /-- `recoverTokenCacheFromDatabase`. -/
  | recover (reader : Reader) (attempts : Nat)
  | recoverState (reader : Reader) (attempts : Nat) (loaded : Row)
  | recoverFinish (reader : Reader) (attempts : Nat) (loaded : Row) (expected : Nat)
  | recoverRestore (reader : Reader) (attempts : Nat) (loaded : Row)
  | recoverInit (reader : Reader) (attempts : Nat) (loaded : Row) (expected : Nat)
  /-- `cacheGetTokenByKey`, for a hash that was found in place. -/
  | recoverBefore (reader : Reader)
  | recoverHash (reader : Reader) (generation : Nat)
  | recoverAfter (reader : Reader) (generation : Nat) (hash : Hash)
  | recovered (reader : Reader)
  /-- `UpdateWithQuotaDelta`, and with a delta of zero `Update` and `SelectUpdate`. -/
  | edit (delta : Int)
  | editBegin (delta : Int)
  | editCommit (delta : Int) (generation : Nat)
  | editReload (generation : Nat)
  | editFinish (stored : Row) (generation : Nat)
  /-- `batchUpdate`. -/
  | flush
  | flushing (delta : Int)
  | returned (ok : Bool)
deriving DecidableEq

def Reader.found : Reader → Stage
  | .direct => .returned true
  | .reserve quota => .reserveAgain quota

def Reader.missed : Reader → Stage
  | .direct => .returned false
  | .reserve quota => .reserveDB quota

/-- The background step of `IncreaseTokenQuota` and `DecreaseTokenQuota`. -/
def Stage.background (s : Store) : Stage → Store × Stage
  | .change delta true foreground =>
    (s.cacheApplyTokenQuotaDelta delta,
      if foreground then .change delta false true else .returned true)
  | stage => (s, stage)

/-- The next step of a call; `batchUpdateEnabled` is the setting of that name. -/
def Stage.advance (batchUpdateEnabled : Bool) (id : Nat) (s : Store) : Stage → Store × Stage
  | .reserve quota =>
    match s.cacheTryReserveTokenQuota quota with
    | (.ok, s') => (s', .persist (-quota))
    | (.insufficient, s') => (s', .returned false)
    | (.miss, s') => (s', .across (.reserve quota) 3)
  | .reserveAgain quota =>
    match s.cacheTryReserveTokenQuota quota with
    | (.ok, s') => (s', .persist (-quota))
    | (.insufficient, s') => (s', .returned false)
    | (.miss, s') => (s', .reserveDB quota)
  | .reserveDB quota =>
    if s.blocked id then (s, .reserveDB quota)
    else if quota ≤ s.row.remainQuota then (s.addTokenQuota (-quota), .returned true)
    else (s, .returned false)
  | .persist delta =>
    if batchUpdateEnabled then ({ s with batch := s.batch + delta }, .returned true)
    else if s.blocked id then (s, .persist delta)
    else (s.addTokenQuota delta, .returned true)
  | .change delta background true =>
    if batchUpdateEnabled then
      ({ s with batch := s.batch + delta },
        if background then .change delta true false else .returned true)
    else if s.blocked id then (s, .change delta background true)
    else
      (s.addTokenQuota delta, if background then .change delta true false else .returned true)
  | .change delta background false => (s, .change delta background false)
  | .across reader 0 => (s, reader.missed)
  | .across reader (attempts + 1) => (s, .acrossRow reader attempts s.current s.pending.isSome)
  | .acrossRow reader attempts expected marked =>
    if marked then (s, reader.missed)
    else if expected % 2 ≠ 0 then
      if s.row.cacheGeneration = expected + 1 then
        (s, .acrossFinish reader attempts s.row expected)
      else (s, reader.missed)
    else (s, .recover reader 3)
  | .acrossFinish reader attempts loaded expected =>
    match s.commitTokenCacheMutation loaded expected with
    | (true, s') => (s', .across reader attempts)
    | (false, s') => (s', reader.missed)
  | .recover reader 0 => (s.release id, reader.missed)
  | .recover reader (attempts + 1) =>
    if s.blocked id then (s, .recover reader (attempts + 1))
    else ({ s with lock := some id }, .recoverState reader attempts s.row)
  | .recoverState reader attempts loaded =>
    if s.pending.isSome then (s.release id, reader.missed)
    else if s.current % 2 ≠ 0 then
      if loaded.cacheGeneration = s.current + 1 then
        (s, .recoverFinish reader attempts loaded s.current)
      else (s.release id, reader.missed)
    else if s.current < loaded.cacheGeneration ∧ loaded.cacheGeneration % 2 = 0 then
      (s, .recoverRestore reader attempts loaded)
    else (s, .recoverInit reader attempts loaded s.current)
  | .recoverFinish reader attempts loaded expected =>
    match s.commitTokenCacheMutation loaded expected with
    | (true, s') => (s', .recover reader attempts)
    | (false, s') => (s'.release id, reader.missed)
  | .recoverRestore reader attempts loaded =>
    match s.restoreTokenCacheGeneration loaded.cacheGeneration with
    | (true, s') => (s', .recover reader attempts)
    | (false, s') => (s'.release id, reader.missed)
  | .recoverInit reader attempts loaded expected =>
    if loaded.cacheGeneration % 2 ≠ 0 then (s.release id, reader.missed)
    else
      match s.cacheInitToken loaded expected with
      | (some true, s') => (s', .recovered reader)
      | (some false, s') => (s', .recoverBefore reader)
      | (none, s') => (s', .recover reader attempts)
  | .recoverBefore reader =>
    if s.generation = none ∨ s.pending.isSome ∨ s.current % 2 ≠ 0 then
      (s.release id, reader.missed)
    else (s, .recoverHash reader s.current)
  | .recoverHash reader generation =>
    match s.hash with
    | some hash => (s, .recoverAfter reader generation hash)
    | none => (s.release id, reader.missed)
  | .recoverAfter reader generation hash =>
    if s.generation = none ∨ s.pending.isSome ∨ s.current % 2 ≠ 0 ∨ generation ≠ s.current ∨
        hash.cacheGeneration ≠ s.current then
      (s.release id, reader.missed)
    else (s, .recovered reader)
  | .recovered reader => (s.release id, reader.found)
  | .edit delta =>
    if s.lock.isSome then (s, .edit delta)
    else ({ s with lock := some id }, .editBegin delta)
  | .editBegin delta =>
    if s.row.cacheGeneration % 2 ≠ 0 then (s.release id, .returned false)
    else
      match s.beginTokenCacheMutation s.row.cacheGeneration with
      | (some generation, s') => (s', .editCommit delta generation)
      | (none, s') => (s'.release id, .returned false)
  | .editCommit delta generation =>
    (s.commitEdit delta (generation + 1), .editReload generation)
  | .editReload generation =>
    if s.row.cacheGeneration = generation + 1 then (s, .editFinish s.row generation)
    else (s, .returned false)
  | .editFinish stored generation =>
    match s.commitTokenCacheMutation stored generation with
    | (ok, s') => (s', .returned ok)
  | .flush => ({ s with batch := 0 }, .flushing s.batch)
  | .flushing delta =>
    if s.blocked id then (s, .flushing delta)
    else (s.addTokenQuota delta, .returned true)
  | .returned ok => (s, .returned ok)

/-- A call in flight. -/
structure Call where
  id : Nat
  stage : Stage
deriving DecidableEq

structure System where
  store : Store
  calls : Table Call.id

/-- A call and its arguments. -/
inductive Job
  | tryReserveTokenQuota (quota : Nat) (unlimited : Bool)
  | increaseTokenQuota (quota : Nat)
  | decreaseTokenQuota (quota : Nat)
  | updateWithQuotaDelta (delta : Int)
  | selectUpdate
  | getTokenByKey
  | batchUpdate
deriving DecidableEq

def Job.stage : Job → Stage
  | .tryReserveTokenQuota quota unlimited =>
    if quota = 0 then .returned true
    else if unlimited then .change (-quota) true true
    else .reserve quota
  | .increaseTokenQuota quota => .change quota true true
  | .decreaseTokenQuota quota => .change (-quota) true true
  | .updateWithQuotaDelta delta => .edit delta
  | .selectUpdate => .edit 0
  | .getTokenByKey => .across .direct 3
  | .batchUpdate => .flush

/-- What happens next. -/
inductive Action
  | call (id : Nat) (job : Job)
  | step (id : Nat)
  | background (id : Nat)
  | expireHash
  | expireMarker
deriving DecidableEq

def System.move (s : System) (id : Nat) (next : Store × Stage) : System :=
  ⟨next.1, s.calls.save ⟨id, next.2⟩⟩

def System.step (batchUpdateEnabled : Bool) (s : System) : Action → System
  | .call id job =>
    match s.calls.insert ⟨id, job.stage⟩ with
    | some calls => { s with calls := calls }
    | none => s
  | .step id =>
    match s.calls.find id with
    | some call => s.move id (call.stage.advance batchUpdateEnabled id s.store)
    | none => s
  | .background id =>
    match s.calls.find id with
    | some call => s.move id (call.stage.background s.store)
    | none => s
  | .expireHash => { s with store := { s.store with hash := none } }
  | .expireMarker => { s with store := { s.store with pending := none } }

end NewApi.TokenQuota
