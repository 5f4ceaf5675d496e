import NewApi.Lib.Runs
import NewApi.Lib.Table

/-!
# The in-memory rate limiter

`InMemoryRateLimiter` keeps for every key the times of its accepted requests, oldest first.
`Request` forgets those that left the window and accepts a request while fewer than the limit are
remembered. `Reserve` counts requests in flight as well, and `Complete` turns such a request into
a remembered one or gives its place back. A key that was not used for `expirationDuration`, which
the first `Init` fixes, is dropped with all its times by the next tick.

The clock counts nanoseconds, and a queue holds seconds. Every call holds the mutex, so it is one
step. A tick may be handled later than it was sent. The map and the list of entries are one
table here, the key that was used last first.
-/

namespace NewApi

open Runs

/-- `Time.Unix`. -/
def unix (t : Int) : Int := t / 1000000000

/-- `rateLimitEntry`, with the times of its queue. -/
structure RateLimitEntry where
  key : String
  lastActive : Int
  requests : List Int
deriving DecidableEq

/-- The limiter after its first `Init`. -/
structure InMemoryRateLimiter where
  entries : Table RateLimitEntry.key
  reservations : String → Int
  expirationDuration : Int

/-- `rateLimitQueue.removeExpired`. -/
def removeExpired (now duration : Int) (queue : List Int) : List Int :=
  match queue with
  | [] => []
  | head :: rest =>
    if now - head < duration then head :: rest
    else if duration ≤ now - (head :: rest).getLast (List.cons_ne_nil head rest) then []
    else (head :: rest).dropWhile fun t => duration ≤ now - t

namespace InMemoryRateLimiter

/-- `Init`. -/
def init (l : Option InMemoryRateLimiter) (expirationDuration : Int) : InMemoryRateLimiter :=
  match l with
  | some l => l
  | none => ⟨.empty, fun _ => 0, expirationDuration⟩

/-- The entries without the longest unused ones, up to the first that is active. -/
def evict (expired : RateLimitEntry → Bool) (entries : Table RateLimitEntry.key) :
    Table RateLimitEntry.key where
  rows := (entries.rows.reverse.dropWhile expired).reverse
  nodup := by
    refine entries.nodup.sublist (List.Sublist.map _ ?_)
    have hsub := (List.dropWhile_sublist (l := entries.rows.reverse) expired).reverse
    rwa [List.reverse_reverse] at hsub

variable (l : InMemoryRateLimiter)

/-- `deleteExpiredEntries`. -/
def deleteExpiredEntries (now : Int) : InMemoryRateLimiter :=
  if l.expirationDuration ≤ 0 then l
  else
    { l with entries := evict (fun e => l.expirationDuration ≤ now - e.lastActive) l.entries }

def toFront (entries : Table RateLimitEntry.key) (entry : RateLimitEntry) :
    Table RateLimitEntry.key where
  rows := entry :: (entries.remove entry.key).rows
  nodup := by
    rw [List.map_cons, List.nodup_cons]
    refine ⟨?_, (entries.remove entry.key).nodup⟩
    intro hmem
    obtain ⟨e, he, hkey⟩ := List.mem_map.mp hmem
    exact (Table.mem_remove.mp he).2 hkey

variable (key : String)

/-- `touchEntry`: the entry, and the limiter with it in front. -/
def touchEntry (now : Int) : RateLimitEntry × InMemoryRateLimiter :=
  let entry := match l.entries.find key with
    | none => ⟨key, now, []⟩
    | some entry => { entry with lastActive := now }
  (entry, { l with entries := toFront l.entries entry })

def setRequests (entry : RateLimitEntry) (requests : List Int) : InMemoryRateLimiter :=
  { l with entries := l.entries.save { entry with requests := requests } }

/-- `Request`. -/
def request (l : InMemoryRateLimiter) (key : String) (maxRequestNum duration now : Int) :
    Bool × InMemoryRateLimiter :=
  let (entry, l) := l.touchEntry key now
  let requests := removeExpired (unix now) duration entry.requests
  if (requests.length : Int) < maxRequestNum then
    (true, l.setRequests entry (requests ++ [unix now]))
  else (false, l.setRequests entry requests)

def addReservations (n : Int) : InMemoryRateLimiter :=
  { l with reservations := fun k => if k = key then l.reservations k + n else l.reservations k }

/-- `Reserve`: whether there is a reservation. -/
def reserve (maxRequests duration now : Int) : Bool × InMemoryRateLimiter :=
  let (entry, l) := l.touchEntry key now
  let requests := removeExpired (unix now) duration entry.requests
  let l := l.setRequests entry requests
  if maxRequests ≤ requests.length + l.reservations key then (false, l)
  else (true, l.addReservations key 1)

/-- The body of `Complete`, which runs once for a reservation. -/
def complete (success : Bool) (now : Int) : InMemoryRateLimiter :=
  let l := l.addReservations key (-1)
  if success then
    let (entry, l) := l.touchEntry key now
    l.setRequests entry (entry.requests ++ [unix now])
  else l

end InMemoryRateLimiter

/-! ## The system -/

/-- A `RateLimitReservation` that was handed out. -/
structure RateLimitReservation where
  id : Nat
  key : String
  /-- The `sync.Once` has run. -/
  completed : Bool
deriving DecidableEq

/-- What was accepted, at which time. No function of the source reads it. -/
inductive RateLimitEvent
  /-- A call of `Request` that returned true. -/
  | accepted (key : String) (maxRequestNum duration time : Int)
  | succeeded (key : String) (time : Int)
deriving DecidableEq

/-- The limiter, the clock, and the reservations that were handed out. -/
structure RateLimitSystem where
  clock : Int
  limiter : InMemoryRateLimiter
  handed : Table RateLimitReservation.id
  log : List RateLimitEvent

/-- What happens next. -/
inductive RateLimitAction
  | wait (time : Nat)
  | init (expirationDuration : Int)
  | request (key : String) (maxRequestNum duration : Int)
  | reserve (id : Nat) (key : String) (maxRequests duration : Int)
  | complete (id : Nat) (success : Bool)
  | tick (late : Nat)
deriving DecidableEq

/-- The start, right after the first `Init`. -/
def RateLimitSystem.start (clock expirationDuration : Int) : RateLimitSystem :=
  ⟨clock, .init none expirationDuration, .empty, []⟩

def RateLimitSystem.step (s : RateLimitSystem) : RateLimitAction → RateLimitSystem
  | .wait time => { s with clock := s.clock + time }
  | .init expirationDuration => { s with limiter := .init (some s.limiter) expirationDuration }
  | .request key maxRequestNum duration =>
    match s.limiter.request key maxRequestNum duration s.clock with
    | (true, limiter) =>
      { s with
        limiter := limiter
        log := s.log ++ [.accepted key maxRequestNum duration s.clock] }
    | (false, limiter) => { s with limiter := limiter }
  | .reserve id key maxRequests duration =>
    match s.handed.insert ⟨id, key, false⟩ with
    | none => s
    | some handed =>
      match s.limiter.reserve key maxRequests duration s.clock with
      | (true, limiter) => { s with limiter := limiter, handed := handed }
      | (false, limiter) => { s with limiter := limiter }
  | .complete id success =>
    match s.handed.find id with
    | none => s
    | some r =>
      if r.completed then s
      else
        { s with
          limiter := s.limiter.complete r.key success s.clock
          handed := s.handed.save { r with completed := true }
          log := if success then s.log ++ [.succeeded r.key s.clock] else s.log }
  | .tick late => { s with limiter := s.limiter.deleteExpiredEntries (s.clock - late) }

end NewApi
