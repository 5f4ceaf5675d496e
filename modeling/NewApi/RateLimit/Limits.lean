import Mathlib.Algebra.Order.BigOperators.Group.List
import Mathlib.Data.List.Pairwise
import Mathlib.Data.List.TakeWhile
import NewApi.Lib.Window
import NewApi.RateLimit.Limiter

/-!
# The rate limit holds in every window

For one key, everything that was accepted or completed with success was put into its queue. The
queue is the end of that history, and what is missing in front is older than the window
(`Windowed`), as long as no call on the key has a shorter window and idle keys are not dropped
before their window is over. So any `N + 1` accepted requests span the window.

The queue and the reservations together never exceed the limit, and a completion moves a place
from one to the other.
-/

namespace NewApi

open Runs Window

/-! ## Queues -/

theorem removeExpired_split (now duration : Int) {queue : List Int}
    (hsorted : queue.Pairwise (· ≤ ·)) :
    ∃ front, queue = front ++ removeExpired now duration queue ∧
      ∀ t ∈ front, duration ≤ now - t := by
  cases queue with
  | nil => exact ⟨[], rfl, by simp⟩
  | cons head rest =>
    simp only [removeExpired]
    split
    · exact ⟨[], rfl, by simp⟩
    split
    next hlast =>
      refine ⟨head :: rest, (List.append_nil _).symm, ?_⟩
      -- the queue is in order, so nothing is younger than its tail
      intro t ht
      have hle := hsorted.rel_getLast ht
      omega
    · refine ⟨(head :: rest).takeWhile fun t => decide (duration ≤ now - t),
        List.takeWhile_append_dropWhile.symm, ?_⟩
      intro t ht
      simpa using List.mem_takeWhile_imp ht

theorem removeExpired_length_le (now duration : Int) (queue : List Int) :
    (removeExpired now duration queue).length ≤ queue.length := by
  cases queue with
  | nil => exact Nat.le_refl _
  | cons head rest =>
    simp only [removeExpired]
    split
    · exact Nat.le_refl _
    split
    · exact Nat.zero_le _
    · exact (List.dropWhile_sublist _).length_le

namespace InMemoryRateLimiter

variable (l : InMemoryRateLimiter) (key : String) (now : Int) {k : String} {requests : List Int}

def queue : List Int := ((l.entries.find key).map RateLimitEntry.requests).getD []

theorem find_toFront (entries : Table RateLimitEntry.key) (entry : RateLimitEntry) (k : String) :
    (toFront entries entry).find k = if entry.key = k then some entry else entries.find k := by
  have hrest := Table.find_remove entries entry.key k
  rw [Table.find] at hrest ⊢
  rw [toFront, List.find?_cons]
  by_cases hk : entry.key = k
  · simp [hk]
  · rw [if_neg hk] at hrest ⊢
    simp [hk, hrest]

theorem touchEntry_entry : (l.touchEntry key now).1 = ⟨key, now, l.queue key⟩ := by
  simp only [touchEntry, queue]
  cases hfind : l.entries.find key with
  | none => rfl
  | some entry =>
    obtain rfl : entry.key = key := Table.find_key hfind
    rfl

/-- The limiter after a call on the key that leaves the queue. -/
def used (requests : List Int) : InMemoryRateLimiter :=
  (l.touchEntry key now).2.setRequests (l.touchEntry key now).1 requests

theorem find_used (requests : List Int) (k : String) : (l.used key now requests).entries.find k =
      if key = k then some ⟨key, now, requests⟩ else l.entries.find k := by
  have hentry := touchEntry_entry l key now
  have htouch : (l.touchEntry key now).2.entries = toFront l.entries (l.touchEntry key now).1 := rfl
  simp only [used, setRequests, Table.find_save, htouch, find_toFront, hentry]
  by_cases hk : key = k <;> simp [hk]

theorem request_cases (n d now : Int) : let requests := removeExpired (unix now) d (l.queue key)
    ((requests.length : Int) < n ∧
        l.request key n d now = (true, l.used key now (requests ++ [unix now]))) ∨
      (n ≤ requests.length ∧ l.request key n d now = (false, l.used key now requests)) := by
  have hentry := congrArg RateLimitEntry.requests (touchEntry_entry l key now)
  simp only [request, hentry]
  split
  next hroom => exact .inl ⟨hroom, rfl⟩
  next hfull => exact .inr ⟨Int.not_lt.mp hfull, rfl⟩

theorem reserve_cases (n d now : Int) : let requests := removeExpired (unix now) d (l.queue key)
    (requests.length + l.reservations key < n ∧
        l.reserve key n d now = (true, (l.used key now requests).addReservations key 1)) ∨
      (n ≤ requests.length + l.reservations key ∧
        l.reserve key n d now = (false, l.used key now requests)) := by
  have hentry := congrArg RateLimitEntry.requests (touchEntry_entry l key now)
  have hcount : (l.used key now (removeExpired (unix now) d (l.queue key))).reservations key =
      l.reservations key := rfl
  simp only [reserve, hentry]
  split
  next hfull => exact .inr ⟨hfull, rfl⟩
  next hroom => exact .inl ⟨Int.not_le.mp hroom, rfl⟩

theorem complete_success :
    l.complete key true now =
      (l.addReservations key (-1)).used key now (l.queue key ++ [unix now]) := by
  have hentry := congrArg RateLimitEntry.requests
    (touchEntry_entry (l.addReservations key (-1)) key now)
  simp only [complete, if_true, hentry]
  rfl

theorem find_deleteExpiredEntries (k : String) :
    (l.deleteExpiredEntries now).entries.find k = l.entries.find k ∨
      ((l.deleteExpiredEntries now).entries.find k = none ∧ 0 < l.expirationDuration ∧
        ∀ e, l.entries.find k = some e → l.expirationDuration ≤ now - e.lastActive) := by
  simp only [deleteExpiredEntries]
  split
  · exact .inl rfl
  next hexp =>
  cases hfind : (evict (fun e => l.expirationDuration ≤ now - e.lastActive) l.entries).find k with
  | some e =>
    have hmem := Table.find_mem hfind
    rw [evict, List.mem_reverse] at hmem
    have hold := List.mem_reverse.mp ((List.dropWhile_sublist _).subset hmem)
    left
    rw [← Table.find_key hfind, Table.find_of_mem hold]
  | none =>
    refine .inr ⟨rfl, by omega, ?_⟩
    intro e he
    -- the entry was among those that the loop walked over
    have hmem := List.mem_reverse.mpr (Table.find_mem he)
    rw [← List.takeWhile_append_dropWhile
      (p := fun e : RateLimitEntry => decide (l.expirationDuration ≤ now - e.lastActive))
      (l := l.entries.rows.reverse)] at hmem
    rcases List.mem_append.mp hmem with hwalked | hkept
    · simpa using List.mem_takeWhile_imp hwalked
    have hkept' : e ∈ (evict (fun e => l.expirationDuration ≤ now - e.lastActive)
        l.entries).rows := List.mem_reverse.mpr hkept
    have hfind' := Table.find_of_mem hkept'
    rw [Table.find_key he, hfind] at hfind'
    cases hfind'

end InMemoryRateLimiter

/-! ## Histories -/

def RateLimitEvent.key : RateLimitEvent → String
  | .accepted key _ _ _ | .succeeded key _ => key

def RateLimitEvent.time : RateLimitEvent → Int
  | .accepted _ _ _ time | .succeeded _ time => time

variable (key : String) (log : List RateLimitEvent)

/-- The seconds that were put into the queue of a key. -/
def queuedSeconds : List Int := (log.filter fun e => e.key = key).map fun e => unix e.time

/-- When a call `Request(key, n, d)` returned true. -/
def acceptedTimes (n d : Int) (log : List RateLimitEvent) : List Int :=
  (log.filter fun e => e = .accepted key n d e.time).map RateLimitEvent.time

/-- When a reservation of the key was completed with success. -/
def succeededTimes : List Int :=
  (log.filter fun e => e = .succeeded key e.time).map RateLimitEvent.time

theorem queuedSeconds_append (log events : List RateLimitEvent) :
    queuedSeconds key (log ++ events) = queuedSeconds key log ++ queuedSeconds key events := by
  simp [queuedSeconds]

theorem acceptedTimes_append (n d : Int) (log events : List RateLimitEvent) :
    acceptedTimes key n d (log ++ events) =
      acceptedTimes key n d log ++ acceptedTimes key n d events := by
  simp [acceptedTimes]

theorem succeededTimes_append (log events : List RateLimitEvent) :
    succeededTimes key (log ++ events) = succeededTimes key log ++ succeededTimes key events := by
  simp [succeededTimes]

theorem sublist_queuedSeconds {key : String} (p : RateLimitEvent → Bool)
    (hp : ∀ e, p e = true → e.key = key) (log : List RateLimitEvent) :
    (((log.filter p).map RateLimitEvent.time).map unix).Sublist (queuedSeconds key log) := by
  rw [List.map_map]
  refine List.Sublist.map _ (List.monotone_filter_right log ?_)
  intro e he
  simpa using hp e he

theorem accepted_sublist (n d : Int) (log : List RateLimitEvent) :
    ((acceptedTimes key n d log).map unix).Sublist (queuedSeconds key log) := by
  refine sublist_queuedSeconds _ ?_ log
  intro e he
  rw [of_decide_eq_true he]
  rfl

theorem succeeded_sublist :
    ((succeededTimes key log).map unix).Sublist (queuedSeconds key log) := by
  refine sublist_queuedSeconds _ ?_ log
  intro e he
  rw [of_decide_eq_true he]
  rfl

/-! ## Windows -/

namespace RateLimitSystem

/-- The queue of the key is the end of its history, and what is missing is at least
`d` seconds old. -/
structure Windowed (s : RateLimitSystem) (key : String) (d : Int) : Prop where
  sorted : (queuedSeconds key s.log).Pairwise (· ≤ ·)
  past : ∀ t ∈ queuedSeconds key s.log, t ≤ unix s.clock
  active : ∀ e, s.limiter.entries.find key = some e → e.lastActive ≤ s.clock ∧
    ∀ t ∈ queuedSeconds key s.log, t ≤ unix e.lastActive
  kept : Kept d (unix s.clock) (queuedSeconds key s.log) (s.limiter.queue key)

variable {s s' : RateLimitSystem} {key : String} {d : Int}

theorem start_windowed (clock expirationDuration : Int) (key : String) (d : Int) :
    (start clock expirationDuration).Windowed key d where
  sorted := List.Pairwise.nil
  past := by simp [start, queuedSeconds]
  active e he := by cases he
  kept := .refl d _ []

theorem Windowed.of_same (h : s.Windowed key d) (hclock : s'.clock = s.clock)
    (hlog : queuedSeconds key s'.log = queuedSeconds key s.log)
    (hfind : s'.limiter.entries.find key = s.limiter.entries.find key) : s'.Windowed key d := by
  have hqueue : s'.limiter.queue key = s.limiter.queue key := by
    simp only [InMemoryRateLimiter.queue, hfind]
  refine ⟨?_, ?_, ?_, ?_⟩
  · rw [hlog]
    exact h.sorted
  · rw [hlog, hclock]
    exact h.past
  · rw [hlog, hclock, hfind]
    exact h.active
  · rw [hlog, hclock, hqueue]
    exact h.kept

/-- A call on some key, which may put the present second into its queue. -/
theorem Windowed.of_used (h : s.Windowed key d) {k : String} {requests : List Int}
    {events : List RateLimitEvent} (hclock : s'.clock = s.clock)
    (hevents : events = [] ∨ ∃ e : RateLimitEvent, events = [e] ∧ e.key = k ∧ e.time = s.clock)
    (hlog : s'.log = s.log ++ events)
    (hentries : s'.limiter.entries =
      (s.limiter.used k s.clock (requests ++ queuedSeconds k events)).entries)
    (hkept : k = key → Kept d (unix s.clock) (queuedSeconds key s.log) requests) :
    s'.Windowed key d := by
  have hlog' : queuedSeconds key s'.log = queuedSeconds key s.log ++ queuedSeconds key events := by
    rw [hlog, queuedSeconds_append]
  have hfind := s.limiter.find_used k s.clock (requests ++ queuedSeconds k events) key
  rw [← hentries] at hfind
  by_cases hk : k = key
  · subst hk
    rw [if_pos rfl] at hfind
    have hrest : queuedSeconds k events = [] ∨ queuedSeconds k events = [unix s.clock] := by
      rcases hevents with rfl | ⟨e, rfl, hkey, htime⟩
      · exact .inl rfl
      · exact .inr (by simp [queuedSeconds, hkey, htime])
    have hqueue : s'.limiter.queue k = requests ++ queuedSeconds k events := by
      simp only [InMemoryRateLimiter.queue, hfind, Option.map_some, Option.getD_some]
    have hpast : ∀ t ∈ queuedSeconds k s.log ++ queuedSeconds k events, t ≤ unix s.clock := by
      intro t ht
      rcases List.mem_append.mp ht with hold | hnew
      · exact h.past t hold
      rcases hrest with hnil | hone
      · rw [hnil] at hnew
        cases hnew
      · rw [hone] at hnew
        exact (List.mem_singleton.mp hnew).le
    refine ⟨?_, ?_, ?_, ?_⟩
    · rw [hlog']
      rcases hrest with hnil | hone
      · rw [hnil, List.append_nil]
        exact h.sorted
      rw [hone]
      refine List.pairwise_append.mpr ⟨h.sorted, List.pairwise_singleton _ _, ?_⟩
      intro t ht t' ht'
      rw [List.mem_singleton.mp ht']
      exact h.past t ht
    · rw [hlog', hclock]
      exact hpast
    · intro e he
      obtain rfl := Option.some.inj (hfind.symm.trans he)
      rw [hlog', hclock]
      exact ⟨le_refl _, hpast⟩
    · rw [hlog', hclock, hqueue]
      exact (hkept rfl).append _
  · rw [if_neg hk] at hfind
    refine h.of_same hclock ?_ hfind
    rcases hevents with rfl | ⟨e, rfl, hkey, -⟩
    · exact hlog'.trans (List.append_nil _)
    · rw [hlog']
      have hother : ¬e.key = key := hkey ▸ hk
      simp [queuedSeconds, hother]

theorem Windowed.pruned (h : s.Windowed key d) {k : String} {duration : Int}
    (hle : k = key → d ≤ duration) (hk : k = key) :
    Kept d (unix s.clock) (queuedSeconds key s.log)
      (removeExpired (unix s.clock) duration (s.limiter.queue k)) := by
  obtain rfl := hk.symm
  have hsorted : (s.limiter.queue key).Pairwise (· ≤ ·) := by
    obtain ⟨dropped, hlog, -⟩ := h.kept
    have hall := h.sorted
    rw [hlog] at hall
    exact (List.pairwise_append.mp hall).2.1
  obtain ⟨front, hsplit, hold⟩ := removeExpired_split (unix s.clock) duration hsorted
  have hkept := h.kept
  rw [hsplit] at hkept
  refine hkept.drop ?_
  intro t ht
  exact (hle rfl).trans (hold t ht)

end RateLimitSystem

theorem unix_mono {t t' : Int} (h : t ≤ t') : unix t ≤ unix t' := by
  simp only [unix]
  omega

variable {d : Int}

theorem unix_add_le {t t' : Int} (h : t + d * 1000000000 ≤ t') : unix t + d ≤ unix t' := by
  simp only [unix]
  omega

/-- Every call on the key has a window of at least `d` seconds. -/
def RateLimitAction.WindowsFor (key : String) (d : Int) : RateLimitAction → Prop
  | .request k _ duration | .reserve _ k _ duration => k = key → d ≤ duration
  | _ => True

/-- Idle keys are kept for `d` seconds. -/
def KeepsIdle (expirationDuration d : Int) : Prop :=
  expirationDuration ≤ 0 ∨ d * 1000000000 ≤ expirationDuration

namespace RateLimitSystem

variable {s : RateLimitSystem} {key : String} {d : Int}

theorem Windowed.tick (h : s.Windowed key d) (hidle : KeepsIdle s.limiter.expirationDuration d)
    (late : Nat) : (s.step (.tick late)).Windowed key d := by
  rcases InMemoryRateLimiter.find_deleteExpiredEntries s.limiter (s.clock - late) key with
    hsame | ⟨hnone, hpos, hexpired⟩
  · exact h.of_same rfl rfl hsame
  have hqueue : (s.limiter.deleteExpiredEntries (s.clock - late)).queue key = [] := by
    simp [InMemoryRateLimiter.queue, hnone]
  refine ⟨h.sorted, h.past, fun e he => ?_, ?_⟩
  · cases hnone.symm.trans he
  · show Kept d (unix s.clock) (queuedSeconds key s.log)
      ((s.limiter.deleteExpiredEntries (s.clock - late)).queue key)
    rw [hqueue]
    have hkept : Kept d (unix s.clock) (queuedSeconds key s.log) (s.limiter.queue key ++ []) := by
      rw [List.append_nil]
      exact h.kept
    refine hkept.drop ?_
    intro t ht
    cases hfind : s.limiter.entries.find key with
    | none =>
      rw [InMemoryRateLimiter.queue, hfind] at ht
      cases ht
    | some e =>
      -- everything in the queue is as old as the last use of the key
      obtain ⟨dropped, hlog, -⟩ := h.kept
      have hlast := (h.active e hfind).2 t (hlog ▸ List.mem_append_right dropped ht)
      have hold := hexpired e hfind
      have hlong : d * 1000000000 ≤ s.limiter.expirationDuration := hidle.resolve_left (by omega)
      have hwindow := unix_add_le (show e.lastActive + d * 1000000000 ≤ s.clock by omega)
      omega

theorem Windowed.step (h : s.Windowed key d) (hidle : KeepsIdle s.limiter.expirationDuration d)
    (a : RateLimitAction) (ha : a.WindowsFor key d) : (s.step a).Windowed key d := by
  cases a with
  | wait time =>
    have hclock : s.clock ≤ s.clock + time := by omega
    have hunix := unix_mono hclock
    refine ⟨h.sorted, fun t ht => (h.past t ht).trans hunix, fun e he => ?_, h.kept.later hunix⟩
    exact ⟨(h.active e he).1.trans hclock, (h.active e he).2⟩
  | init expirationDuration => exact h.of_same rfl rfl rfl
  | request k n duration =>
    rcases s.limiter.request_cases k n duration s.clock with ⟨-, hrequest⟩ | ⟨-, hrequest⟩ <;>
      simp only [RateLimitSystem.step, hrequest]
    · refine h.of_used rfl (.inr ⟨_, rfl, rfl, rfl⟩) rfl ?_ (h.pruned ha)
      simp [queuedSeconds, RateLimitEvent.key, RateLimitEvent.time]
    · exact h.of_used rfl (.inl rfl) (List.append_nil _).symm (by simp [queuedSeconds])
        (h.pruned ha)
  | reserve id k n duration =>
    simp only [RateLimitSystem.step]
    cases s.handed.insert ⟨id, k, false⟩ with
    | none => exact h
    | some handed =>
      have hentries : (s.limiter.used k s.clock (removeExpired (unix s.clock) duration
          (s.limiter.queue k))).entries = (s.limiter.used k s.clock (removeExpired
          (unix s.clock) duration (s.limiter.queue k) ++ queuedSeconds k [])).entries := by
        simp [queuedSeconds]
      rcases s.limiter.reserve_cases k n duration s.clock with ⟨-, hreserve⟩ | ⟨-, hreserve⟩ <;>
        simp only [hreserve]
      · exact h.of_used rfl (.inl rfl) (List.append_nil _).symm hentries (h.pruned ha)
      · exact h.of_used rfl (.inl rfl) (List.append_nil _).symm hentries (h.pruned ha)
  | complete id success =>
    simp only [RateLimitSystem.step]
    cases s.handed.find id with
    | none => exact h
    | some r =>
      dsimp only
      split
      · exact h
      cases success with
      | false => exact h.of_same rfl rfl rfl
      | true =>
        simp only [if_true, InMemoryRateLimiter.complete_success]
        have hkept : r.key = key → Kept d (unix s.clock) (queuedSeconds key s.log)
            (s.limiter.queue r.key) := by
          rintro rfl
          exact h.kept
        refine h.of_used rfl (.inr ⟨_, rfl, rfl, rfl⟩) rfl ?_ hkept
        simp [queuedSeconds, RateLimitEvent.key, RateLimitEvent.time]
        rfl
  | tick late => exact h.tick hidle late

end RateLimitSystem

/-! ## Requests -/

namespace RateLimitSystem

variable {s : RateLimitSystem} {key : String} {n : Nat} {d : Int}

/-- The idle time stays, and the history grows by an accepted request or a success. -/
theorem step_log (s : RateLimitSystem) (a : RateLimitAction) :
    (s.step a).limiter.expirationDuration = s.limiter.expirationDuration ∧
      ((s.step a).log = s.log ∨
        (∃ k m e, a = .request k m e ∧
          ((removeExpired (unix s.clock) e (s.limiter.queue k)).length : Int) < m ∧
          (s.step a).log = s.log ++ [.accepted k m e s.clock]) ∨
        ∃ id r, a = .complete id true ∧ s.handed.find id = some r ∧ r.completed = false ∧
          (s.step a).log = s.log ++ [.succeeded r.key s.clock]) := by
  cases a with
  | request k m e =>
    simp only [RateLimitSystem.step]
    rcases s.limiter.request_cases k m e s.clock with ⟨hroom, h⟩ | ⟨-, h⟩ <;> rw [h]
    · exact ⟨rfl, .inr (.inl ⟨k, m, e, rfl, hroom, rfl⟩)⟩
    · exact ⟨rfl, .inl rfl⟩
  | reserve id k m e =>
    simp only [RateLimitSystem.step]
    cases s.handed.insert ⟨id, k, false⟩ with
    | none => exact ⟨rfl, .inl rfl⟩
    | some handed =>
      rcases s.limiter.reserve_cases k m e s.clock with ⟨-, h⟩ | ⟨-, h⟩ <;> simp only [h] <;>
        exact ⟨rfl, .inl trivial⟩
  | complete id success =>
    simp only [RateLimitSystem.step]
    cases hfind : s.handed.find id with
    | none => exact ⟨rfl, .inl rfl⟩
    | some r =>
      dsimp only
      cases hdone : r.completed with
      | true => exact ⟨rfl, .inl rfl⟩
      | false =>
        cases success with
        | false => exact ⟨rfl, .inl rfl⟩
        | true => exact ⟨rfl, .inr (.inr ⟨id, r, rfl, hfind, hdone, rfl⟩)⟩
  | tick late =>
    simp only [RateLimitSystem.step, InMemoryRateLimiter.deleteExpiredEntries]
    split <;> exact ⟨rfl, .inl trivial⟩
  | _ => exact ⟨rfl, .inl rfl⟩

/-- The window of the key, and the accepted requests. -/
structure Limited (s : RateLimitSystem) (key : String) (n : Nat) (d : Int) : Prop where
  idle : KeepsIdle s.limiter.expirationDuration d
  windowed : s.Windowed key d
  spaced : Spaced d n ((acceptedTimes key n d s.log).map unix)

theorem Limited.step (h : s.Limited key n d) (a : RateLimitAction) (ha : a.WindowsFor key d) :
    (s.step a).Limited key n d := by
  obtain ⟨hduration, hsteps⟩ := s.step_log a
  refine ⟨hduration ▸ h.idle, h.windowed.step h.idle a ha, ?_⟩
  rcases hsteps with hsame | ⟨k, m, e, rfl, hroom, hlog⟩ | ⟨id, r, rfl, -, -, hlog⟩
  · rw [hsame]
    exact h.spaced
  · rw [hlog]
    by_cases hown : k = key ∧ m = n ∧ e = d
    · obtain ⟨rfl, rfl, rfl⟩ := hown
      have hone : acceptedTimes k n e [.accepted k n e s.clock] = [s.clock] := by
        simp [acceptedTimes, RateLimitEvent.time]
      rw [acceptedTimes_append, hone, List.map_append]
      exact h.spaced.push (accepted_sublist k n e s.log) h.windowed.sorted
        (h.windowed.pruned (fun _ => le_refl e) rfl) (by omega)
    · have hother : RateLimitEvent.accepted k m e s.clock ≠ .accepted key n d s.clock := by
        intro heq
        injection heq with hk hm he
        exact hown ⟨hk, hm, he⟩
      have hnone : acceptedTimes key n d [.accepted k m e s.clock] = [] := by
        rw [acceptedTimes, List.map_eq_nil_iff, List.filter_eq_nil_iff]
        intro event hevent
        rw [List.mem_singleton.mp hevent, decide_eq_true_iff]
        exact hother
      rw [acceptedTimes_append, hnone, List.append_nil]
      exact h.spaced
  · have hnone : acceptedTimes key n d [.succeeded r.key s.clock] = [] := by simp [acceptedTimes]
    rw [hlog, acceptedTimes_append, hnone, List.append_nil]
    exact h.spaced

end RateLimitSystem

/-! ## Reservations -/

/-- The key is used through `Reserve(key, n, d)` and `Complete`. -/
def RateLimitAction.ReservesFor (key : String) (n : Nat) (d : Int) : RateLimitAction → Prop
  | .request k _ _ => k ≠ key
  | .reserve _ k m e => k = key → m = n ∧ e = d
  | _ => True

theorem RateLimitAction.ReservesFor.windows {key : String} {n : Nat} {a : RateLimitAction}
    (h : a.ReservesFor key n d) : a.WindowsFor key d := by
  cases a with
  | request k m e => exact fun hk => absurd hk h
  | reserve id k m e => exact fun hk => (h hk).2.ge
  | _ => trivial

namespace RateLimitSystem

variable {s : RateLimitSystem} {key : String} {n : Nat} {d : Int}

/-- The reservations of a key that are not completed. -/
def inFlight (s : RateLimitSystem) (key : String) : Int :=
  (s.handed.rows.map fun r => if r.key = key ∧ r.completed = false then (1 : Int) else 0).sum

/-- The count of the limiter is right, and the queue and the reservations of the key
stay within the limit. -/
structure Reserved (s : RateLimitSystem) (key : String) (n : Nat) : Prop where
  count : s.limiter.reservations key = s.inFlight key
  room : (s.limiter.queue key).length + s.limiter.reservations key ≤ n

theorem queue_used (l : InMemoryRateLimiter) (k : String) (now : Int) (requests : List Int)
    (key : String) : (l.used k now requests).queue key =
      if k = key then requests else l.queue key := by
  simp only [InMemoryRateLimiter.queue, InMemoryRateLimiter.find_used]
  by_cases hk : k = key <;> simp [hk]

theorem queue_addReservations (l : InMemoryRateLimiter) (k key : String) (m : Int) :
    (l.addReservations k m).queue key = l.queue key := rfl

/-- A completion gives a place back, and a successful one takes it in the queue. -/
theorem Reserved.complete (h : s.Reserved key n) {id : Nat} {r : RateLimitReservation}
    (hfind : s.handed.find id = some r) (hdone : r.completed = false) (success : Bool)
    (log : List RateLimitEvent) :
    Reserved ⟨s.clock, s.limiter.complete r.key success s.clock,
      s.handed.save { r with completed := true }, log⟩ key n := by
  obtain rfl : r.id = id := Table.find_key hfind
  have hsum : inFlight ⟨s.clock, s.limiter.complete r.key success s.clock,
      s.handed.save { r with completed := true }, log⟩ key =
      s.inFlight key - if r.key = key then 1 else 0 := by
    have hsave := Table.sum_save (r := { r with completed := true })
      (fun r => if r.key = key ∧ r.completed = false then (1 : Int) else 0) hfind
    simp only [inFlight, hsave, hdone]
    simp
  have hcount : (s.limiter.complete r.key success s.clock).reservations key =
      s.limiter.reservations key - if r.key = key then 1 else 0 := by
    have hadd : (s.limiter.addReservations r.key (-1)).reservations key =
        s.limiter.reservations key - if r.key = key then 1 else 0 := by
      simp only [InMemoryRateLimiter.addReservations]
      by_cases hk : r.key = key
      · simp [hk, Int.sub_eq_add_neg]
      · simp [hk, Ne.symm hk]
    cases success with
    | false => exact hadd
    | true =>
      rw [InMemoryRateLimiter.complete_success]
      exact hadd
  have hqueue : (((s.limiter.complete r.key success s.clock).queue key).length : Int) ≤
      (s.limiter.queue key).length + if r.key = key then 1 else 0 := by
    cases success with
    | false =>
      show ((s.limiter.queue key).length : Int) ≤ _
      split <;> omega
    | true =>
      rw [InMemoryRateLimiter.complete_success, queue_used]
      split
      next hk => simp [hk]
      · simp [queue_addReservations]
  refine ⟨?_, ?_⟩
  · rw [hsum, ← h.count]
    exact hcount
  · have hroom := h.room
    show ((s.limiter.complete r.key success s.clock).queue key).length +
      (s.limiter.complete r.key success s.clock).reservations key ≤ (n : Int)
    rw [hcount]
    omega

theorem Reserved.step (h : s.Reserved key n) (a : RateLimitAction) (ha : a.ReservesFor key n d) :
    (s.step a).Reserved key n := by
  obtain ⟨hcount, hroom⟩ := h
  cases a with
  | request k m e =>
    rcases s.limiter.request_cases k m e s.clock with ⟨-, hrequest⟩ | ⟨-, hrequest⟩
    all_goals
      simp only [RateLimitSystem.step, hrequest]
      refine ⟨hcount, ?_⟩
      rw [queue_used, if_neg ha]
      exact hroom
  | reserve id k m e =>
    simp only [RateLimitSystem.step]
    cases hinsert : s.handed.insert ⟨id, k, false⟩ with
    | none => exact ⟨hcount, hroom⟩
    | some handed =>
      have hle := removeExpired_length_le (unix s.clock) e (s.limiter.queue k)
      have hlist : inFlight { s with handed := handed } key =
          (if k = key then 1 else 0) + s.inFlight key := by
        simp only [inFlight, Table.rows_insert hinsert, List.map_cons, List.sum_cons, and_true]
      rcases s.limiter.reserve_cases k m e s.clock with ⟨hfree, hreserve⟩ | ⟨-, hreserve⟩ <;>
        simp only [hreserve]
      · by_cases hk : k = key
        · subst hk
          obtain ⟨rfl, -⟩ := ha rfl
          rw [if_pos rfl] at hlist
          refine ⟨?_, ?_⟩
          · show (if k = k then s.limiter.reservations k + 1 else _) =
              inFlight { s with handed := handed } k
            rw [if_pos rfl, hlist]
            omega
          · show ((s.limiter.used k s.clock _).queue k).length +
              (if k = k then s.limiter.reservations k + 1 else _) ≤ (n : Int)
            rw [queue_used, if_pos rfl, if_pos rfl]
            omega
        · rw [if_neg hk, Int.zero_add] at hlist
          refine ⟨?_, ?_⟩
          · show (if key = k then _ else s.limiter.reservations key) =
              inFlight { s with handed := handed } key
            rw [if_neg (Ne.symm hk), hlist]
            exact hcount
          · show ((s.limiter.used k s.clock _).queue key).length +
              (if key = k then _ else s.limiter.reservations key) ≤ (n : Int)
            rw [queue_used, if_neg hk, if_neg (Ne.symm hk)]
            exact hroom
      · refine ⟨hcount, ?_⟩
        show ((s.limiter.used k s.clock _).queue key).length + s.limiter.reservations key ≤
          (n : Int)
        rw [queue_used]
        split
        next hk =>
          subst hk
          omega
        · exact hroom
  | complete id success =>
    simp only [RateLimitSystem.step]
    cases hfind : s.handed.find id with
    | none => exact ⟨hcount, hroom⟩
    | some r =>
      dsimp only
      cases hdone : r.completed with
      | true => exact ⟨hcount, hroom⟩
      | false => exact Reserved.complete ⟨hcount, hroom⟩ hfind hdone success _
  | tick late =>
    have hkeep : (s.limiter.deleteExpiredEntries (s.clock - late)).reservations =
        s.limiter.reservations := by
      simp only [InMemoryRateLimiter.deleteExpiredEntries]
      split <;> rfl
    refine ⟨(congrFun hkeep key).trans hcount, ?_⟩
    show ((s.limiter.deleteExpiredEntries (s.clock - late)).queue key).length +
      (s.limiter.deleteExpiredEntries (s.clock - late)).reservations key ≤ (n : Int)
    rw [hkeep]
    rcases s.limiter.find_deleteExpiredEntries (s.clock - late) key with hsame | ⟨hnone, -⟩
    · rw [InMemoryRateLimiter.queue, hsame]
      exact hroom
    · rw [InMemoryRateLimiter.queue, hnone]
      simp only [Option.map_none, Option.getD_none, List.length_nil]
      omega
  | _ => exact ⟨hcount, hroom⟩

theorem inFlight_nonneg (s : RateLimitSystem) (key : String) : 0 ≤ s.inFlight key := by
  refine List.sum_nonneg ?_
  intro x hx
  obtain ⟨r, -, rfl⟩ := List.mem_map.mp hx
  split <;> omega

/-- The window of the key, its reservations, and the successful completions. -/
structure Booked (s : RateLimitSystem) (key : String) (n : Nat) (d : Int) : Prop where
  idle : KeepsIdle s.limiter.expirationDuration d
  windowed : s.Windowed key d
  reserved : s.Reserved key n
  spaced : Spaced d n ((succeededTimes key s.log).map unix)

theorem Booked.step (h : s.Booked key n d) (a : RateLimitAction) (ha : a.ReservesFor key n d) :
    (s.step a).Booked key n d := by
  have hreserved := h.reserved.step a ha
  obtain ⟨hduration, hsteps⟩ := s.step_log a
  refine ⟨hduration ▸ h.idle, h.windowed.step h.idle a ha.windows, hreserved, ?_⟩
  rcases hsteps with hsame | ⟨k, m, e, rfl, -, hlog⟩ | ⟨id, r, rfl, hfind, hdone, hlog⟩
  · rw [hsame]
    exact h.spaced
  · have hnone : succeededTimes key [.accepted k m e s.clock] = [] := by simp [succeededTimes]
    rw [hlog, succeededTimes_append, hnone, List.append_nil]
    exact h.spaced
  by_cases hk : r.key = key
  · have hone : succeededTimes key [.succeeded r.key s.clock] = [s.clock] := by
      simp [succeededTimes, RateLimitEvent.time, hk]
    -- the completed reservation had a place of its own
    have hplace : (s.limiter.queue key).length < n := by
      have hroom := hreserved.room
      have hcount := hreserved.count
      have hnonneg := inFlight_nonneg (s.step (.complete id true)) key
      have hqueue : (s.step (.complete id true)).limiter.queue key =
          s.limiter.queue key ++ [unix s.clock] := by
        subst hk
        simp only [RateLimitSystem.step, hfind, hdone, InMemoryRateLimiter.complete_success]
        exact (queue_used _ _ _ _ _).trans (if_pos rfl)
      rw [hqueue, List.length_append, List.length_singleton] at hroom
      omega
    rw [hlog, succeededTimes_append, hone, List.map_append]
    exact h.spaced.push (succeeded_sublist key s.log) h.windowed.sorted h.windowed.kept hplace
  · have hnone : succeededTimes key [.succeeded r.key s.clock] = [] := by
      simp [succeededTimes, RateLimitEvent.time, hk]
    rw [hlog, succeededTimes_append, hnone, List.append_nil]
    exact h.spaced

/-- The successes that are younger than the window, and the reservations. -/
theorem Booked.young (h : s.Booked key n d) :
    ((((succeededTimes key s.log).map unix).filter fun t => unix s.clock - t < d).length : Int) +
      s.inFlight key ≤ n := by
  have hsub := ((succeeded_sublist key s.log).filter
    fun t => decide (unix s.clock - t < d)).length_le
  have hyoung := h.windowed.kept.length_young
  have hroom := h.reserved.room
  have hcount := h.reserved.count
  omega

theorem start_limited {clock expirationDuration : Int} (hidle : KeepsIdle expirationDuration d)
    (key : String) (n : Nat) : (start clock expirationDuration).Limited key n d :=
  ⟨hidle, start_windowed clock expirationDuration key d, .nil⟩

theorem start_booked {clock expirationDuration : Int} (hidle : KeepsIdle expirationDuration d)
    (key : String) (n : Nat) : (start clock expirationDuration).Booked key n d := by
  refine ⟨hidle, start_windowed clock expirationDuration key d, ⟨rfl, ?_⟩, .nil⟩
  show ((0 : Nat) : Int) + 0 ≤ n
  omega

end RateLimitSystem

/-! ## Runs -/

def wholeSeconds (times : List Int) : List Int := times.filter fun t => t % 1000000000 = 0

/-- At whole seconds the seconds of the queue are the time that passed. -/
theorem spaced_wholeSeconds {n : Nat} {times : List Int} (h : Spaced d n (times.map unix)) :
    Spaced (d * 1000000000) n (wholeSeconds times) := by
  intro w hw hlen first last hfirst hlast
  have hspan := h (w.map unix) ((hw.trans List.filter_sublist).map unix)
    (by rw [List.length_map, hlen]) (unix first) (unix last) (by rw [List.head?_map, hfirst]; rfl)
    (by rw [List.getLast?_map, hlast]; rfl)
  have hwhole : ∀ t ∈ w, t % 1000000000 = 0 := by
    intro t ht
    simpa using (List.mem_filter.mp (hw.subset ht)).2
  have hfirst' := hwhole first (List.mem_of_head? hfirst)
  have hlast' := hwhole last (List.mem_of_getLast? hlast)
  simp only [unix] at hspan
  omega

/-- In every run of the limiter, for every key, limit and window, if idle keys are kept
for the window: when the calls on the key have windows at least as long, any `n + 1`
accepted calls `Request(key, n, d)` span `d` seconds of the limiter's clock; when the key
is used through `Reserve(key, n, d)` and `Complete`, the successes younger than `d`
seconds and the reservations in flight stay within `n`, and any `n + 1` successful
completions span `d` seconds. Calls at whole seconds are apart by as much time. -/
theorem rate_limit_every_window (clock : Int) {expirationDuration : Int} (key : String) (n : Nat)
    {d : Int} (hidle : KeepsIdle expirationDuration d) (as : List RateLimitAction) :
    let s := run RateLimitSystem.step (.start clock expirationDuration) as
    ((∀ a ∈ as, a.WindowsFor key d) →
        Spaced d n ((acceptedTimes key n d s.log).map unix) ∧
          Spaced (d * 1000000000) n (wholeSeconds (acceptedTimes key n d s.log))) ∧
      ((∀ a ∈ as, a.ReservesFor key n d) →
        ((((succeededTimes key s.log).map unix).filter
            fun t => unix s.clock - t < d).length : Int) + s.inFlight key ≤ n ∧
          Spaced d n ((succeededTimes key s.log).map unix) ∧
          Spaced (d * 1000000000) n (wholeSeconds (succeededTimes key s.log))) := by
  refine ⟨fun hwindows => ?_, fun hreserves => ?_⟩
  · have hend : (run RateLimitSystem.step (.start clock expirationDuration) as).Limited key n d :=
      run_invariant (I := fun s : RateLimitSystem => s.Limited key n d)
        (C := fun _ a => RateLimitAction.WindowsFor key d a)
        (fun s a h ha => h.step a ha) (RateLimitSystem.start_limited hidle key n)
        (along_of_mem (fun a ha _ => hwindows a ha) _)
    exact ⟨hend.spaced, spaced_wholeSeconds hend.spaced⟩
  · have hend : (run RateLimitSystem.step (.start clock expirationDuration) as).Booked key n d :=
      run_invariant (I := fun s : RateLimitSystem => s.Booked key n d)
        (C := fun _ a => RateLimitAction.ReservesFor key n d a)
        (fun s a h ha => h.step a ha) (RateLimitSystem.start_booked hidle key n)
        (along_of_mem (fun a ha _ => hreserves a ha) _)
    exact ⟨hend.young, hend.spaced, spaced_wholeSeconds hend.spaced⟩

def second : Nat := 1000000000

/-- Two requests within the limit, and one more when the first has left the window. -/
def spacedRequests : List RateLimitAction :=
  [.request "MRRL1" 2 60, .wait (30 * second), .request "MRRL1" 2 60, .wait (30 * second), .tick 0,
    .request "MRRL1" 2 60]

theorem spacedRequests_spaced :
    acceptedTimes "MRRL1" 2 60
        (run RateLimitSystem.step (.start 0 (60 * second)) spacedRequests).log =
      [0, 30 * second, 60 * second] ∧
      Spaced 60 2 ((acceptedTimes "MRRL1" 2 60
        (run RateLimitSystem.step (.start 0 (60 * second)) spacedRequests).log).map unix) :=
  ⟨rfl, ((rate_limit_every_window 0 "MRRL1" 2 (.inr (by decide)) spacedRequests).1
    (by simp [spacedRequests, RateLimitAction.WindowsFor])).1⟩

/-- The first `Init` keeps idle keys for one minute, and the window is an hour: after
two minutes the key is dropped, and the next request is accepted. -/
def droppedRequests : List RateLimitAction :=
  [.request "MRRL1" 1 3600, .wait (120 * second), .tick 0, .request "MRRL1" 1 3600]

def droppedReservations : List RateLimitAction :=
  [.reserve 1 "MRRLS1" 1 3600, .complete 1 true, .wait (120 * second), .tick 0,
    .reserve 2 "MRRLS1" 1 3600, .complete 2 true]

/-- One request at the end of a second and one at the start of the next. -/
def neighbourRequests : List RateLimitAction :=
  [.wait 999000000, .request "MRRL1" 1 1, .wait 1000000, .request "MRRL1" 1 1]

theorem rate_limit_exceeded :
    acceptedTimes "MRRL1" 1 3600
        (run RateLimitSystem.step (.start 0 (60 * second)) droppedRequests).log =
      [0, 120 * second] ∧
    succeededTimes "MRRLS1"
        (run RateLimitSystem.step (.start 0 (60 * second)) droppedReservations).log =
      [0, 120 * second] ∧
    acceptedTimes "MRRL1" 1 1
        (run RateLimitSystem.step (.start 0 0) neighbourRequests).log =
      [999000000, 1000000000] :=
  ⟨rfl, rfl, rfl⟩

end NewApi
