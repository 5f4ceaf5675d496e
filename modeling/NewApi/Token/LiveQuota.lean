import NewApi.Token.QuotaCalls

/-!
# Edits keep the live quota of a token

Every request moves quota between the two fields of a store and leaves their sum alone; only
an edit changes the sum, in the row when it commits and in the hash when it is finished. So
while the generation is even the two sums agree, and what the script that finishes an edit
finds between them is the quota the edit has added.

The script computes with doubles. `Exact` bounds what it reads, and without it the quota of
an edit is rounded away.
-/

namespace NewApi.TokenQuota

open Runs

/-! ## The balance -/

/-- The sums of the row and of the hash. -/
structure Store.Balanced (s : Store) : Prop where
  rowEven : s.row.cacheGeneration % 2 = 0
  marker : s.generation = none → s.pending = none
  even : s.current % 2 = 0 → ∀ h ∈ s.hash, s.row.cacheGeneration ≤ s.current ∧ h.total = s.row.total
  /-- An edit is under way, and it is not committed yet or the hash does not have it. -/
  odd : s.current % 2 = 1 →
    s.row.cacheGeneration < s.current ∧ (∀ h ∈ s.hash, h.total = s.row.total) ∨
      s.row.cacheGeneration = s.current + 1 ∧ ∀ h ∈ s.hash, h.total + s.delta = s.row.total

/-- The row as it was read at some time. -/
structure Store.Seen (s : Store) (r : Row) : Prop where
  le : r.cacheGeneration ≤ s.row.cacheGeneration
  total : r.cacheGeneration = s.row.cacheGeneration → r.total = s.row.total

/-- The row as the holder of its lock has read it. -/
structure Store.Held (s : Store) (id : Nat) (r : Row) : Prop where
  lock : s.lock = some id
  generation : r.cacheGeneration = s.row.cacheGeneration
  total : r.total = s.row.total

/-- The edit that may commit: its generation is in Redis and the row is below it. -/
structure Store.Editing (s : Store) (id generation : Nat) : Prop where
  lock : s.lock = some id
  current : s.generation = some generation
  odd : generation % 2 = 1
  below : s.row.cacheGeneration < generation

def Stage.Sound (s : Store) (id : Nat) : Stage → Prop
  | .acrossFinish _ _ loaded expected => s.Seen loaded ∧ loaded.cacheGeneration = expected + 1
  | .recoverState _ _ loaded => s.Held id loaded
  | .recoverFinish _ _ loaded expected =>
    s.Held id loaded ∧ loaded.cacheGeneration = expected + 1
  | .recoverRestore _ _ loaded => s.Held id loaded
  | .recoverInit _ _ loaded _ => s.Held id loaded
  | .editBegin _ => s.lock = some id
  | .editCommit _ generation => s.Editing id generation
  | .editFinish stored generation => s.Seen stored ∧ stored.cacheGeneration = generation + 1
  | _ => True

/-- What a step of the call `id` leaves to the others. -/
structure Store.Leaves (id : Nat) (s t : Store) : Prop where
  generation : s.row.cacheGeneration ≤ t.row.cacheGeneration
  total : s.row.cacheGeneration = t.row.cacheGeneration → s.row.total = t.row.total
  lock : ∀ k, k ≠ id → s.lock = some k →
    t.lock = some k ∧ s.row.cacheGeneration = t.row.cacheGeneration
  editing : ∀ k g, k ≠ id → s.Editing k g → t.generation = some g

def Store.Finishes (s t : Store) : Prop :=
  s.current % 2 = 1 → t.current % 2 = 0 →
    ∀ h ∈ s.hash, ∃ n, t.hash = some ⟨h.remainQuota + s.delta, h.usedQuota, n⟩

/-- A step of a call: the balance, what it leaves to the others and how it finishes. -/
structure Store.Moves (id : Nat) (s t : Store) : Prop where
  balanced : t.Balanced
  leaves : s.Leaves id t
  finishes : s.Finishes t

namespace Store

variable {s t : Store} {id : Nat}

/-- The holder of the lock leaves the row, and nobody else edits. -/
theorem Leaves.of_lock (hlock : s.lock = some id) (hrow : t.row = s.row := by rfl)
    (hkeep : t.lock = s.lock := by rfl) : s.Leaves id t where
  generation := by rw [hrow]
  total _ := by rw [hrow]
  lock k _ hl := ⟨hkeep.trans hl, by rw [hrow]⟩
  editing k _ hk he := absurd (Option.some.inj (he.lock.symm.trans hlock)) hk

theorem Balanced.congr (h : s.Balanced) (hg : t.generation = s.generation)
    (hp : t.pending = s.pending ∨ t.pending = none) (hh : t.hash = s.hash) (hr : t.row = s.row)
    (hd : t.delta = s.delta) : t.Balanced := by
  have hc : t.current = s.current := by rw [current, current, hg]
  have hm : t.generation = none → t.pending = none := by
    intro hn
    rcases hp with hp | hp
    · rw [hp]
      exact h.marker (hg ▸ hn)
    · exact hp
  exact ⟨by rw [hr]; exact h.rowEven, hm, by rw [hc, hh, hr]; exact h.even,
    by rw [hc, hh, hr, hd]; exact h.odd⟩

/-- The step leaves Redis and the row as they are, but for the lock of the call. -/
theorem Balanced.idle (h : s.Balanced) (hg : t.generation = s.generation)
    (hp : t.pending = s.pending ∨ t.pending = none) (hh : t.hash = s.hash)
    (hr : t.row = s.row) (hd : t.delta = s.delta)
    (hl : ∀ k, k ≠ id → s.lock = some k → t.lock = some k) : s.Moves id t where
  balanced := h.congr hg hp hh hr hd
  leaves := by
    refine ⟨by rw [hr], fun _ => by rw [hr], fun k hk hlock => ⟨hl k hk hlock, by rw [hr]⟩, ?_⟩
    intro k g _ he
    rw [hg]
    exact he.current
  finishes hodd heven := by
    have hc : t.current = s.current := by rw [current, current, hg]
    omega

theorem Balanced.stay (h : s.Balanced) : s.Moves id s :=
  h.idle rfl (.inl rfl) rfl rfl rfl fun _ _ hl => hl

theorem release_lock {k : Nat} (hk : k ≠ id) (hl : s.lock = some k) :
    (s.release id).lock = some k := by
  unfold release
  split
  next hid =>
    rw [hl] at hid
    exact absurd (Option.some.inj hid) hk
  · exact hl

theorem release_eq : (s.release id).generation = s.generation ∧
    (s.release id).pending = s.pending ∧ (s.release id).hash = s.hash ∧
    (s.release id).row = s.row ∧ (s.release id).delta = s.delta := by
  unfold release
  split <;> exact ⟨rfl, rfl, rfl, rfl, rfl⟩

theorem Moves.release {t : Store} (h : s.Moves id t) : s.Moves id (t.release id) := by
  obtain ⟨hg, hp, hh, hr, hd⟩ := @release_eq t id
  refine ⟨h.balanced.congr hg (.inl hp) hh hr hd,
    ⟨?_, ?_, fun k hk hl => ⟨?_, ?_⟩, fun k g hk he => ?_⟩, ?_⟩
  · rw [hr]
    exact h.leaves.generation
  · rw [hr]
    exact h.leaves.total
  · exact release_lock hk (h.leaves.lock k hk hl).1
  · rw [hr]
    exact (h.leaves.lock k hk hl).2
  · rw [hg]
    exact h.leaves.editing k g hk he
  · unfold Finishes current
    rw [hg, hh]
    exact h.finishes

/-! ## Quota changes -/

section

variable (h : s.Balanced)

include h

theorem Balanced.hash {hash : Option Hash} (hsum : ∀ x ∈ hash, ∃ y ∈ s.hash, x.total = y.total) :
    s.Moves id { s with hash := hash } where
  balanced := by
    refine ⟨h.rowEven, h.marker, fun he x hx => ?_, fun ho => ?_⟩
    · obtain ⟨y, hy, hxy⟩ := hsum x hx
      exact ⟨(h.even he y hy).1, hxy.trans (h.even he y hy).2⟩
    · rcases h.odd ho with ⟨hbelow, hold⟩ | ⟨habove, hnew⟩
      · refine .inl ⟨hbelow, fun x hx => ?_⟩
        obtain ⟨y, hy, hxy⟩ := hsum x hx
        exact hxy.trans (hold y hy)
      refine .inr ⟨habove, fun x hx => ?_⟩
      obtain ⟨y, hy, hxy⟩ := hsum x hx
      rw [hxy]
      exact hnew y hy
  leaves := ⟨le_rfl, fun _ => rfl, fun _ _ hl => ⟨hl, rfl⟩, fun _ _ _ he => he.current⟩
  finishes hodd heven := by
    have : s.current % 2 = 0 := heven
    omega

theorem Balanced.cacheTryReserve (quota : Int) :
    s.Moves id (s.cacheTryReserveTokenQuota quota).2 := by
  unfold cacheTryReserveTokenQuota
  split
  · exact h.stay
  next x hx =>
  split
  · exact h.stay
  refine h.hash fun y hy => ⟨x, hx, ?_⟩
  cases hy
  simp only [Hash.total]
  omega

theorem Balanced.cacheApply (delta : Int) : s.Moves id (s.cacheApplyTokenQuotaDelta delta) := by
  refine h.hash fun y hy => ?_
  obtain ⟨x, hx, rfl⟩ := Option.mem_map.mp hy
  refine ⟨x, hx, ?_⟩
  simp only [Hash.total]
  omega

/-- A statement moves quota in the row, which no other transaction holds. -/
theorem Balanced.addTokenQuota (hfree : s.blocked id = false) (delta : Int) :
    s.Moves id (s.addTokenQuota delta) := by
  have htotal : (s.addTokenQuota delta).row.total = s.row.total := by
    simp only [Store.addTokenQuota, Row.total]
    omega
  have hunheld : ∀ k, k ≠ id → s.lock ≠ some k := by
    intro k hk hl
    simp [blocked, hl, hk] at hfree
  refine ⟨⟨h.rowEven, h.marker, fun he x hx => ?_, fun ho => ?_⟩, ⟨le_rfl, fun _ => htotal.symm,
    fun k hk hl => absurd hl (hunheld k hk), fun k g hk he => absurd he.lock (hunheld k hk)⟩,
    fun hodd heven => ?_⟩
  · rw [htotal]
    exact h.even he x hx
  · rw [htotal]
    exact h.odd ho
  · have : s.current % 2 = 0 := heven
    omega

/-! ## Edits -/

theorem Balanced.take (hfree : s.blocked id = false) : s.Moves id { s with lock := some id } := by
  refine h.idle rfl (.inl rfl) rfl rfl rfl fun k hk hl => ?_
  simp [blocked, hl, hk] at hfree

theorem Balanced.begin (hlock : s.lock = some id) {g : Nat}
    (hg : s.beginTokenCacheMutation s.row.cacheGeneration =
      (some g, { s with generation := some g, pending := some g })) :
    s.Moves id { s with generation := some g, pending := some g } ∧
      { s with generation := some g, pending := some g }.Editing id g := by
  unfold beginTokenCacheMutation at hg
  split at hg
  · cases hg
  next hfree =>
  have heven : s.current % 2 = 0 := by
    simp only [not_or, not_not] at hfree
    exact hfree.1
  have hgen : max s.current s.row.cacheGeneration + 1 = g := by
    simpa using congrArg Prod.fst hg
  have hrow := h.rowEven
  have hodd : g % 2 = 1 := by omega
  have hbelow : s.row.cacheGeneration < g := by omega
  refine ⟨⟨⟨hrow, fun hn => (by cases hn), fun he => ?_,
      fun _ => .inl ⟨hbelow, fun x hx => (h.even heven x hx).2⟩⟩,
    .of_lock hlock, fun ho => ?_⟩, ⟨hlock, rfl, hodd, hbelow⟩⟩
  · have : g % 2 = 0 := he
    omega
  · omega

theorem Balanced.commitEdit {g : Nat} (he : s.Editing id g) (delta : Int) :
    s.Moves id (s.commitEdit delta (g + 1)) := by
  obtain ⟨hlock, hcurrent, hodd, hbelow⟩ := he
  have hg : s.current = g := by rw [current, hcurrent]; rfl
  have hunheld : ∀ k, k ≠ id → s.lock ≠ some k := by
    intro k hk hl
    exact hk (Option.some.inj (hl.symm.trans hlock))
  have hsum : ∀ x ∈ s.hash, x.total = s.row.total := by
    rcases h.odd (by omega) with ⟨-, hold⟩ | ⟨habove, -⟩
    · exact hold
    · omega
  refine ⟨⟨?_, h.marker, fun heven => ?_, fun _ => .inr ⟨?_, fun x hx => ?_⟩⟩,
    ⟨?_, fun hsame => ?_, fun k hk hl => absurd hl (hunheld k hk),
      fun k g' hk he => absurd he.lock (hunheld k hk)⟩, fun _ heven => ?_⟩
  · show (g + 1) % 2 = 0
    omega
  · have : s.current % 2 = 0 := heven
    omega
  · show g + 1 = s.current + 1
    omega
  · have := hsum x hx
    simp only [Store.commitEdit, Row.total] at this ⊢
    omega
  · show s.row.cacheGeneration ≤ g + 1
    omega
  · have : s.row.cacheGeneration = g + 1 := hsame
    omega
  · have : s.current % 2 = 0 := heven
    omega

end

/-! ## The script that finishes an edit -/

/-- The integer is a double with all its neighbours. -/
def Fits (n : Int) : Prop := -2 ^ 53 < n ∧ n < 2 ^ 53

instance (n : Int) : Decidable (Fits n) := inferInstanceAs (Decidable (_ ∧ _))

theorem Fits.ofInt {n : Int} (h : Fits n) : Double.ofInt n = n := Double.ofInt_of_lt h.1 h.2

/-- The script reads no quota and computes no sum that is not a double. -/
structure Exact (token : Row) (h : Hash) : Prop where
  tokenRemain : Fits token.remainQuota
  tokenUsed : Fits token.usedQuota
  tokenTotal : Fits token.total
  hashRemain : Fits h.remainQuota
  hashUsed : Fits h.usedQuota
  hashTotal : Fits h.total
  difference : Fits (token.total - h.total)

instance (token : Row) (h : Hash) : Decidable (Exact token h) :=
  decidable_of_iff (Fits token.remainQuota ∧ Fits token.usedQuota ∧ Fits token.total ∧
      Fits h.remainQuota ∧ Fits h.usedQuota ∧ Fits h.total ∧ Fits (token.total - h.total))
    ⟨fun ⟨a, b, c, d, e, f, g⟩ => ⟨a, b, c, d, e, f, g⟩,
      fun ⟨a, b, c, d, e, f, g⟩ => ⟨a, b, c, d, e, f, g⟩⟩

theorem Exact.quotaDelta_eq {token : Row} {h : Hash} (he : Exact token h) :
    quotaDelta token h = token.total - h.total := by
  have htoken := he.tokenTotal.ofInt
  have hhash := he.hashTotal.ofInt
  simp only [Row.total, Hash.total] at htoken hhash
  rw [quotaDelta, he.tokenRemain.ofInt, he.tokenUsed.ofInt, he.hashRemain.ofInt,
    he.hashUsed.ofInt, htoken, hhash]
  exact he.difference.ofInt

/-- A script with a row of the edit's generation finishes the edit, or does nothing. -/
theorem Balanced.commit (h : s.Balanced) {token : Row} {g : Nat} (hseen : s.Seen token)
    (hgen : token.cacheGeneration = g + 1) (hexact : ∀ x ∈ s.hash, Exact token x) :
    s.Moves id (s.commitTokenCacheMutation token g).2 := by
  unfold commitTokenCacheMutation
  split
  · exact h.stay
  next hmarked =>
  cases hcurrent : s.generation with
  | none => exact absurd ⟨hcurrent, by simp [h.marker hcurrent]⟩ hmarked
  | some c =>
    have hc : s.current = c := by rw [current, hcurrent]; rfl
    -- the script writes the generation it has found
    have hsame : s.Moves id { s with generation := some c } :=
      h.idle hcurrent.symm (.inl rfl) rfl rfl rfl fun _ _ hl => hl
    dsimp only [Option.getD_some]
    split
    · exact hsame
    split
    · exact hsame
    next hlater hown =>
    have hcg : c = g ∧ c % 2 ≠ 0 := by
      simp only [not_or, not_not, current, Option.getD_some] at hown
      exact hown
    obtain ⟨rfl, hodd⟩ := hcg
    have hle := hseen.le
    -- the row has the generation of the edit, so the edit is committed
    obtain ⟨habove, hsum⟩ : s.row.cacheGeneration = s.current + 1 ∧
        ∀ x ∈ s.hash, x.total + s.delta = s.row.total := by
      rcases h.odd (by omega) with ⟨hbelow, -⟩ | hcommitted
      · omega
      · exact hcommitted
    have htotal := hseen.total (by omega)
    have hdelta : ∀ x ∈ s.hash, quotaDelta token x = s.delta := by
      intro x hx
      have := hsum x hx
      rw [(hexact x hx).quotaDelta_eq]
      omega
    refine ⟨⟨h.rowEven, fun hn => (by cases hn), fun _ x hx => ?_, fun hodd' => ?_⟩,
      ⟨le_rfl, fun _ => rfl, fun _ _ hl => ⟨hl, rfl⟩, fun k g' _ he => ?_⟩, fun _ _ x hx => ?_⟩
    · obtain ⟨y, hy, rfl⟩ := Option.mem_map.mp hx
      have := hsum y hy
      refine ⟨by show s.row.cacheGeneration ≤ c + 1; omega, ?_⟩
      simp only [Hash.total, hdelta y hy] at this ⊢
      omega
    · have : (c + 1) % 2 = 1 := hodd'
      omega
    · have hg' : c = g' := Option.some.inj (hcurrent.symm.trans he.current)
      have := he.below
      omega
    · refine ⟨c + 1, ?_⟩
      rw [show s.hash = some x from hx]
      simp only [Option.map_some, hdelta x hx]

/-! ## Recovery from the database -/

theorem Balanced.restore (h : s.Balanced) {loaded : Row} (hheld : s.Held id loaded) :
    s.Moves id (s.restoreTokenCacheGeneration loaded.cacheGeneration).2 := by
  unfold restoreTokenCacheGeneration
  split
  · exact h.stay
  next hcold =>
  simp only [not_or, Bool.not_eq_true, Option.isSome_eq_false_iff, Option.isNone_iff_eq_none]
    at hcold
  split
  · exact h.stay
  next hfree =>
  have hrow := h.rowEven
  have hgen := hheld.generation
  have heven : s.current % 2 = 0 := by
    cases hg : s.generation with
    | none => simp [current, hg]
    | some c =>
      simp only [hg, Option.isSome_some, true_and, not_or, not_not] at hfree
      exact hfree.1
  refine ⟨⟨hrow, fun hn => (by cases hn), fun _ x hx => ?_, fun hodd => ?_⟩,
    .of_lock hheld.lock, fun hodd => ?_⟩
  · rw [show s.hash = none from hcold.2] at hx
    cases hx
  · have : loaded.cacheGeneration % 2 = 1 := hodd
    omega
  · omega

theorem Balanced.init (h : s.Balanced) {loaded : Row} {expected : Nat}
    (hheld : s.Held id loaded) : s.Moves id (s.cacheInitToken loaded expected).2 := by
  unfold cacheInitToken
  split
  · exact h.stay
  next hdatabase =>
  split
  · exact h.stay
  next hstable =>
  simp only [not_or, not_not, Bool.not_eq_true, Option.isSome_eq_false_iff,
    Option.isNone_iff_eq_none] at hstable
  obtain ⟨rfl, heven, hpending⟩ := hstable
  have hgen := hheld.generation
  split
  next x hx =>
    split
    · exact h.stay
    refine ⟨⟨h.rowEven, fun _ => hpending, fun _ => h.even heven, fun hodd => ?_⟩,
      .of_lock hheld.lock, fun hodd => ?_⟩
    · have : s.current % 2 = 1 := hodd
      omega
    · omega
  next hnone =>
    refine ⟨⟨h.rowEven, fun _ => hpending, fun _ x hx => ?_, fun hodd => ?_⟩,
      .of_lock hheld.lock, fun hodd => ?_⟩
    · cases hx
      exact ⟨by show s.row.cacheGeneration ≤ s.current; omega, hheld.total⟩
    · have : s.current % 2 = 1 := hodd
      omega
    · omega

end Store

/-! ## One step of a call -/

section Steps

variable {s t : Store} {id k : Nat} {stage : Stage}

/-- What a call has read stays good when another call takes a step. -/
theorem Stage.Sound.leaves (h : stage.Sound s k) (hl : s.Leaves id t) (hk : k ≠ id) :
    stage.Sound t k := by
  have hseen : ∀ r, s.Seen r → t.Seen r := by
    intro r hr
    refine ⟨hr.le.trans hl.generation, fun he => ?_⟩
    have hle := hr.le
    have hgen := hl.generation
    exact (hr.total (by omega)).trans (hl.total (by omega))
  have hheld : ∀ r, s.Held k r → t.Held k r := by
    intro r hr
    obtain ⟨hlock, hgen⟩ := hl.lock k hk hr.lock
    exact ⟨hlock, hr.generation.trans hgen, hr.total.trans (hl.total hgen)⟩
  cases stage with
  | acrossFinish | editFinish => exact ⟨hseen _ h.1, h.2⟩
  | recoverState | recoverRestore | recoverInit => exact hheld _ h
  | recoverFinish => exact ⟨hheld _ h.1, h.2⟩
  | editBegin => exact (hl.lock k hk h).1
  | editCommit delta g =>
    obtain ⟨hlock, hgen⟩ := hl.lock k hk h.lock
    exact ⟨hlock, hl.editing k g hk h, h.odd, hgen ▸ h.below⟩
  | _ => trivial

theorem Reader.found_sound (reader : Reader) : reader.found.Sound s id := by
  cases reader <;> trivial

theorem Reader.missed_sound (reader : Reader) : reader.missed.Sound s id := by
  cases reader <;> trivial

/-- The row a stage is about to finish an edit with. -/
def Stage.finishing : Stage → Option Row
  | .acrossFinish _ _ loaded _ => some loaded
  | .recoverFinish _ _ loaded _ => some loaded
  | .editFinish stored _ => some stored
  | _ => none

theorem Store.Held.seen {r : Row} (h : s.Held id r) : s.Seen r :=
  ⟨h.generation.le, fun _ => h.total⟩

theorem Store.held_lock : { s with lock := some id }.Held id s.row := ⟨rfl, rfl, rfl⟩

/-- A step of the call is good, and so is what it does next. -/
structure Steps (id : Nat) (s : Store) (next : Store × Stage) : Prop where
  moves : s.Moves id next.1
  sound : next.2.Sound next.1 id

theorem Stage.background_steps (hb : s.Balanced) (hs : stage.Sound s id) :
    Steps id s (stage.background s) := by
  unfold Stage.background
  split
  next delta foreground =>
    refine ⟨hb.cacheApply delta, ?_⟩
    cases foreground <;> trivial
  · exact ⟨hb.stay, hs⟩

/-- The two reservations in the hash, with what comes after a miss. -/
theorem reserve_steps (hb : s.Balanced) (quota : Int) {missed : Stage}
    (hm : ∀ t, missed.Sound t id) :
    Steps id s (match s.cacheTryReserveTokenQuota quota with
      | (.ok, s') => (s', .persist (-quota))
      | (.insufficient, s') => (s', .returned false)
      | (.miss, s') => (s', missed)) := by
  have hmoves := @Store.Balanced.cacheTryReserve s id hb quota
  generalize s.cacheTryReserveTokenQuota quota = result at hmoves
  obtain ⟨code, t⟩ := result
  cases code with
  | ok | insufficient => exact ⟨hmoves, trivial⟩
  | miss => exact ⟨hmoves, hm t⟩

/-- A script that finishes an edit, with what comes after either answer. -/
theorem commit_steps {done refused : Stage} (hd : ∀ t, done.Sound t id)
    (hr : ∀ t, refused.Sound t id) {result : Bool × Store} :
    s.Moves id result.2 →
    Steps id s (match result with
      | (true, s') => (s', done)
      | (false, s') => (s'.release id, refused)) := by
  intro hm
  obtain ⟨ok, t⟩ := result
  cases ok with
  | true => exact ⟨hm, hd t⟩
  | false => exact ⟨hm.release, hr _⟩

theorem Stage.advance_steps {batch : Bool} (hb : s.Balanced) (hs : stage.Sound s id)
    (hexact : ∀ token ∈ stage.finishing, ∀ h ∈ s.hash, Store.Exact token h) :
    Steps id s (stage.advance batch id s) := by
  have hquiet : ∀ b : Int, s.Moves id { s with batch := b } := fun b =>
    hb.idle rfl (.inl rfl) rfl rfl rfl fun _ _ hl => hl
  cases stage with try simp only [Stage.advance]
  | reserve quota | reserveAgain quota => exact reserve_steps hb quota fun _ => trivial
  | reserveDB quota =>
    split
    · exact ⟨hb.stay, trivial⟩
    next hopen =>
    split
    · exact ⟨hb.addTokenQuota (by simpa using hopen) _, trivial⟩
    · exact ⟨hb.stay, trivial⟩
  | persist delta =>
    split
    · exact ⟨hquiet _, trivial⟩
    split
    · exact ⟨hb.stay, trivial⟩
    next hopen => exact ⟨hb.addTokenQuota (by simpa using hopen) _, trivial⟩
  | change delta background foreground =>
    cases foreground with
    | false => exact ⟨hb.stay, trivial⟩
    | true =>
      dsimp only
      split
      · exact ⟨hquiet _, by cases background <;> trivial⟩
      split
      · exact ⟨hb.stay, trivial⟩
      next hopen =>
        exact ⟨hb.addTokenQuota (by simpa using hopen) _, by cases background <;> trivial⟩
  | across reader attempts =>
    cases attempts with
    | zero => exact ⟨hb.stay, reader.missed_sound⟩
    | succ attempts => exact ⟨hb.stay, trivial⟩
  | acrossRow reader attempts expected marked =>
    split
    · exact ⟨hb.stay, reader.missed_sound⟩
    split
    · split
      next hgen => exact ⟨hb.stay, ⟨le_rfl, fun _ => rfl⟩, hgen⟩
      · exact ⟨hb.stay, reader.missed_sound⟩
    · exact ⟨hb.stay, trivial⟩
  | acrossFinish reader attempts loaded expected =>
    have hm := @Store.Balanced.commit s id hb loaded expected hs.1 hs.2 (hexact loaded rfl)
    generalize s.commitTokenCacheMutation loaded expected = result at hm
    obtain ⟨ok, t⟩ := result
    cases ok with
    | true => exact ⟨hm, trivial⟩
    | false => exact ⟨hm, reader.missed_sound⟩
  | recover reader attempts =>
    cases attempts with
    | zero => exact ⟨hb.stay.release, reader.missed_sound⟩
    | succ attempts =>
      dsimp only
      split
      · exact ⟨hb.stay, trivial⟩
      next hopen => exact ⟨hb.take (by simpa using hopen), Store.held_lock⟩
  | recoverState reader attempts loaded =>
    split
    · exact ⟨hb.stay.release, reader.missed_sound⟩
    split
    · split
      next hgen => exact ⟨hb.stay, hs, hgen⟩
      · exact ⟨hb.stay.release, reader.missed_sound⟩
    split <;> exact ⟨hb.stay, hs⟩
  | recoverFinish reader attempts loaded expected =>
    exact @commit_steps s id (.recover reader attempts) _ (fun _ => trivial)
      (fun _ => reader.missed_sound) _ (hb.commit hs.1.seen hs.2 (hexact loaded rfl))
  | recoverRestore reader attempts loaded =>
    exact @commit_steps s id (.recover reader attempts) _ (fun _ => trivial)
      (fun _ => reader.missed_sound) _ (hb.restore hs)
  | recoverInit reader attempts loaded expected =>
    split
    · exact ⟨hb.stay.release, reader.missed_sound⟩
    have hm := @Store.Balanced.init s id hb loaded expected hs
    generalize s.cacheInitToken loaded expected = result at hm
    obtain ⟨code, t⟩ := result
    match code with
    | some true | some false | none => exact ⟨hm, trivial⟩
  | recoverBefore reader | recoverAfter reader generation hash =>
    split
    · exact ⟨hb.stay.release, reader.missed_sound⟩
    · exact ⟨hb.stay, trivial⟩
  | recoverHash reader generation =>
    split
    · exact ⟨hb.stay, trivial⟩
    · exact ⟨hb.stay.release, reader.missed_sound⟩
  | recovered reader => exact ⟨hb.stay.release, reader.found_sound⟩
  | edit delta =>
    split
    · exact ⟨hb.stay, trivial⟩
    next hopen =>
      have hnone : s.lock = none := by simpa using hopen
      exact ⟨hb.take (by simp [Store.blocked, hnone]), rfl⟩
  | editBegin delta =>
    split
    · exact ⟨hb.stay.release, trivial⟩
    split
    next g t hbegin =>
      obtain rfl : t = { s with generation := some g, pending := some g } := by
        unfold Store.beginTokenCacheMutation at hbegin
        split at hbegin
        · cases hbegin
        · cases hbegin
          rfl
      obtain ⟨hm, hediting⟩ := hb.begin hs hbegin
      exact ⟨hm, hediting⟩
    next t hbegin =>
      obtain rfl : s = t := by
        unfold Store.beginTokenCacheMutation at hbegin
        split at hbegin
        · cases hbegin
          rfl
        · cases hbegin
      exact ⟨hb.stay.release, trivial⟩
  | editCommit delta g => exact ⟨hb.commitEdit hs delta, trivial⟩
  | editReload g =>
    split
    next hgen => exact ⟨hb.stay, ⟨le_rfl, fun _ => rfl⟩, hgen⟩
    · exact ⟨hb.stay, trivial⟩
  | editFinish stored g =>
    exact ⟨hb.commit hs.1 hs.2 (hexact stored rfl), trivial⟩
  | flush => exact ⟨hquiet 0, trivial⟩
  | flushing delta =>
    split
    · exact ⟨hb.stay, trivial⟩
    next hopen => exact ⟨hb.addTokenQuota (by simpa using hopen) _, trivial⟩
  | returned ok => exact ⟨hb.stay, trivial⟩

end Steps

/-! ## Runs -/

/-- What holds in every state of a run. -/
structure System.Sound (s : System) : Prop where
  balanced : s.store.Balanced
  calls : ∀ call ∈ s.calls.rows, call.stage.Sound s.store call.id

/-- If the action finishes an edit, the script computes exactly. -/
def System.Exact (s : System) : Action → Prop
  | .step id => ∀ call ∈ s.calls.find id, ∀ token ∈ call.stage.finishing,
    ∀ h ∈ s.store.hash, Store.Exact token h
  | _ => True

instance (s : System) : (a : Action) → Decidable (s.Exact a)
  | .step id => inferInstanceAs (Decidable (∀ call ∈ s.calls.find id, _))
  | .call _ _ => isTrue trivial
  | .background _ => isTrue trivial
  | .expireHash => isTrue trivial
  | .expireMarker => isTrue trivial

section Runs

variable {s : System} {batch : Bool}

theorem System.Sound.move (h : s.Sound) {id : Nat} {next : Store × Stage}
    (hn : Steps id s.store next) : (s.move id next).Sound := by
  refine ⟨hn.moves.balanced, Table.forall_save hn.sound ?_⟩
  exact fun call hold hne => (h.calls call hold).leaves hn.moves.leaves hne

theorem System.Sound.expire (h : s.Sound) {t : Store} (hm : ∀ id, s.store.Moves id t) :
    ({ s with store := t } : System).Sound := by
  refine ⟨(hm 0).balanced, fun call hcall => ?_⟩
  exact (h.calls call hcall).leaves (hm (call.id + 1)).leaves (Nat.ne_of_lt (Nat.lt_succ_self _))

theorem Job.stage_sound (job : Job) (t : Store) (id : Nat) : job.stage.Sound t id := by
  cases job with
  | tryReserveTokenQuota quota unlimited =>
    simp only [Job.stage]
    split
    · trivial
    split <;> trivial
  | _ => trivial

/-- One action keeps the balance, and finishes an edit with exactly its quota. -/
theorem System.Sound.step (h : s.Sound) (a : Action) (ha : s.Exact a) :
    (s.step batch a).Sound ∧ s.store.Finishes (s.step batch a).store := by
  have hstay : s.store.Finishes s.store := (@Store.Balanced.stay s.store 0 h.balanced).finishes
  cases a with simp only [System.step]
  | call id job =>
    split
    next calls hins =>
      refine ⟨⟨h.balanced, ?_⟩, hstay⟩
      exact Table.forall_insert hins (job.stage_sound s.store id) h.calls
    · exact ⟨h, hstay⟩
  | step id =>
    split
    next call hfind =>
      have hs := h.calls call (Table.find_mem hfind)
      rw [Table.find_key hfind] at hs
      have hn : Steps id s.store (call.stage.advance batch id s.store) :=
        Stage.advance_steps h.balanced hs (ha call hfind)
      exact ⟨h.move hn, hn.moves.finishes⟩
    · exact ⟨h, hstay⟩
  | background id =>
    split
    next call hfind =>
      have hs := h.calls call (Table.find_mem hfind)
      rw [Table.find_key hfind] at hs
      have hn := Stage.background_steps h.balanced hs
      exact ⟨h.move hn, hn.moves.finishes⟩
    · exact ⟨h, hstay⟩
  | expireHash =>
    have hm : ∀ id, s.store.Moves id { s.store with hash := none } := fun id =>
      h.balanced.hash fun x hx => by cases hx
    exact ⟨h.expire hm, (hm 0).finishes⟩
  | expireMarker =>
    have hm : ∀ id, s.store.Moves id { s.store with pending := none } := fun id =>
      h.balanced.idle rfl (.inr rfl) rfl rfl rfl fun _ _ hl => hl
    exact ⟨h.expire hm, (hm 0).finishes⟩

end Runs

/-- Nothing is going on: no call, no edit under way, and the hash, if there is one, has the
sum of the row. -/
structure System.Initial (s : System) : Prop where
  calls : s.calls = .empty
  lock : s.store.lock = none
  pending : s.store.pending = none
  rowEven : s.store.row.cacheGeneration % 2 = 0
  even : s.store.current % 2 = 0
  hash : ∀ h ∈ s.store.hash,
    s.store.row.cacheGeneration ≤ s.store.current ∧ h.total = s.store.row.total

theorem System.Initial.sound {s : System} (h : s.Initial) : s.Sound := by
  refine ⟨⟨h.rowEven, fun _ => h.pending, fun _ => h.hash, fun hodd => ?_⟩, fun call hcall => ?_⟩
  · have := h.even
    omega
  · rw [h.calls] at hcall
    cases hcall

/-- In every run in which the scripts that finish an edit compute exactly, the sums of the
row and of the hash agree whenever the generation is even, and an edit that is finished
changes the remaining quota of the hash by its delta and leaves the used quota. -/
theorem token_edits_keep_quota (batch : Bool) {s : System} (hs : s.Initial) (as : List Action)
    (hexact : Along (System.step batch) System.Exact s as) :
    ((run (System.step batch) s as).store.current % 2 = 0 →
      ∀ h ∈ (run (System.step batch) s as).store.hash,
        h.total = (run (System.step batch) s as).store.row.total) ∧
    Along (System.step batch) (fun u a => u.store.Finishes (u.step batch a).store) s as := by
  have hrun : (run (System.step batch) s as).Sound :=
    run_invariant (fun u a (h : u.Sound) ha => (h.step a ha).1) hs.sound hexact
  refine ⟨fun heven h hh => (hrun.balanced.even heven h hh).2, ?_⟩
  exact along_of_invariant (fun u a (h : u.Sound) ha => h.step a ha) hs.sound hexact

/-! ## Two runs -/

def sampleQuota (remain used : Int) : System where
  store := ⟨some 2, none, some ⟨remain, used, 2⟩, ⟨remain, used, 2⟩, none, 0, 0⟩
  calls := .empty

theorem sampleQuota_initial (remain used : Int) : (sampleQuota remain used).Initial := by
  refine ⟨rfl, rfl, rfl, Nat.mod_self 2, Nat.mod_self 2, fun h hh => ?_⟩
  cases hh
  exact ⟨le_rfl, rfl⟩

/-- An edit adds quota, and a request reserves some while it is under way. -/
def editedQuota (delta : Int) (reserved : Nat) : List Action :=
  [.call 1 (.updateWithQuotaDelta delta), .step 1, .step 1, .step 1,
    .call 2 (.tryReserveTokenQuota reserved false), .step 2, .step 1, .step 1, .step 2]

theorem editedQuota_kept :
    (run (System.step false) (sampleQuota 100 20) (editedQuota 50 30)).store.hash =
        some ⟨120, 50, 4⟩ ∧
      (run (System.step false) (sampleQuota 100 20) (editedQuota 50 30)).store.row =
        ⟨120, 50, 4⟩ ∧
      Along (System.step false) (fun u a => u.store.Finishes (u.step false a).store)
        (sampleQuota 100 20) (editedQuota 50 30) :=
  ⟨by decide, by decide, (token_edits_keep_quota false (sampleQuota_initial 100 20)
    (editedQuota 50 30) (by decide)).2⟩

/-- Beyond 2^53 the sums are rounded: the edit adds 1 to the row and 2 to the hash, with the
generation even. -/
theorem token_edit_rounded :
    (sampleQuota 9007199254740989 4).Initial ∧
    (run (System.step false) (sampleQuota 9007199254740989 4) (editedQuota 1 5)).store.current =
        4 ∧
      (run (System.step false) (sampleQuota 9007199254740989 4) (editedQuota 1 5)).store.hash =
        some ⟨9007199254740986, 9, 4⟩ ∧
      (run (System.step false) (sampleQuota 9007199254740989 4) (editedQuota 1 5)).store.row =
        ⟨9007199254740985, 9, 4⟩ :=
  ⟨sampleQuota_initial _ _, by decide, by decide, by decide⟩

end NewApi.TokenQuota
