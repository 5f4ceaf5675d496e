import NewApi.Token.Calls

/-!
# The generation as a fence

`Move` says what one step of a call can do to the stores: it takes the generation to the next odd
number, takes it back, ends it, raises it by an invalidation, fills the hash, or commits the row.
A row is committed only by the owner of an odd generation, and only the owner takes one back.

So an even generation that was left is never the current one again, and while it is current the
row does not change (`current_back`): the hash, and the copy of it that a reader holds, show the
row for as long as their generation is current (`Seen`).
-/

namespace NewApi

namespace TokenStore

/-! ## Predicates -/

/-- The generation is odd and its mutation is not committed. -/
def Open (s : TokenStore) : Prop :=
  s.current % 2 = 1 ∧ ∃ r, s.row = some r ∧ r.cacheGeneration ≠ s.current + 1

def Warm (s : TokenStore) : Prop := ∀ r, s.row = some r → r.cacheGeneration ≤ s.current + 1

/-- The even generation `e` is the current one, or may become so again. -/
def Current (s : TokenStore) (e : Nat) : Prop := s.current = e ∨ (s.current = e + 1 ∧ s.Open)

/-- The hash shows the row for as long as its generation is current. -/
structure Seen (s : TokenStore) (h : TokenHash) : Prop where
  even : h.cacheGeneration % 2 = 0
  le : h.cacheGeneration ≤ s.current
  row : s.Current h.cacheGeneration → ∃ r, s.row = some r ∧ r.metadata = h.metadata

/-- What holds of the stores all the time. -/
structure Sound (s : TokenStore) : Prop where
  versions : s.versions.head? = some (s.row.map TokenRow.metadata)
  alive : s.row ≠ none → none ∉ s.versions
  even : ∀ r, s.row = some r → r.cacheGeneration % 2 = 0
  warm : s.current % 2 = 1 → s.Warm
  owned : s.owner ≠ none → s.Open
  hash : ∀ h, s.hash = some h → s.Seen h
  marker : s.generation = none → s.pending = none

/-- The odd generation `g` is behind, or nobody takes it back. -/
def Released (s : TokenStore) (g : Nat) : Prop :=
  g % 2 = 1 ∧ (g < s.current ∨ (s.current = g ∧ s.owner = none))

/-! ## Moves -/

/-- A call takes the lock when it is free, and gives back only its own. -/
def LockMove (id : Nat) (s s' : TokenStore) : Prop :=
  s'.lock = s.lock ∨ (s.lock = none ∧ s'.lock = some id) ∨ (s.lock = some id ∧ s'.lock = none)

/-- What a step does to the generation, the row and the hash. -/
inductive Effect (id : Nat) (s s' : TokenStore) : Prop
  | kept : s'.current = s.current → s'.row = s.row → s'.versions = s.versions →
      (s'.hash = s.hash ∨ s'.hash = none) →
      (s'.owner = s.owner ∨ (s.owner = some id ∧ s'.owner = none)) → Effect id s s'
  | fenced {r : TokenRow} : s.row = some r → s.current % 2 = 0 →
      s'.current = max s.current r.cacheGeneration + 1 → s'.row = s.row →
      s'.versions = s.versions → s'.hash = s.hash →
      (s'.owner = s.owner ∨ s'.owner = some id) → Effect id s s'
  | undone : s.owner = some id → s'.current + 1 = s.current → s'.row = s.row →
      s'.versions = s.versions → s'.hash = s.hash → s'.owner = none → Effect id s s'
  | ended : s.current % 2 = 1 → ¬s.Open → s'.current = s.current + 1 → s'.row = s.row →
      s'.versions = s.versions → (s'.hash = s.hash ∨ s'.hash = none ∨
        ∃ r, s.row = some r ∧ s'.hash = some ⟨r.metadata, s.current + 1⟩) →
      s'.owner = s.owner → Effect id s s'
  | raised : s.current % 2 = 0 → s.current ≤ s'.current → s'.current % 2 = 0 →
      s'.row = s.row → s'.versions = s.versions → s'.hash = none → s'.owner = s.owner →
      Effect id s s'
  | cached {r : TokenRow} : s.current % 2 = 0 → s.row = some r → s'.current = s.current →
      s'.row = s.row → s'.versions = s.versions →
      s'.hash = some ⟨r.metadata, s.current⟩ → s'.owner = s.owner → Effect id s s'
  | committed : s.owner = some id → s.lock = some id → s'.current = s.current →
      (∀ r, s'.row = some r → r.cacheGeneration = s.current + 1) →
      s'.versions = s'.row.map TokenRow.metadata :: s.versions → s'.hash = s.hash →
      s'.owner = none → Effect id s s'

/-- A step of the call `id`. -/
structure Move (id : Nat) (s s' : TokenStore) : Prop where
  lock : LockMove id s s'
  effect : Effect id s s'
  marker : s'.generation = none → s'.pending = none

section

variable {id : Nat} {s s' : TokenStore}

theorem open_congr (hcurrent : s'.current = s.current) (hrow : s'.row = s.row) :
    s'.Open ↔ s.Open := by
  simp only [Open, hcurrent, hrow]

theorem current_congr (hcurrent : s'.current = s.current) (hrow : s'.row = s.row) (e : Nat) :
    s'.Current e ↔ s.Current e := by
  simp only [Current, hcurrent, open_congr hcurrent hrow]

theorem Sound.owner_odd (h : s.Sound) (howner : s.owner = some id) : s.current % 2 = 1 :=
  (h.owned (by simp [howner])).1

theorem Effect.row_eq_or (hm : Effect id s s') :
    (s'.row = s.row ∧ s'.versions = s.versions) ∨
      (s.owner = some id ∧ s.lock = some id ∧
        s'.versions = s'.row.map TokenRow.metadata :: s.versions) := by
  cases hm with
  | kept _ hrow hv | fenced _ _ _ hrow hv | undone _ _ hrow hv | ended _ _ _ hrow hv
  | raised _ _ _ hrow hv | cached _ _ _ hrow hv => exact .inl ⟨hrow, hv⟩
  | committed howner hlock _ _ hv => exact .inr ⟨howner, hlock, hv⟩

section

variable (hs : s.Sound) (hm : Effect id s s')

include hs hm

/-- A generation that is current after a step and was reached before it was current
before it, and the row is the same. -/
theorem current_back {e : Nat} (heven : e % 2 = 0)
    (hle : e ≤ s.current) (h : s'.Current e) : s.Current e ∧ s'.row = s.row := by
  cases hm with
  | kept hcurrent hrow | cached _ _ hcurrent hrow =>
    exact ⟨(current_congr hcurrent hrow e).mp h, hrow⟩
  | @fenced r hr heven' hcurrent hrow =>
    refine ⟨.inl ?_, hrow⟩
    rcases h with h | ⟨h, -⟩ <;> omega
  | undone howner hcurrent hrow =>
    have hopen := hs.owned (by simp [howner])
    have hodd := hopen.1
    refine ⟨?_, hrow⟩
    rcases h with h | ⟨h, -⟩
    · exact .inr ⟨by omega, hopen⟩
    · omega
  | ended hodd _ hcurrent hrow =>
    rcases h with h | ⟨h, -⟩ <;> omega
  | raised heven' hle' heven'' hrow =>
    refine ⟨.inl ?_, hrow⟩
    rcases h with h | ⟨h, -⟩ <;> omega
  | committed howner _ hcurrent hnew =>
    have hodd := hs.owner_odd howner
    rcases h with h | ⟨h, hopen⟩
    · omega
    · obtain ⟨-, r, hr, hne⟩ := hopen
      rw [hcurrent] at hne
      exact absurd (hnew r hr) hne

theorem Effect.le_current {e : Nat} (heven : e % 2 = 0) (hle : e ≤ s.current) : e ≤ s'.current := by
  cases hm with
  | undone howner hcurrent =>
    have hodd := hs.owner_odd howner
    omega
  | _ => omega

theorem Seen.move {h : TokenHash} (hseen : s.Seen h) : s'.Seen h where
  even := hseen.even
  le := hm.le_current hs hseen.even hseen.le
  row hcurrent := by
    obtain ⟨hback, hrow⟩ := current_back hs hm hseen.even hseen.le hcurrent
    rw [hrow]
    exact hseen.row hback

theorem Warm.move (h : s.Warm) : s'.Warm := by
  intro r hr
  cases hm with
  | committed _ _ hcurrent hnew =>
    have := hnew r hr
    omega
  | undone howner hcurrent hrow =>
    rw [hrow] at hr
    obtain ⟨hodd, r', hr', hne⟩ := hs.owned (by simp [howner])
    obtain rfl := Option.some.inj (hr.symm.trans hr')
    have hle := h r hr
    omega
  | kept hcurrent hrow | fenced _ _ hcurrent hrow | ended _ _ hcurrent hrow
  | raised _ hle _ hrow | cached _ _ hcurrent hrow =>
    have := h r (hrow ▸ hr)
    omega

theorem Released.move {g : Nat} (h : s.Released g) : s'.Released g := by
  obtain ⟨hodd, hcase⟩ := h
  refine ⟨hodd, ?_⟩
  cases hm with
  | kept hcurrent _ _ _ howner =>
    rcases hcase with hlt | ⟨heq, hnone⟩
    · exact .inl (by omega)
    refine .inr ⟨by omega, ?_⟩
    rcases howner with hsame | ⟨_, hcleared⟩
    · exact hsame.trans hnone
    · exact hcleared
  | fenced _ heven hcurrent | ended _ _ hcurrent | raised heven hle | cached heven _ hcurrent =>
    exact .inl (by omega)
  | undone howner hcurrent =>
    have hown := hs.owner_odd howner
    rcases hcase with hlt | ⟨_, hnone⟩
    · exact .inl (by omega)
    · cases howner.symm.trans hnone
  | committed howner _ hcurrent =>
    rcases hcase with hlt | ⟨_, hnone⟩
    · exact .inl (by omega)
    · cases howner.symm.trans hnone

theorem Effect.row_none (h : s.row = none) : s'.row = none := by
  rcases hm.row_eq_or with ⟨hrow, -⟩ | ⟨howner, -⟩
  · exact hrow.trans h
  · obtain ⟨-, r, hr, -⟩ := hs.owned (by simp [howner])
    cases h.symm.trans hr

end

variable {j : Nat}

theorem LockMove.keeps (h : LockMove id s s') (hj : j ≠ id) (hlock : s.lock = some j) :
    s'.lock = some j := by
  rcases h with hsame | ⟨hnone, -⟩ | ⟨hown, -⟩
  · exact hsame.trans hlock
  · cases hlock.symm.trans hnone
  · rw [hlock] at hown
    exact absurd (Option.some.inj hown) hj

theorem Effect.row_locked (hm : Effect id s s') (hj : j ≠ id) (hlock : s.lock = some j) :
    s'.row = s.row := by
  rcases hm.row_eq_or with ⟨hrow, -⟩ | ⟨-, hown, -⟩
  · exact hrow
  · rw [hlock] at hown
    exact absurd (Option.some.inj hown) hj

theorem Effect.owns (hs : s.Sound) (hm : Effect id s s') {g : Nat} (hj : j ≠ id)
    (howner : s.owner = some j) (hcurrent : s.current = g) :
    s'.owner = some j ∧ s'.current = g := by
  have hopen := hs.owned (by simp [howner])
  have hodd := hopen.1
  have hne : s.owner ≠ some id := by
    rw [howner]
    exact fun he => hj (Option.some.inj he)
  cases hm with
  | kept hcurrent' _ _ _ howner' =>
    rcases howner' with hsame | ⟨hown, -⟩
    · exact ⟨hsame.trans howner, hcurrent'.trans hcurrent⟩
    · exact absurd hown hne
  | fenced _ heven => omega
  | undone hown | committed hown => exact absurd hown hne
  | ended _ hclosed => exact absurd hopen hclosed
  | raised heven => omega
  | cached heven => omega

/-- The metadata is that of a version committed since, or of the one that was current
then, and no deletion was committed before. -/
def Fresh (s : TokenStore) (born : List (Option TokenMetadata)) (m : TokenMetadata) : Prop :=
  none ∉ born ∧ ∃ since, s.versions = since ++ born ∧ (some m ∈ since ∨ born.head? = some (some m))

theorem Effect.versions_suffix (hm : Effect id s s') : s.versions <:+ s'.versions := by
  rcases hm.row_eq_or with ⟨-, hv⟩ | ⟨-, -, hv⟩
  · exact hv.symm ▸ List.suffix_rfl
  · exact hv.symm ▸ List.suffix_cons _ _

variable {born : List (Option TokenMetadata)} {r : TokenRow}

theorem Fresh.move (hm : Effect id s s') {m : TokenMetadata} (h : s.Fresh born m) :
    s'.Fresh born m := by
  obtain ⟨hborn, since, hsince, hmem⟩ := h
  obtain ⟨later, hlater⟩ := hm.versions_suffix
  refine ⟨hborn, later ++ since, by rw [← hlater, hsince, List.append_assoc], ?_⟩
  rcases hmem with hin | hhead
  · exact .inl (List.mem_append_right later hin)
  · exact .inr hhead

theorem Sound.fresh (hs : s.Sound) (hborn : born <:+ s.versions) (hr : s.row = some r) :
    s.Fresh born r.metadata := by
  have halive := hs.alive (by simp [hr])
  have hhead := hs.versions
  rw [hr] at hhead
  obtain ⟨since, hsince⟩ := hborn
  refine ⟨fun hmem => halive (hsince ▸ List.mem_append_right since hmem), since, hsince.symm, ?_⟩
  rw [← hsince] at hhead
  cases since with
  | nil => exact .inr hhead
  | cons x xs =>
    cases hhead
    exact .inl List.mem_cons_self

theorem Sound.closed (hs : s.Sound) (hr : s.row = some r)
    (hgen : r.cacheGeneration = s.current + 1) : s.owner = none := by
  by_contra howner
  obtain ⟨-, r', hr', hne⟩ := hs.owned howner
  obtain rfl := Option.some.inj (hr.symm.trans hr')
  exact hne hgen

theorem Sound.move (hs : s.Sound) (hm : Move id s s') : s'.Sound := by
  obtain ⟨-, heffect, hmarker⟩ := hm
  have hseen : ∀ h, s.hash = some h → s'.Seen h := fun h hh => (hs.hash h hh).move hs heffect
  have hwarm : s.Warm → s'.Warm := fun h => h.move hs heffect
  have hkeep (hrow : s'.row = s.row) (hv : s'.versions = s.versions)
      (hwarm : s'.current % 2 = 1 → s'.Warm) (howned : s'.owner ≠ none → s'.Open)
      (hhash : ∀ h, s'.hash = some h → s'.Seen h) : s'.Sound := by
    refine ⟨?_, ?_, ?_, hwarm, howned, hhash, hmarker⟩ <;> rw [hrow]
    · rw [hv]
      exact hs.versions
    · rw [hv]
      exact hs.alive
    · exact hs.even
  cases heffect with
  | kept hcurrent hrow hv hhash howner =>
    refine hkeep hrow hv (fun hodd => hwarm (hs.warm (by omega))) ?_ ?_
    · intro hsome
      rw [open_congr hcurrent hrow]
      refine hs.owned fun hnone => hsome ?_
      rcases howner with hsame | ⟨-, hcleared⟩
      · exact hsame.trans hnone
      · exact hcleared
    · intro h hh
      rcases hhash with hsame | hnone
      · exact hseen h (hsame ▸ hh)
      · cases hnone.symm.trans hh
  | @fenced r hr heven hcurrent hrow hv hhash howner =>
    have hreven := hs.even r hr
    refine hkeep hrow hv ?_ ?_ fun h hh => hseen h (hhash ▸ hh)
    · intro _ r' hr'
      obtain rfl := Option.some.inj ((hrow ▸ hr').symm.trans hr)
      omega
    · intro _
      exact ⟨by omega, r, hrow.trans hr, by omega⟩
  | undone howner hcurrent hrow hv hhash hnone =>
    have hodd := hs.owner_odd howner
    refine hkeep hrow hv (by omega) ?_ fun h hh => hseen h (hhash ▸ hh)
    intro hsome
    exact absurd hnone hsome
  | ended hodd hclosed hcurrent hrow hv hhash howner =>
    refine hkeep hrow hv (by omega) ?_ ?_
    · intro hsome
      exact absurd (hs.owned (by rw [← howner]; exact hsome)) hclosed
    · intro h hh
      rcases hhash with hsame | hnone | ⟨r, hr, hnew⟩
      · exact hseen h (hsame ▸ hh)
      · cases hnone.symm.trans hh
      · obtain rfl := Option.some.inj (hnew.symm.trans hh)
        exact ⟨by simp only; omega, by simp only; omega, fun _ => ⟨r, hrow.trans hr, rfl⟩⟩
  | raised heven hle heven' hrow hv hhash howner =>
    refine hkeep hrow hv (by omega) ?_ ?_
    · intro hsome
      have := (hs.owned (by rw [← howner]; exact hsome)).1
      omega
    · intro h hh
      cases hhash.symm.trans hh
  | @cached r heven hr hcurrent hrow hv hhash howner =>
    refine hkeep hrow hv (by omega) ?_ ?_
    · intro hsome
      have := (hs.owned (by rw [← howner]; exact hsome)).1
      omega
    · intro h hh
      obtain rfl := Option.some.inj (hhash.symm.trans hh)
      exact ⟨heven, by simp only; omega, fun _ => ⟨r, hrow.trans hr, rfl⟩⟩
  | committed howner _ hcurrent hnew hv hhash hnone =>
    obtain ⟨hodd, r, hr, -⟩ := hs.owned (by simp [howner])
    refine ⟨by rw [hv]; rfl, ?_, ?_, ?_, ?_, fun h hh => hseen h (hhash ▸ hh), hmarker⟩
    · intro hsome
      obtain ⟨r', hr'⟩ := Option.ne_none_iff_exists'.mp hsome
      have halive := hs.alive (by simp [hr])
      rw [hv, hr']
      simp [halive]
    · intro r' hr'
      have := hnew r' hr'
      omega
    · intro _ r' hr'
      have := hnew r' hr'
      omega
    · intro hsome
      exact absurd hnone hsome

end

end TokenStore

end NewApi
