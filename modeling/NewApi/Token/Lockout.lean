import NewApi.Token.Revocation

/-!
# What a step leaves behind

An odd generation has no expiry. It is left by the call that made it, or by a reader that finds
the row of that mutation committed. So a token stays usable as long as nobody leaves an odd
generation behind whose mutation did not commit.

`Survives` says which steps leave none, and `Completes` which steps leave a committed mutation to
its own call. Every other step is `Calm`.
-/

namespace NewApi

open Runs
open TokenStore (Calm Sound)

section

variable {id : Nat} {s : TokenStore} {born : List (Option TokenMetadata)} (hs : s.Sound)
  (env : TokenEnv) {stage : TokenStage} (h : stage.Ok s id born)

/-! ## Generations that nobody leaves behind -/

/-- The call has made the generation odd and not committed. -/
def TokenStage.owning : TokenStage → Bool
  | .write .. | .expect .. | .commit .. | .undoRow .. | .undo .. => true
  | _ => false

/-- The step does not lose an odd generation: the answer of `beginTokenCacheMutation`
arrives, the transaction commits or is rolled back before the generation is, and the
rollback in Redis takes place. -/
def TokenStage.Survives (fate : TokenFate) : TokenStage → Prop
  | .begin .. => fate ≠ .unacked
  | .commit .. => fate = .ok ∨ fate = .unacked
  | .undoRow .. => fate = .ok
  | .undo .. => fate = .ok ∨ fate = .unacked
  | _ => True

/-- No call stops while its generation is odd and not committed. -/
def TokenSystem.Survives (s : TokenSystem) : TokenAction → Prop
  | .step id env =>
    match s.calls.find id with
    | some call => call.stage.Survives env.fate
    | none => True
  | .crash id =>
    match s.calls.find id with
    | some call => call.stage.owning = false
    | none => True
  | _ => True

/-- What a step of a call does to the ownership of the generation. -/
structure Owned (id : Nat) (s : TokenStore) (next : TokenStore × TokenStage) : Prop where
  opened : next.1.Open → next.1.owner ≠ none
  own : next.1.owner = some id → next.2.owning = true
  other : ∀ j, j ≠ id → next.1.owner = some j → s.owner = some j

theorem Owned.of_calm {next : TokenStore × TokenStage} (h : Calm s next.1)
    (hopen : s.Open → s.owner ≠ none) (hown : s.owner ≠ some id) : Owned id s next where
  opened hopen' := by
    obtain ⟨hcurrent, hrow⟩ := h.odd hopen'.1
    rw [h.owner]
    exact hopen ((TokenStore.open_congr hcurrent hrow).mp hopen')
  own howner := absurd (h.owner.symm.trans howner) hown
  other j _ howner := h.owner.symm.trans howner

/-- A step of the owner that keeps the generation and the ownership. -/
theorem Owned.of_same (hopen : s.Open → s.owner ≠ none)
    (hstage : stage.owning = true) : Owned id s (s, stage) :=
  ⟨hopen, fun _ => hstage, fun _ _ h => h⟩

variable {g : Nat}

theorem TokenStore.Owns.generation (hs : s.Sound) (h : s.Owns id g) :
    s.generation = some g ∧ g % 2 = 1 := by
  have hodd := hs.owner_odd h.owner
  have hcurrent := h.current
  cases hgen : s.generation with
  | none =>
    rw [TokenStore.current, hgen, Option.getD_none] at hodd
    omega
  | some current =>
    have hsame := TokenStore.current_of_generation hgen
    exact ⟨by rw [← hcurrent, hsame], by omega⟩

theorem TokenStore.Owns.rollback (hs : s.Sound) (h : s.Owns id g) :
    (s.rollbackTokenCacheMutation g).2.current % 2 = 0 := by
  obtain ⟨hgen, hodd⟩ := h.generation hs
  have hresult : (s.rollbackTokenCacheMutation g).2.generation = some (g - 1) := by
    simp [TokenStore.rollbackTokenCacheMutation, TokenStore.endMutation, hgen, TokenStore.current,
      hodd]
  rw [TokenStore.current_of_generation hresult]
  omega

theorem begin_owned {mutation : TokenMutation} {row : TokenRow} (hfate : env.fate ≠ .unacked)
    (hopen : s.Open → s.owner ≠ none) (hown : s.owner ≠ some id) :
    Owned id s ((TokenStage.begin mutation row).advanceWriter id env s) := by
  simp only [TokenStage.advanceWriter]
  split
  · exact .of_calm (.refl s) hopen hown
  cases hfate' : env.fate with
  | ok =>
    by_cases hbusy : s.current % 2 ≠ 0 ∨ s.pending.isSome
    · simp only [TokenEnv.script, hfate', TokenStore.beginTokenCacheMutation, if_pos hbusy]
      exact .of_calm (.refl s) hopen hown
    · simp only [TokenEnv.script, hfate', TokenStore.beginTokenCacheMutation, if_neg hbusy]
      exact ⟨fun _ => by simp, fun _ => rfl, fun j hj howner =>
        absurd (Option.some.inj howner).symm hj⟩
  | unacked => exact absurd hfate' hfate
  | lost | aborted =>
    simp only [TokenEnv.script, hfate']
    exact .of_calm (.refl s) hopen hown

theorem commitRow_owned (mutation : TokenMutation) (row : TokenRow) (h : s.Owns id g)
    (stage : TokenStage) : Owned id s (s.commitRow (mutation.apply row g), stage) where
  opened hopen := by
    obtain ⟨-, r, hr, hne⟩ := hopen
    refine absurd ?_ hne
    cases mutation with
    | update change mutationId =>
      cases hr
      exact congrArg (· + 1) h.current.symm
    | delete => cases hr
  own howner := by cases howner
  other j _ howner := by cases howner

theorem undo_store {err : String} (hfate : env.fate = .ok ∨ env.fate = .unacked) :
    ((TokenStage.undo g err).advanceWriter id env s).1 =
      (s.rollbackTokenCacheMutation g).2.disown := by
  simp only [TokenStage.advanceWriter]
  rcases hfate with hok | hunacked
  · simp only [TokenEnv.script, hok]
    cases (s.rollbackTokenCacheMutation g).1 <;> rfl
  · simp only [TokenEnv.script, hunacked]

include hs in
theorem undo_even (err : String) (h : s.Owns id g) (hfate : env.fate = .ok ∨ env.fate = .unacked) :
    ((TokenStage.undo g err).advanceWriter id env s).1.current % 2 = 0 := by
  rw [undo_store env hfate]
  exact h.rollback hs

include hs in
theorem undo_owned {err : String} (h : s.Owns id g) (hfate : env.fate = .ok ∨ env.fate = .unacked) :
    Owned id s ((TokenStage.undo g err).advanceWriter id env s) := by
  have heven := undo_even hs env err h hfate
  have hnone : ((TokenStage.undo g err).advanceWriter id env s).1.owner = none := by
    rw [undo_store env hfate]
    rfl
  refine ⟨fun hopen => ?_, fun howner => ?_, fun j _ howner => ?_⟩
  · have hodd := hopen.1
    omega
  · cases hnone.symm.trans howner
  · cases hnone.symm.trans howner

include hs h in
theorem advanceWriter_owned (hsurvives : stage.Survives env.fate)
    (hopen : s.Open → s.owner ≠ none) (hown : s.owner = some id → stage.owning = true) :
    Owned id s (stage.advanceWriter id env s) := by
  cases stage with
  | lockRow mutation =>
    have hown' : s.owner ≠ some id := fun howner => by cases hown howner
    simp only [TokenStage.advanceWriter]
    split
    · exact .of_calm (.refl s) hopen hown'
    split
    · exact .of_calm (.refl s) hopen hown'
    cases hrow : s.row with
    | none => exact .of_calm (.refl s) hopen hown'
    | some row => exact .of_calm ⟨rfl, fun _ => ⟨rfl, hrow.symm⟩⟩ hopen hown'
  | begin mutation row => exact begin_owned env hsurvives hopen fun howner => by cases hown howner
  | write mutation row g =>
    simp only [TokenStage.advanceWriter]
    split
    · exact .of_same hopen rfl
    · cases mutation <;> exact .of_same hopen rfl
  | expect mutation row g =>
    simp only [TokenStage.advanceWriter]
    split <;> exact .of_same hopen rfl
  | commit mutation row g =>
    rcases hsurvives with hok | hunacked
    · cases mutation with simp only [TokenStage.advanceWriter, hok]
      | update change mutationId =>
        exact commitRow_owned _ row h.2 _
      | delete =>
        exact commitRow_owned .delete row h.2 _
    · simp only [TokenStage.advanceWriter, hunacked]
      exact commitRow_owned _ row h.2 _
  | abort err =>
    exact .of_calm ((Calm.refl s).release id) hopen fun howner => by cases hown howner
  | undoRow g err =>
    have hfate : env.fate = .ok := hsurvives
    have hcalm : Calm s (s.release id) := (Calm.refl s).release id
    simp only [TokenStage.advanceWriter, hfate, if_true]
    exact ⟨fun _ => by rw [hcalm.owner, h.owner]; simp, fun _ => rfl,
      fun j _ howner => hcalm.owner.symm.trans howner⟩
  | undo g err => exact undo_owned hs env h hsurvives
  | _ => exact ⟨hopen, hown, fun _ _ h => h⟩

include hs h in
theorem advance_owned (hborn : born <:+ s.versions) (hsurvives : stage.Survives env.fate)
    (hopen : s.Open → s.owner ≠ none) (hown : s.owner = some id → stage.owning = true) :
    Owned id s (stage.advance id env s) := by
  have hother : stage.owning = false → s.owner ≠ some id := by
    intro hstage howner
    rw [hown howner] at hstage
    cases hstage
  unfold TokenStage.advance
  split
  all_goals first
    | exact advanceWriter_owned hs env h hsurvives hopen hown
    | exact .of_calm (advanceEnd_ok hs env h).quiet.toCalm hopen (hother rfl)
    | exact .of_calm (advanceRead_ok hs hborn env h).quiet.toCalm hopen (hother rfl)
    | exact .of_calm (advanceRecover_ok hs hborn env h).quiet.toCalm hopen (hother rfl)

/-! ## Mutations that their own call ends -/

/-- The call has committed at the generation and has yet to end it. -/
def TokenStage.closing (generation : Nat) : TokenStage → Bool
  | .reload g | .finish .writer _ g => g = generation
  | _ => false

/-- The commit is acknowledged, the row is read back, and the script runs. -/
def TokenStage.Completes (fate : TokenFate) : TokenStage → Prop
  | .commit .. | .reload _ => fate = .ok
  | .finish .writer .. => fate ≠ .lost
  | _ => True

/-- No call stops between its commit and the end of its mutation. -/
def TokenSystem.Completes (s : TokenSystem) : TokenAction → Prop
  | .step id env =>
    match s.calls.find id with
    | some call => call.stage.Completes env.fate
    | none => True
  | .crash id =>
    match s.calls.find id with
    | some call => ∀ g, call.stage.closing g = false
    | none => True
  | _ => True

/-- A step leaves the generation even, or owned, or to the call that ends it; or it
does not concern it. -/
def Closes (s : TokenStore) (stage : TokenStage) (next : TokenStore × TokenStage) : Prop :=
  next.1.current % 2 = 1 → next.1.row ≠ none → next.1.owner = none →
    next.2.closing next.1.current = true ∨
      (next.1.current = s.current ∧ next.1.row = s.row ∧ s.owner = none ∧
        stage.closing s.current = false)

theorem Closes.of_calm {next : TokenStore × TokenStage} (h : Calm s next.1)
    (hstage : stage.closing s.current = false) : Closes s stage next := by
  intro hodd _ howner
  obtain ⟨hcurrent, hrow⟩ := h.odd hodd
  exact .inr ⟨hcurrent, hrow, h.owner.symm.trans howner, hstage⟩

theorem Closes.same : Closes s stage (s, stage) := by
  intro _ _ howner
  cases hstage : stage.closing s.current with
  | true => exact .inl rfl
  | false => exact .inr ⟨rfl, rfl, howner, rfl⟩

theorem finish_even (token : TokenRow) (hodd : g % 2 = 1) (hcurrent : s.current = g)
    (hfate : env.fate ≠ .lost) :
    (env.finish token g s).2.current % 2 = 0 := by
  have hgen : s.generation = some g := by
    cases hgen : s.generation with
    | none =>
      rw [TokenStore.current, hgen, Option.getD_none] at hcurrent
      omega
    | some current => rw [← TokenStore.current_of_generation hgen, hcurrent]
  have hresult : (s.commitTokenCacheMutation token g).1 = true ∧
      (s.commitTokenCacheMutation token g).2.generation = some (g + 1) := by
    simp [TokenStore.commitTokenCacheMutation, TokenStore.endMutation, hgen, TokenStore.current,
      hodd]
  have heven : (s.commitTokenCacheMutation token g).2.current % 2 = 0 := by
    rw [TokenStore.current_of_generation hresult.2]
    omega
  cases hfate' : env.fate with
  | ok =>
    simp only [TokenEnv.finish, TokenEnv.script, hfate', hresult.1]
    exact heven
  | unacked =>
    simp only [TokenEnv.finish, TokenEnv.script, hfate']
    exact heven
  | lost => exact absurd hfate' hfate
  | aborted =>
    have haborted : (s.abortedCommit g).generation = some (g + 1) := by
      simp [TokenStore.abortedCommit, hgen, hodd]
    simp only [TokenEnv.finish, hfate', if_true]
    rw [TokenStore.current_of_generation haborted]
    omega

include hs h in
theorem advanceEnd_closes (hcompletes : stage.Completes env.fate)
    (hopen : s.Open → s.owner ≠ none) : Closes s stage (stage.advanceEnd id env s) := by
  have hcalm := (advanceEnd_ok hs env h).quiet.toCalm
  cases stage with
  | reload g =>
    by_cases hg : g = s.current
    · subst hg
      intro hodd hrow howner
      have hfate : env.fate = .ok := hcompletes
      have hsame : ((TokenStage.reload s.current).advanceEnd id env s).1 = s := by
        simp only [TokenStage.advanceEnd]
        split
        · rfl
        cases s.row with
        | none => rfl
        | some stored =>
          dsimp only
          split <;> rfl
      rw [hsame] at hodd hrow howner
      obtain ⟨r, hr⟩ := Option.ne_none_iff_exists'.mp hrow
      have hgen : r.cacheGeneration = s.current + 1 := by
        by_contra hne
        exact hopen ⟨hodd, r, hr, hne⟩ howner
      exact .inl (by simp [TokenStage.advanceEnd, hfate, hr, hgen, TokenStage.closing])
    · exact .of_calm hcalm (by simp [TokenStage.closing, hg])
  | finish caller token g =>
    by_cases hg : g = s.current ∧ caller = .writer
    · obtain ⟨rfl, rfl⟩ := hg
      intro hodd
      have heven := finish_even env token h.released.1 rfl hcompletes
      have hnext : ((TokenStage.finish .writer token s.current).advanceEnd id env s).1 =
          (env.finish token s.current s).2 := by
        simp only [TokenStage.advanceEnd]
        rcases (env.finish token s.current s).1 with err | _ <;> rfl
      rw [hnext] at hodd
      omega
    · refine .of_calm hcalm ?_
      cases caller with
      | writer => simpa [TokenStage.closing] using hg
      | _ => rfl
  | _ => exact .of_calm hcalm rfl

include hs h in
theorem advanceWriter_closes (hsurvives : stage.Survives env.fate)
    (hcompletes : stage.Completes env.fate) : Closes s stage (stage.advanceWriter id env s) := by
  cases stage with
  | lockRow mutation =>
    refine .of_calm ?_ rfl
    simp only [TokenStage.advanceWriter]
    split
    · exact .refl s
    split
    · exact .refl s
    cases hrow : s.row with
    | none => exact .refl s
    | some row => exact ⟨rfl, fun _ => ⟨rfl, hrow.symm⟩⟩
  | begin mutation row =>
    simp only [TokenStage.advanceWriter]
    split
    · exact .of_calm (.refl s) rfl
    cases hfate : env.fate with
    | ok =>
      by_cases hbusy : s.current % 2 ≠ 0 ∨ s.pending.isSome
      · simp only [TokenEnv.script, hfate, TokenStore.beginTokenCacheMutation, if_pos hbusy]
        exact .of_calm (.refl s) rfl
      · simp only [TokenEnv.script, hfate, TokenStore.beginTokenCacheMutation, if_neg hbusy]
        intro _ _ howner
        cases howner
    | unacked => exact absurd hfate hsurvives
    | lost | aborted =>
      simp only [TokenEnv.script, hfate]
      exact .of_calm (.refl s) rfl
  | write mutation row g =>
    refine .of_calm ?_ rfl
    simp only [TokenStage.advanceWriter]
    split
    · exact .refl s
    · cases mutation <;> exact .refl s
  | expect mutation row g =>
    refine .of_calm ?_ rfl
    simp only [TokenStage.advanceWriter]
    split <;> exact .refl s
  | commit mutation row g =>
    have hfate : env.fate = .ok := hcompletes
    cases mutation with simp only [TokenStage.advanceWriter, hfate]
    | update change mutationId =>
      exact fun _ _ _ => .inl (decide_eq_true h.2.current.symm)
    | delete =>
      exact fun _ hrow _ => absurd rfl hrow
  | abort err => exact .of_calm ((Calm.refl s).release id) rfl
  | undoRow g err =>
    have hfate : env.fate = .ok := hsurvives
    simp only [TokenStage.advanceWriter, hfate, if_true]
    exact .of_calm ((Calm.refl s).release id) rfl
  | undo g err =>
    have heven := undo_even hs env err h hsurvives
    intro hodd
    omega
  | _ => exact .same

include hs h in
/-- A step that completes leaves its odd generation to the call that ends it. -/
theorem advance_closes (hborn : born <:+ s.versions) (hsurvives : stage.Survives env.fate)
    (hcompletes : stage.Completes env.fate) (hopen : s.Open → s.owner ≠ none) :
    Closes s stage (stage.advance id env s) := by
  unfold TokenStage.advance
  split
  all_goals first
    | exact advanceEnd_closes hs env h hcompletes hopen
    | exact .of_calm (advanceRead_ok hs hborn env h).quiet.toCalm rfl
    | exact .of_calm (advanceRecover_ok hs hborn env h).quiet.toCalm rfl
    | exact advanceWriter_closes hs env h hsurvives hcompletes

end

end NewApi
