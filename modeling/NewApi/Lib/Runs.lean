import Mathlib.Data.List.Basic

/-!
# Runs of a machine

A machine is a total function `step : σ → α → σ`. An action carries what the environment chose
for it, so a run is a list of actions. An action that is not enabled leaves the state alone.

`Along step C s as` says that every action of the run meets `C` in the state it is taken from.
`run_invariant` is the invariant rule, `along_of_invariant` its version for a property of the
steps, and `run_rel` the one for a relation between two states of one run. `exists_step` finds the
step that breaks an invariant. `tally_le_one` bounds how often an event happens that raises a rank
over a bound. `total_eq` sums up what the steps add to a potential. `along_iff_measure` and
`forall_prefix_iff_along` read off the states of a run whether every step of it met a condition.
-/

namespace Runs

variable {σ α : Type*} (step : σ → α → σ)

def run (s : σ) (as : List α) : σ := as.foldl step s

@[simp] theorem run_nil (s : σ) : run step s [] = s := rfl

@[simp] theorem run_cons (s : σ) (a : α) (as : List α) :
    run step s (a :: as) = run step (step s a) as := rfl

theorem run_append (s : σ) (as bs : List α) :
    run step s (as ++ bs) = run step (run step s as) bs := List.foldl_append

/-- Every action of the list meets `C` in the state it is taken from. -/
def Along (C : σ → α → Prop) : σ → List α → Prop
  | _, [] => True
  | s, a :: as => C s a ∧ Along C (step s a) as

instance Along.decidable {C : σ → α → Prop} [∀ s a, Decidable (C s a)] :
    ∀ (s : σ) (as : List α), Decidable (Along step C s as)
  | _, [] => inferInstanceAs (Decidable True)
  | s, a :: as => @instDecidableAnd _ _ _ (Along.decidable (step s a) as)

variable {step} {C : σ → α → Prop} {as : List α} {s : σ} {I : σ → Prop}

theorem along_append {bs : List α} :
    Along step C s (as ++ bs) ↔ Along step C s as ∧ Along step C (run step s as) bs := by
  induction as generalizing s with
  | nil => simp [Along]
  | cons a as ih => simp [Along, ih, and_assoc]

theorem Along.imp {D : σ → α → Prop} (himp : ∀ s a, C s a → D s a) (h : Along step C s as) :
    Along step D s as := by
  induction as generalizing s with
  | nil => trivial
  | cons a as ih => exact ⟨himp s a h.1, ih h.2⟩

theorem Along.and {D : σ → α → Prop} (h : Along step C s as) (h' : Along step D s as) :
    Along step (fun s a => C s a ∧ D s a) s as := by
  induction as generalizing s with
  | nil => trivial
  | cons a as ih => exact ⟨⟨h.1, h'.1⟩, ih h.2 h'.2⟩

theorem along_of_forall (h : ∀ s a, C s a) (s : σ) (as : List α) : Along step C s as := by
  induction as generalizing s with
  | nil => trivial
  | cons a as ih => exact ⟨h s a, ih (step s a)⟩

theorem along_of_mem (h : ∀ a ∈ as, ∀ s, C s a) (s : σ) : Along step C s as := by
  induction as generalizing s with
  | nil => trivial
  | cons a as ih =>
    refine ⟨h a List.mem_cons_self s, ih ?_ (step s a)⟩
    intro b hb
    exact h b (List.mem_cons_of_mem a hb)

theorem run_invariant (hstep : ∀ s a, I s → C s a → I (step s a)) (hs : I s)
    (has : Along step C s as) : I (run step s as) := by
  induction as generalizing s with
  | nil => exact hs
  | cons a as ih => exact ih (hstep s a hs has.1) has.2

/-- What holds at every step from a state of the invariant holds along the run. -/
theorem along_of_invariant {Q : σ → α → Prop} (hstep : ∀ s a, I s → C s a → I (step s a) ∧ Q s a)
    (hs : I s) (has : Along step C s as) : Along step Q s as := by
  induction as generalizing s with
  | nil => trivial
  | cons a as ih =>
    obtain ⟨hi, hq⟩ := hstep s a hs has.1
    exact ⟨hq, ih hi has.2⟩

theorem run_invariant_of_step (hstep : ∀ s a, I s → I (step s a)) (as : List α) (hs : I s) :
    I (run step s as) :=
  run_invariant (C := fun _ _ => True) (fun s a h _ => hstep s a h) hs
    (along_of_forall (fun _ _ => trivial) s as)

/-- What a run gains is gained by one of its steps. -/
theorem exists_step (hs : ¬I s) (hend : I (run step s as)) :
    ∃ before a after, as = before ++ a :: after ∧ ¬I (run step s before) ∧
      I (step (run step s before) a) := by
  induction as generalizing s with
  | nil => exact absurd hend hs
  | cons a as ih =>
    by_cases ha : I (step s a)
    · exact ⟨[], a, as, rfl, hs, ha⟩
    · obtain ⟨before, b, after, rfl, hgains⟩ := ih ha hend
      exact ⟨a :: before, b, after, rfl, hgains⟩

/-- If a step keeps the invariant exactly when it meets `C`, the invariant holds all along a run
exactly when every step of it meets `C`. -/
theorem forall_prefix_iff_along (hstep : ∀ s a, I s → (I (step s a) ↔ C s a)) (hs : I s) :
    (∀ before after, as = before ++ after → I (run step s before)) ↔ Along step C s as := by
  induction as generalizing s with
  | nil =>
    refine ⟨fun _ => trivial, fun _ before after h => ?_⟩
    rw [(List.append_eq_nil_iff.mp h.symm).1]
    exact hs
  | cons a as ih =>
    constructor
    · intro h
      have ha : I (step s a) := h [a] as rfl
      refine ⟨(hstep s a hs).mp ha, (ih ha).mp fun before after heq => ?_⟩
      exact h (a :: before) after (by rw [heq, List.cons_append])
    · rintro ⟨hc, halong⟩ before after heq
      cases before with
      | nil => exact hs
      | cons b before =>
        obtain ⟨rfl, htail⟩ := List.cons.inj heq
        exact (ih ((hstep s a hs).mpr hc)).mpr halong before after htail

/-- What relates the two ends of every step relates the two ends of every run. -/
theorem run_rel {R : σ → σ → Prop} (hrefl : ∀ s, R s s) (htrans : ∀ {s t u}, R s t → R t u → R s u)
    (hstep : ∀ s a, R s (step s a)) (s : σ) (as : List α) : R s (run step s as) := by
  induction as generalizing s with
  | nil => exact hrefl s
  | cons a as ih => exact htrans (hstep s a) (ih (step s a))

/-- A measure that grows at exactly the steps that break `P` tells by its last
value whether the whole run met `P`. -/
theorem along_iff_measure {P : σ → α → Prop} {g : σ → Int} (hstep : ∀ s a, I s → C s a →
      I (step s a) ∧ (P s a → g (step s a) = g s) ∧ (¬P s a → g s < g (step s a))) (as : List α)
    (hs : I s) (has : Along step C s as) :
    g s ≤ g (run step s as) ∧ (Along step P s as ↔ g (run step s as) = g s) := by
  induction as generalizing s with
  | nil => exact ⟨Int.le_refl _, iff_of_true trivial rfl⟩
  | cons a as ih =>
    obtain ⟨hi, hkeep, hgrow⟩ := hstep s a hs has.1
    obtain ⟨hle, hiff⟩ := ih hi has.2
    by_cases hp : P s a
    · rw [hkeep hp] at hle hiff
      exact ⟨hle, by simp [Along, hp, hiff]⟩
    have hlt := hgrow hp
    refine ⟨by rw [run_cons]; omega, ?_⟩
    rw [run_cons]
    exact iff_of_false (fun h => hp h.1) (by omega)

variable (step) in
/-- The sum of an amount over the steps of a run. -/
def total (f : σ → α → Int) : σ → List α → Int
  | _, [] => 0
  | s, a :: as => f s a + total f (step s a) as

/-- An amount that is the growth of a potential at every step sums up to the growth
over the run. -/
theorem total_eq {f : σ → α → Int} {g : σ → Int}
    (hstep : ∀ s a, I s → I (step s a) ∧ f s a = g (step s a) - g s) (as : List α) (hs : I s) :
    total step f s as = g (run step s as) - g s := by
  induction as generalizing s with
  | nil => simp [total]
  | cons a as ih =>
    obtain ⟨hi, hf⟩ := hstep s a hs
    rw [total, ih hi, run_cons, hf]
    omega

variable (step) in
/-- How many actions of the run are events of `p`. -/
def tally (p : σ → α → Bool) : σ → List α → Nat
  | _, [] => 0
  | s, a :: as => (if p s a then 1 else 0) + tally p (step s a) as

variable {p : σ → α → Bool} {rank : σ → Nat} {bound : Nat}

theorem tally_eq_zero (hmono : ∀ s a, rank s ≤ rank (step s a))
    (hlow : ∀ s a, p s a = true → rank s < bound) (as : List α) (hs : bound ≤ rank s) :
    tally step p s as = 0 := by
  induction as generalizing s with
  | nil => rfl
  | cons a as ih =>
    have hno : p s a = false := by
      by_contra hp
      have := hlow s a (by simpa using hp)
      omega
    have hrest := ih (Nat.le_trans hs (hmono s a))
    simp [tally, hno, hrest]

/-- An event that needs a rank below the bound and leaves one that is not
below it happens at most once, when no step lowers the rank. -/
theorem tally_le_one (hmono : ∀ s a, rank s ≤ rank (step s a))
    (hlow : ∀ s a, p s a = true → rank s < bound)
    (hhigh : ∀ s a, p s a = true → bound ≤ rank (step s a)) (s : σ) (as : List α) :
    tally step p s as ≤ 1 := by
  induction as generalizing s with
  | nil => exact Nat.zero_le _
  | cons a as ih =>
    cases hp : p s a with
    | true =>
      have hrest := tally_eq_zero hmono hlow as (hhigh s a hp)
      simp [tally, hp, hrest]
    | false =>
      have hrest := ih (step s a)
      simpa [tally, hp] using hrest

theorem tally_or {q : σ → α → Bool} (hdisj : ∀ s a, p s a = true → q s a = false) (s : σ)
    (as : List α) :
    tally step (fun s a => p s a || q s a) s as = tally step p s as + tally step q s as := by
  induction as generalizing s with
  | nil => rfl
  | cons a as ih =>
    have hrest := ih (step s a)
    have hhead := hdisj s a
    rw [tally, tally, tally, hrest]
    cases hp : p s a <;> cases hq : q s a <;> simp_all <;> omega

end Runs
