/-!
# Checked computations

A function that checks its input and its lookups one after the other and stops with the
error of the first that fails. The lemmas read off a success that every check passed.
-/

namespace Checked

variable {α β : Type}

/-- Stops with an error in the bad case. -/
def refuse (bad : Prop) [Decidable bad] (err : String) : Except String Unit :=
  if bad then .error err else .ok ()

/-- Stops with an error when nothing was found. -/
def found (o : Option α) (err : String) : Except String α :=
  match o with
  | some a => .ok a
  | none => .error err

variable {x : Except String α} {f : α → Except String β} {bad : Prop}

theorem bind_ok {b : β} : (x >>= f) = .ok b ↔ ∃ a, x = .ok a ∧ f a = .ok b := by
  cases x <;> simp [bind, Except.bind]

theorem map_ok {f : α → β} {b : β} : x.map f = .ok b ↔ ∃ a, x = .ok a ∧ f a = b := by
  cases x <;> simp [Except.map]

variable {a : α} {err : String}

theorem refuse_ok [Decidable bad] {u : Unit} : refuse bad err = .ok u ↔ ¬bad := by
  by_cases h : bad <;> simp [refuse, h]

theorem found_ok {o : Option α} : found o err = .ok a ↔ o = some a := by
  cases o <;> simp [found]

/-! ## Running the checks -/

theorem refuse_bind [Decidable bad] {f : Unit → Except String β} :
    (refuse bad err >>= f) = if bad then .error err else f () := by
  by_cases h : bad <;> simp [refuse, h, bind, Except.bind]

theorem found_bind : (found (some a) err >>= f) = f a := rfl

end Checked
