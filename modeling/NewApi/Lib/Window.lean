import Mathlib.Algebra.Order.Ring.Int
import Mathlib.Data.List.Basic

/-!
# Sliding windows

A log of times, in order, of which a limiter remembers the end. `Kept d now log kept`
says that what it forgot is at least `d` old. So the times of the log that are younger
than `d` are among the remembered ones (`Kept.young`).

`Spaced d n log` says that any `n + 1` times of the log span at least `d`. It is kept by
a new time that is taken while fewer than `n` times are remembered (`Spaced.push`).
-/

namespace Window

variable {d now now' t : Int} {n : Nat} {log kept front taken : List Int}

/-- `kept` is the log without a front of times that are at least `d` old. -/
def Kept (d now : Int) (log kept : List Int) : Prop :=
  ∃ dropped, log = dropped ++ kept ∧ ∀ t ∈ dropped, d ≤ now - t

theorem Kept.refl (d now : Int) (log : List Int) : Kept d now log log := ⟨[], rfl, by simp⟩

theorem Kept.later (h : Kept d now log kept) (hle : now ≤ now') : Kept d now' log kept := by
  obtain ⟨dropped, hlog, hold⟩ := h
  refine ⟨dropped, hlog, ?_⟩
  intro t ht
  have := hold t ht
  omega

theorem Kept.append (h : Kept d now log kept) (times : List Int) :
    Kept d now (log ++ times) (kept ++ times) := by
  obtain ⟨dropped, rfl, hold⟩ := h
  exact ⟨dropped, List.append_assoc .., hold⟩

theorem Kept.drop (h : Kept d now log (front ++ kept)) (hfront : ∀ t ∈ front, d ≤ now - t) :
    Kept d now log kept := by
  obtain ⟨dropped, rfl, hold⟩ := h
  refine ⟨dropped ++ front, (List.append_assoc ..).symm, ?_⟩
  intro t ht
  rcases List.mem_append.mp ht with hdropped | hfront'
  · exact hold t hdropped
  · exact hfront t hfront'

theorem Kept.young (h : Kept d now log kept) (hsub : taken.Sublist log)
    (hyoung : ∀ t ∈ taken, now - t < d) : taken.Sublist kept := by
  obtain ⟨dropped, rfl, hold⟩ := h
  obtain ⟨old, young, rfl, hleft, hright⟩ := List.sublist_append_iff.mp hsub
  cases old with
  | nil => exact hright
  | cons t rest =>
    have hlt := hyoung t (by simp)
    have hle := hold t (hleft.subset List.mem_cons_self)
    omega

theorem Kept.length_young (h : Kept d now log kept) :
    (log.filter fun t => now - t < d).length ≤ kept.length := by
  refine (h.young List.filter_sublist ?_).length_le
  intro t ht
  simpa using (List.mem_filter.mp ht).2

/-- Any `n + 1` of the times span at least `d`. -/
def Spaced (d : Int) (n : Nat) (log : List Int) : Prop :=
  ∀ w : List Int, w.Sublist log → w.length = n + 1 → ∀ first last,
    w.head? = some first → w.getLast? = some last → d ≤ last - first

theorem Spaced.nil : Spaced d n [] := by
  intro w hsub hlen
  rw [List.sublist_nil.mp hsub] at hlen
  cases hlen

theorem Spaced.push (h : Spaced d n taken) (hsub : taken.Sublist log)
    (hsorted : log.Pairwise (· ≤ ·)) (hkept : Kept d now log kept) (hroom : kept.length < n) :
    Spaced d n (taken ++ [now]) := by
  intro w hw hlen first last hfirst hlast
  obtain ⟨w', rest, rfl, hleft, hright⟩ := List.sublist_append_iff.mp hw
  rcases List.sublist_singleton.mp hright with rfl | rfl
  · rw [List.append_nil] at hlen hfirst hlast
    exact h w' hleft hlen first last hfirst hlast
  obtain rfl : now = last := by simpa using hlast
  by_contra hshort
  have hyoung : ∀ t ∈ w', now - t < d := by
    intro t ht
    cases w' with
    | nil => cases ht
    | cons first' ts =>
      obtain rfl : first' = first := by simpa using hfirst
      have hpair := List.pairwise_cons.mp ((hsorted.sublist hsub).sublist hleft)
      rcases List.mem_cons.mp ht with rfl | htail
      · omega
      · have := hpair.1 t htail
        omega
  have hle := (hkept.young (hleft.trans hsub) hyoung).length_le
  simp only [List.length_append, List.length_singleton] at hlen
  omega

end Window
