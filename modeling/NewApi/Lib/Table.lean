import Mathlib.Algebra.BigOperators.Group.List.Basic
import Mathlib.Algebra.Order.Ring.Int
import Mathlib.Data.List.Nodup

/-!
# Tables with a primary key

A table is a list of rows no two of which have the same key. `find` is the
select by key, `save` the update by key, which leaves a table without the key
alone, `insert` the insert, which a row with the same key refuses, `put` the
insert that replaces such a row, `remove` the delete by key and `update` an
update of all rows that keeps the keys.
-/

/-- Rows with a unique key, in storage order. -/
structure Table {ρ κ : Type*} (key : ρ → κ) where
  rows : List ρ
  nodup : (rows.map key).Nodup

namespace Table

variable {ρ κ : Type*} [DecidableEq κ] {key : ρ → κ}

/-- Whether a lookup found a row with a property. -/
instance decidableFound {p : ρ → Prop} [DecidablePred p] :
    ∀ found : Option ρ, Decidable (∃ r, found = some r ∧ p r)
  | none => isFalse (by simp)
  | some r => decidable_of_iff (p r) (by simp)

def empty : Table key := ⟨[], List.nodup_nil⟩

def find (t : Table key) (k : κ) : Option ρ := t.rows.find? fun r => key r = k

theorem map_save_key (r : ρ) (rows : List ρ) :
    (rows.map fun x => if key x = key r then r else x).map key = rows.map key := by
  rw [List.map_map]
  refine List.map_congr_left ?_
  intro x _
  by_cases h : key x = key r <;> simp [h]

/-- The table with the row of the same key replaced. -/
def save (t : Table key) (r : ρ) : Table key where
  rows := t.rows.map fun x => if key x = key r then r else x
  nodup := by rw [map_save_key]; exact t.nodup

/-- The table with one more row, unless its key is taken. -/
def insert (t : Table key) (r : ρ) : Option (Table key) :=
  if h : key r ∈ t.rows.map key then none
  else some ⟨r :: t.rows, by simpa using ⟨by simpa using h, t.nodup⟩⟩

variable {t u : Table key} {k : κ} {r x : ρ} {p : ρ → Bool}

theorem find_key (h : t.find k = some r) : key r = k := by
  simpa using List.find?_some h

theorem find_mem (h : t.find k = some r) : r ∈ t.rows := List.mem_of_find?_eq_some h

theorem find_of_mem (h : r ∈ t.rows) : t.find (key r) = some r := by
  obtain ⟨rows, nodup⟩ := t
  simp only [find] at h ⊢
  induction rows with
  | nil => cases h
  | cons x xs ih =>
    rw [List.map_cons, List.nodup_cons] at nodup
    rcases List.mem_cons.mp h with rfl | hx
    · simp
    · have hne : key x ≠ key r := fun he => nodup.1 (he ▸ List.mem_map_of_mem hx)
      rw [List.find?_cons_of_neg (by simpa using hne)]
      exact ih nodup.2 hx

theorem find_save (t : Table key) (r : ρ) (k : κ) :
    (t.save r).find k = if key r = k then (t.find k).map fun _ => r else t.find k := by
  obtain ⟨rows, nodup⟩ := t
  simp only [find, save]
  clear nodup
  induction rows with
  | nil => simp
  | cons x xs ih =>
    by_cases hr : key r = k
    · simp only [hr, if_true] at ih ⊢
      by_cases hx : key x = k
      · simp [hx, hr]
      · simp [hx, ih]
    · simp only [hr, if_false] at ih ⊢
      by_cases hx : key x = key r
      · have hxk : key x ≠ k := fun h => hr (hx ▸ h)
        simp only [List.map_cons, if_pos hx, List.find?_cons, hr, hxk, decide_false, ih]
      · simp [hx, ih, List.find?_cons]

theorem find_save_at {r' : ρ} (h : t.find k = some r') (hk : key r = k) (k' : κ) :
    (t.save r).find k' = if k = k' then some r else t.find k' := by
  subst hk
  rw [find_save]
  split
  next heq => rw [← heq, h]; rfl
  next => rfl

theorem find_save_self {r' : ρ} (h : t.find (key r) = some r') :
    (t.save r).find (key r) = some r := by simp [find_save, h]

theorem find_save_of_ne (h : key r ≠ k) : (t.save r).find k = t.find k := by simp [find_save, h]

/-- A row of the table after a save is the saved row at its key, and the old one elsewhere. -/
theorem exists_find_save {P : ρ → Prop} {k' : κ} {y : ρ} (h : t.find k = some x) (hk : key r = k)
    (hy : t.find k' = some y) (hsaved : k = k' → x = y → P r) (hkept : k ≠ k' → P y) :
    ∃ z, (t.save r).find k' = some z ∧ P z := by
  rw [find_save_at h hk]
  split
  next heq =>
    subst heq
    exact ⟨r, rfl, hsaved rfl (Option.some.inj (h.symm.trans hy))⟩
  next hne => exact ⟨y, hy, hkept hne⟩

theorem mem_save (h : x ∈ (t.save r).rows) : x = r ∨ (x ∈ t.rows ∧ key x ≠ key r) := by
  obtain ⟨y, hy, rfl⟩ := List.mem_map.mp h
  by_cases hk : key y = key r
  · exact .inl (by simp [hk])
  · exact .inr (by simp [hk, hy])

theorem forall_save {P : ρ → Prop} (hr : P r) (ht : ∀ y ∈ t.rows, key y ≠ key r → P y) :
    ∀ y ∈ (t.save r).rows, P y := by
  intro y hy
  rcases mem_save hy with rfl | ⟨hold, hne⟩
  · exact hr
  · exact ht y hold hne

theorem mem_save_of_ne (h : x ∈ t.rows) (hk : key x ≠ key r) :
    x ∈ (t.save r).rows := List.mem_map.mpr ⟨x, h, by simp [hk]⟩

theorem save_self (h : t.find (key r) = some r) : t.save r = t := by
  have hrows : (t.rows.map fun x => if key x = key r then r else x) = t.rows.map id := by
    refine List.map_congr_left ?_
    intro x hx
    by_cases hk : key x = key r
    · have hfind := find_of_mem hx
      rw [hk, h] at hfind
      simpa [hk] using Option.some.inj hfind
    · simp [hk]
  obtain ⟨rows, nodup⟩ := t
  simpa [save] using hrows

theorem map_save_rest {rows : List ρ} (hk : key x = key r) (hx : key x ∉ rows.map key) :
    (rows.map fun z => if key z = key r then r else z) = rows := by
  have hrest : (rows.map fun z => if key z = key r then r else z) = rows.map id := by
    refine List.map_congr_left ?_
    intro z hz
    have hne : key z ≠ key r := fun he => hx (by rw [hk, ← he]; exact List.mem_map_of_mem hz)
    simp [hne]
  rw [hrest, List.map_id]

theorem rows_save (h : t.find (key r) = some x) :
    ∃ before after, t.rows = before ++ x :: after ∧ (t.save r).rows = before ++ r :: after := by
  have hk := find_key h
  obtain ⟨before, after, hrows⟩ := List.append_of_mem (find_mem h)
  have hnodup := t.nodup
  rw [hrows, List.map_append, List.map_cons, List.nodup_middle, List.nodup_cons, List.mem_append,
    not_or] at hnodup
  refine ⟨before, after, hrows, ?_⟩
  simp only [save, hrows, List.map_append, List.map_cons, if_pos hk,
    map_save_rest hk hnodup.1.1, map_save_rest hk hnodup.1.2]

theorem countP_save (h : t.find (key r) = some x)
    (hx : p x = true) (hr : p r = false) : (t.save r).rows.countP p + 1 = t.rows.countP p := by
  obtain ⟨before, after, ht, hs⟩ := rows_save h
  rw [ht, hs]
  simp [hx, hr, Nat.add_assoc]

theorem sum_save (f : ρ → Int) (h : t.find (key r) = some x) :
    ((t.save r).rows.map f).sum = (t.rows.map f).sum - f x + f r := by
  obtain ⟨before, after, ht, hs⟩ := rows_save h
  rw [ht, hs]
  simp only [List.map_append, List.map_cons, List.sum_append, List.sum_cons]
  omega

theorem countP_key (t : Table key) (k : κ) :
    t.rows.countP (fun r => key r = k) = if (t.find k).isSome then 1 else 0 := by
  have hcount : t.rows.countP (fun r => key r = k) = (t.rows.map key).count k := by
    rw [List.count, List.countP_map]
    rfl
  have hmem : (t.find k).isSome ↔ k ∈ t.rows.map key := by simp [find]
  rw [hcount]
  split
  next h => exact List.count_eq_one_of_mem t.nodup (hmem.mp h)
  next h => exact List.count_eq_zero_of_not_mem (mt hmem.mpr h)

theorem rows_insert (h : t.insert r = some u) : u.rows = r :: t.rows := by
  unfold insert at h
  split at h
  · cases h
  · cases h
    rfl

theorem forall_insert {P : ρ → Prop} (h : t.insert r = some u) (hr : P r)
    (ht : ∀ y ∈ t.rows, P y) : ∀ y ∈ u.rows, P y := by
  rw [rows_insert h]
  exact List.forall_mem_cons.mpr ⟨hr, ht⟩

theorem insert_isSome (h : t.find (key r) = none) : (t.insert r).isSome := by
  have hfree : key r ∉ t.rows.map key := by
    intro hmem
    obtain ⟨x, hx, hk⟩ := List.mem_map.mp hmem
    have := find_of_mem hx
    rw [hk, h] at this
    cases this
  simp [insert, hfree]

theorem find_of_insert (h : t.insert r = some u) : t.find (key r) = none := by
  rw [insert] at h
  split at h
  · cases h
  next hnew =>
  rw [find, List.find?_eq_none]
  intro x hx
  have hne : key x ≠ key r := fun he => hnew (he ▸ List.mem_map_of_mem hx)
  simpa using hne

theorem find_insert (h : t.insert r = some u) (k : κ) :
    u.find k = if key r = k then some r else t.find k := by
  unfold insert at h
  split at h
  · cases h
  · cases h
    by_cases hk : key r = k <;> simp [find, hk]

theorem find_after_insert (h : t.insert r = some u) (hx : t.find k = some x) :
    u.find k = some x := by
  rw [find_insert h, if_neg, hx]
  rintro rfl
  rw [find_of_insert h] at hx
  cases hx

/-! ## Updates and deletes -/

/-- Every row is replaced by its image, which has the same key. -/
def update (t : Table key) (f : ρ → ρ) (h : ∀ r, key (f r) = key r) : Table key where
  rows := t.rows.map f
  nodup := by
    rw [List.map_map, show key ∘ f = key from funext h]
    exact t.nodup

theorem find_update (t : Table key) (f : ρ → ρ) (h : ∀ r, key (f r) = key r) (k : κ) :
    (t.update f h).find k = (t.find k).map f := by
  simp only [find, update]
  induction t.rows with
  | nil => rfl
  | cons x xs ih =>
    by_cases hk : key x = k
    · simp [h, hk]
    · simp [h, hk, ih]

omit [DecidableEq κ] in
theorem mem_update {f : ρ → ρ} {h : ∀ r, key (f r) = key r} :
    x ∈ (t.update f h).rows ↔ ∃ y ∈ t.rows, f y = x := List.mem_map

/-- The rows that meet a condition are replaced by their image. -/
def updateWhere (t : Table key) (p : ρ → Bool) (f : ρ → ρ) (h : ∀ r, key (f r) = key r) :
    Table key :=
  t.update (fun r => if p r then f r else r) fun r => by
    split
    · exact h r
    · rfl

omit [DecidableEq κ] in
theorem mem_updateWhere {f : ρ → ρ} (k : ∀ r, key (f r) = key r := by intro _; rfl)
    (h : x ∈ (t.updateWhere p f k).rows) :
    (x ∈ t.rows ∧ p x = false) ∨ ∃ y ∈ t.rows, p y = true ∧ x = f y := by
  obtain ⟨y, hy, rfl⟩ := mem_update.mp h
  cases hp : p y with
  | true => exact .inr ⟨y, hy, hp, by simp⟩
  | false => exact .inl (by simpa [hp] using hy)

/-- The rows that meet a condition are deleted. -/
def deleteWhere (t : Table key) (p : ρ → Bool) : Table key where
  rows := t.rows.filter fun r => !p r
  nodup := t.nodup.sublist (List.filter_sublist.map _)

omit [DecidableEq κ] in
theorem mem_deleteWhere :
    x ∈ (t.deleteWhere p).rows ↔ x ∈ t.rows ∧ p x = false := by simp [deleteWhere]

theorem find_deleteWhere (t : Table key) (p : ρ → Bool) (k : κ) :
    (t.deleteWhere p).find k = (t.find k).filter fun r => !p r := by
  cases h : (t.deleteWhere p).find k with
  | some r =>
    obtain ⟨hmem, hp⟩ := mem_deleteWhere.mp (find_mem h)
    have hfind := find_of_mem hmem
    rw [find_key h] at hfind
    rw [hfind, Option.filter_some, hp]
    rfl
  | none =>
    cases hfind : t.find k with
    | none => rfl
    | some r =>
      cases hp : p r with
      | true => rw [Option.filter_some, hp]; rfl
      | false =>
        have hkept := find_of_mem (mem_deleteWhere.mpr ⟨find_mem hfind, hp⟩)
        rw [find_key hfind, h] at hkept
        cases hkept

def remove (t : Table key) (k : κ) : Table key where
  rows := t.rows.filter fun r => key r ≠ k
  nodup := t.nodup.sublist (List.filter_sublist.map _)

theorem mem_remove : x ∈ (t.remove k).rows ↔ x ∈ t.rows ∧ key x ≠ k := by simp [remove]

theorem find_remove (t : Table key) (k k' : κ) :
    (t.remove k).find k' = if k = k' then none else t.find k' := by
  rw [find, find, remove, List.find?_filter]
  by_cases hk : k = k'
  · subst hk
    simp
  rw [if_neg hk]
  congr 1
  funext r
  by_cases hr : key r = k' <;> simp [hr, Ne.symm hk]

/-- The table with the row, in the place of a row with the same key. -/
def put (t : Table key) (r : ρ) : Table key where
  rows := r :: (t.remove (key r)).rows
  nodup := by
    rw [List.map_cons, List.nodup_cons]
    refine ⟨fun h => ?_, (t.remove (key r)).nodup⟩
    obtain ⟨x, hx, hk⟩ := List.mem_map.mp h
    exact (mem_remove.mp hx).2 hk

theorem find_put (t : Table key) (r : ρ) (k : κ) :
    (t.put r).find k = if key r = k then some r else t.find k := by
  change (r :: (t.remove (key r)).rows).find? _ = _
  by_cases hk : key r = k
  · simp [hk]
  · rw [List.find?_cons_of_neg (by simpa using hk), if_neg hk]
    exact (find_remove t (key r) k).trans (if_neg hk)

theorem mem_put : x ∈ (t.put r).rows ↔ x = r ∨ x ∈ t.rows ∧ key x ≠ key r := by
  rw [put, List.mem_cons, mem_remove]

instance decidableEq [DecidableEq ρ] : DecidableEq (Table key) := fun t u =>
  decidable_of_iff (t.rows = u.rows)
    ⟨fun h => by cases t; cases u; cases h; rfl, fun h => congrArg rows h⟩

theorem eq_of_mem {y : ρ} (hx : x ∈ t.rows) (hy : y ∈ t.rows) (h : key x = key y) : x = y := by
  have hfind := find_of_mem hx
  rw [h, find_of_mem hy] at hfind
  exact (Option.some.inj hfind).symm

theorem rows_perm (h : ∀ k, t.find k = u.find k) : t.rows.Perm u.rows := by
  refine (List.perm_ext_iff_of_nodup t.nodup.of_map u.nodup.of_map).mpr fun x => ⟨fun hx => ?_,
    fun hx => ?_⟩
  · exact find_mem ((h (key x)).symm.trans (find_of_mem hx))
  · exact find_mem ((h (key x)).trans (find_of_mem hx))

end Table
