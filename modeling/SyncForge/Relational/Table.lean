import Mathlib.Data.List.Nodup
import Mathlib.Data.List.Basic

/-!
# `Relational.Table` — a table with a unique key

A table is its rows in insertion order; the unique key is part of the type, so a table with two rows of one
key cannot be built. `upsert` is `INSERT … ON CONFLICT (key) DO UPDATE`: an existing row is overwritten in
place, a new one is appended. `get?` is the point query, and the lemmas below say how the two writes act on
it.
-/

namespace Relational

/-- Rows of type `R`, no two with the same `key`. -/
structure Table (R K : Type) (key : R → K) where
  rows : List R
  nodup : (rows.map key).Nodup

namespace Table

variable {R K : Type} {key : R → K} [DecidableEq K]

def empty : Table R K key := ⟨[], by simp⟩

/-- The row with key `k`. -/
def get? (t : Table R K key) (k : K) : Option R := t.rows.find? (fun r => key r = k)

/-- Overwrite the row with `r`'s key, or append `r`. -/
def put (key : R → K) (r : R) : List R → List R
  | [] => [r]
  | x :: xs => if key x = key r then r :: xs else x :: put key r xs

theorem map_put (r : R) (xs : List R) (hn : (xs.map key).Nodup) :
    (put key r xs).map key = if key r ∈ xs.map key then xs.map key else xs.map key ++ [key r] := by
  induction xs with
  | nil => simp [put]
  | cons x xs ih =>
    obtain ⟨hx, hn⟩ := List.nodup_cons.mp hn
    by_cases h : key x = key r
    · simp [put, h]
    · rw [put, if_neg h, List.map_cons, List.map_cons, ih hn]
      by_cases hm : key r ∈ xs.map key
      · rw [if_pos hm, if_pos (.tail _ hm)]
      · have hnot : key r ∉ key x :: xs.map key := by
          intro hc
          rcases List.mem_cons.mp hc with hc | hc
          · exact h hc.symm
          · exact hm hc
        rw [if_neg hm, if_neg hnot, List.cons_append]

theorem nodup_put (r : R) (xs : List R) (hn : (xs.map key).Nodup) : ((put key r xs).map key).Nodup := by
  rw [map_put r xs hn]
  split_ifs with h
  · exact hn
  · exact List.Nodup.append hn (List.nodup_singleton _) (by simpa using h)

/-- `INSERT … ON CONFLICT (key) DO UPDATE`. -/
def upsert (t : Table R K key) (r : R) : Table R K key := ⟨put key r t.rows, nodup_put r t.rows t.nodup⟩

/-- `DELETE … WHERE key = k`. -/
def delete (t : Table R K key) (k : K) : Table R K key :=
  ⟨t.rows.filter (fun r => key r ≠ k), (List.filter_sublist.map key).nodup t.nodup⟩

variable {t : Table R K key} {r x : R} {k : K}

/-! ## Reading -/

theorem get?_key (h : t.get? k = some r) : key r = k := by
  simpa using List.find?_some h

theorem mem_of_get? (h : t.get? k = some r) : r ∈ t.rows := List.mem_of_find?_eq_some h

theorem get?_of_mem (h : r ∈ t.rows) : t.get? (key r) = some r := by
  cases hg : t.get? (key r) with
  | some x =>
    have hk : key x = key r := get?_key hg
    rw [List.inj_on_of_nodup_map t.nodup (mem_of_get? hg) h hk]
  | none => exact absurd (List.find?_eq_none.mp hg r h) (by simp)

theorem filter_eq_singleton {p : R → Bool} (h : t.get? k = some r) (hp : p r = true)
    (hkey : ∀ x ∈ t.rows, p x = true → key x = k) : t.rows.filter p = [r] := by
  have hk : key r = k := get?_key h
  have hrow : ∀ x ∈ t.rows, p x = true → x = r := fun x hx hpx =>
    List.inj_on_of_nodup_map t.nodup hx (mem_of_get? h) ((hkey x hx hpx).trans hk.symm)
  have hnodup : (t.rows.filter p).Nodup := (t.nodup.of_map key).filter p
  have hmem : ∀ x, x ∈ t.rows.filter p ↔ x = r := by
    intro x
    rw [List.mem_filter]
    constructor
    · rintro ⟨hx, hpx⟩
      exact hrow x hx hpx
    · rintro rfl
      exact ⟨mem_of_get? h, hp⟩
  exact List.perm_singleton.mp ((List.perm_ext_iff_of_nodup hnodup (List.nodup_singleton r)).mpr
    (fun x => by rw [hmem, List.mem_singleton]))

/-! ## Writing -/

theorem mem_put {xs : List R} (hn : (xs.map key).Nodup) : x ∈ put key r xs ↔ x = r ∨ x ∈ xs ∧
    key x ≠ key r := by
  induction xs with
  | nil => simp [put]
  | cons y ys ih =>
    obtain ⟨hy, hn⟩ := List.nodup_cons.mp hn
    by_cases h : key y = key r
    · -- the row overwritten is `y`; no row after it has its key
      have hrest : ∀ z ∈ ys, key z ≠ key r :=
        fun z hz hzr => hy (List.mem_map.mpr ⟨z, hz, hzr.trans h.symm⟩)
      rw [put, if_pos h, List.mem_cons, List.mem_cons]
      constructor
      · rintro (hx | hx)
        · exact .inl hx
        · exact .inr ⟨.inr hx, hrest x hx⟩
      · rintro (hx | ⟨rfl | hx, hne⟩)
        · exact .inl hx
        · exact absurd h hne
        · exact .inr hx
    · rw [put, if_neg h, List.mem_cons, ih hn, List.mem_cons]
      constructor
      · rintro (rfl | hx | ⟨hx, hne⟩)
        · exact .inr ⟨.inl rfl, h⟩
        · exact .inl hx
        · exact .inr ⟨.inr hx, hne⟩
      · rintro (hx | ⟨hx | hx, hne⟩)
        · exact .inr (.inl hx)
        · exact .inl hx
        · exact .inr (.inr ⟨hx, hne⟩)

theorem mem_upsert : x ∈ (t.upsert r).rows ↔ x = r ∨ x ∈ t.rows ∧ key x ≠ key r := mem_put t.nodup

theorem mem_delete : x ∈ (t.delete k).rows ↔ x ∈ t.rows ∧ key x ≠ k := by
  simp [delete, List.mem_filter]

theorem get?_eq_none : t.get? k = none ↔ k ∉ t.rows.map key := by
  constructor
  · intro h hmem
    obtain ⟨r, hr, rfl⟩ := List.mem_map.mp hmem
    rw [get?_of_mem hr] at h
    cases h
  · intro h
    cases hrow : t.get? k with
    | none => rfl
    | some r =>
      refine absurd ?_ h
      rw [← get?_key hrow]
      exact List.mem_map_of_mem (mem_of_get? hrow)

theorem length_upsert : (t.upsert r).rows.length = if t.get? (key r) = none then t.rows.length + 1 else t.rows.length := by
  have hlen := congrArg List.length (map_put r t.rows t.nodup)
  rw [List.length_map] at hlen
  show (put key r t.rows).length = _
  by_cases hnew : t.get? (key r) = none
  · rw [if_neg (get?_eq_none.mp hnew)] at hlen
    rw [if_pos hnew, hlen]
    simp
  · rw [if_pos (not_not.mp (fun h => hnew (get?_eq_none.mpr h)))] at hlen
    rw [if_neg hnew, hlen, List.length_map]

@[simp] theorem get?_upsert_self : (t.upsert r).get? (key r) = some r :=
  get?_of_mem (mem_upsert.mpr (.inl rfl))

theorem get?_congr {t u : Table R K key} (h : ∀ x, key x = k → (x ∈ t.rows ↔ x ∈ u.rows)) :
    t.get? k = u.get? k := by
  cases ht : t.get? k with
  | some x =>
    have hk := get?_key ht
    rw [← hk, get?_of_mem ((h x hk).mp (mem_of_get? ht))]
  | none =>
    symm
    rw [get?, List.find?_eq_none]
    intro x hx hk
    have hk : key x = k := by simpa using hk
    have hxt := (h x hk).mpr hx
    exact absurd (List.find?_eq_none.mp ht x hxt) (by simpa using hk)

theorem get?_upsert_ne (h : k ≠ key r) : (t.upsert r).get? k = t.get? k := by
  apply get?_congr
  intro x hx
  rw [mem_upsert]
  constructor
  · rintro (rfl | ⟨hm, _⟩)
    · exact absurd hx.symm h
    · exact hm
  · intro hm
    exact .inr ⟨hm, hx ▸ h⟩

theorem get?_upsert : (t.upsert r).get? k = if k = key r then some r else t.get? k := by
  split_ifs with h
  · rw [h, get?_upsert_self]
  · exact get?_upsert_ne h

@[simp] theorem get?_delete_self : (t.delete k).get? k = none := by
  rw [get?, List.find?_eq_none]
  intro x hx
  simpa using (mem_delete.mp hx).2

theorem get?_delete_ne {k' : K} (h : k' ≠ k) : (t.delete k).get? k' = t.get? k' := by
  apply get?_congr
  intro x hx
  rw [mem_delete]
  exact ⟨fun hm => hm.1, fun hm => ⟨hm, hx ▸ h⟩⟩

/-! ## A part of the table -/

/-- The rows in `p`. -/
def restrict (t : Table R K key) (p : R → Bool) : Table R K key :=
  ⟨t.rows.filter p, (List.filter_sublist.map key).nodup t.nodup⟩

variable {p : R → Bool}

theorem get?_restrict (hp : ∀ x, key x = k → p x = true) : (t.restrict p).get? k = t.get? k := by
  apply get?_congr
  intro x hx
  show x ∈ t.rows.filter p ↔ x ∈ t.rows
  rw [List.mem_filter, hp x hx]
  simp only [and_true]

theorem filter_put {xs : List R} (hp : ∀ x, key x = key r → p x = p r) :
    (put key r xs).filter p = if p r then put key r (xs.filter p) else xs.filter p := by
  induction xs with
  | nil => cases hr : p r <;> simp [put, hr]
  | cons x xs ih =>
    by_cases hx : key x = key r
    · rw [put, if_pos hx]
      cases hr : p r <;> simp [put, hx, hp x hx, hr]
    · rw [put, if_neg hx]
      cases hr : p r <;> cases hpx : p x <;> simp [put, hx, hpx, hr, ih]

theorem restrict_upsert (hp : ∀ x, key x = key r → p x = true) :
    (t.upsert r).restrict p = (t.restrict p).upsert r := by
  have hr : p r = true := hp r rfl
  unfold restrict upsert
  simp only [filter_put (fun x hx => (hp x hx).trans hr.symm), hr, if_true]

theorem restrict_upsert_outside (hp : ∀ x, key x = key r → p x = false) :
    (t.upsert r).restrict p = t.restrict p := by
  have hr : p r = false := hp r rfl
  unfold restrict upsert
  simp only [filter_put (fun x hx => (hp x hx).trans hr.symm), hr, Bool.false_eq_true, if_false]

end Table

end Relational
