import Mathlib.Data.List.Basic
import Mathlib.Order.Lattice

/-!
# `Register.LastMax` — the last of the greatest

A register that is overwritten by everything that ranks at least as high as what it holds ends up with the
last of the highest-ranked elements written to it. `LastMax p rank xs x` says that `x` is that element of
`xs`, among those with `p`; the three rules say how it moves when the list grows at its end.
-/

namespace Register

variable {α R : Type} [LinearOrder R] {p : α → Prop} {rank : α → R} {xs : List α} {x y : α}

/-- Among the elements of `xs` with `p`, none ranks above `x`, and those after `x` rank below it. -/
def LastMax (p : α → Prop) (rank : α → R) (xs : List α) (x : α) : Prop :=
  ∃ pre post, xs = pre ++ x :: post ∧ p x ∧ (∀ y ∈ pre, p y → rank y ≤ rank x) ∧ ∀ y ∈ post, p y →
    rank y < rank x

namespace LastMax

theorem mem (h : LastMax p rank xs x) : x ∈ xs := by
  obtain ⟨pre, post, rfl, _⟩ := h
  exact List.mem_append_right _ (.head _)

theorem holds (h : LastMax p rank xs x) : p x := by
  obtain ⟨_, _, _, hp, _⟩ := h
  exact hp

theorem le (h : LastMax p rank xs x) (hy : y ∈ xs) (hp : p y) : rank y ≤ rank x := by
  obtain ⟨pre, post, rfl, _, hpre, hpost⟩ := h
  rcases List.mem_append.mp hy with hy | hy
  · exact hpre y hy hp
  · rcases List.mem_cons.mp hy with rfl | hy
    · exact le_rfl
    · exact (hpost y hy hp).le

theorem first (hnone : ∀ z ∈ xs, ¬ p z) (hp : p y) : LastMax p rank (xs ++ [y]) y :=
  ⟨xs, [], rfl, hp, fun z hz hpz => absurd hpz (hnone z hz), nofun⟩

/-- An element that ranks lower, or is none of `p`'s, changes nothing. -/
theorem keep (h : LastMax p rank xs x) (hlt : p y → rank y < rank x) : LastMax p rank (xs ++ [y]) x := by
  obtain ⟨pre, post, rfl, hp, hpre, hpost⟩ := h
  refine ⟨pre, post ++ [y], by rw [List.append_assoc, List.cons_append], hp, hpre, fun z hz hpz => ?_⟩
  rcases List.mem_append.mp hz with hz | hz
  · exact hpost z hz hpz
  · rw [List.mem_singleton.mp hz] at hpz ⊢
    exact hlt hpz

theorem take (h : LastMax p rank xs x) (hp : p y) (hle : rank x ≤ rank y) : LastMax p rank (xs ++ [y]) y :=
  ⟨xs, [], rfl, hp, fun _ hz hpz => (h.le hz hpz).trans hle, nofun⟩

/-- There is only one. -/
theorem unique (hx : LastMax p rank xs x) (hy : LastMax p rank xs y) : x = y := by
  obtain ⟨pre, post, rfl, hpx, hpre, hpost⟩ := hx
  obtain ⟨pre', post', heq, hpy, hpre', hpost'⟩ := hy
  rcases List.append_eq_append_iff.mp heq with ⟨as, hpre'eq, hcons⟩ | ⟨as, hpreeq, hcons⟩
  · cases as with
    | nil => exact (List.cons.inj hcons).1
    | cons a as =>
      -- `x` stands before `y`, so each ranks below the other
      obtain ⟨rfl, hpost_eq⟩ := List.cons.inj hcons
      have hle := hpre' x (by rw [hpre'eq]; exact List.mem_append_right _ (.head _)) hpx
      have hlt := hpost y (by rw [hpost_eq]; exact List.mem_append_right _ (.head _)) hpy
      exact absurd hle (not_le.mpr hlt)
  · cases as with
    | nil => exact (List.cons.inj hcons).1.symm
    | cons a as =>
      obtain ⟨rfl, hpost_eq⟩ := List.cons.inj hcons
      have hle := hpre y (by rw [hpreeq]; exact List.mem_append_right _ (.head _)) hpy
      have hlt := hpost' x (by rw [hpost_eq]; exact List.mem_append_right _ (.head _)) hpx
      exact absurd hle (not_le.mpr hlt)

end LastMax

end Register
