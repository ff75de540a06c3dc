import Mathlib.Data.List.Sort
import Mathlib.Order.Basic

/-!
# `Relational.Keyset` — paging through a sorted list by the last key seen

A page is the first so many entries after a cursor, and the cursor of the next page is the last key of this
one. The list is read anew for every page. Two facts make such a walk complete: an entry whose key is beyond
the cursor is among the entries after it, and an entry that does not fit on the page is beyond all that do.
-/

namespace Relational.Keyset

variable {α κ : Type} [DecidableEq κ] {key : α → κ}

def after (key : α → κ) (cursor : κ) (l : List α) : List α :=
  match l.dropWhile (fun a => key a ≠ cursor) with
  | [] => l
  | _ :: rest => rest

theorem after_suffix (cursor : κ) (l : List α) : after key cursor l <:+ l := by
  unfold after
  split
  · exact List.suffix_rfl
  · rename_i y rest hdrop
    exact (List.suffix_cons y rest).trans (hdrop ▸ List.dropWhile_suffix _)

theorem after_append {pre rest : List α} {a : α} (hpre : ∀ x ∈ pre, key x ≠ key a) :
    after key (key a) (pre ++ a :: rest) = rest := by
  have hdrop : (pre ++ a :: rest).dropWhile (fun x => key x ≠ key a) = a :: rest := by
    rw [List.dropWhile_append_of_pos (fun x hx => decide_eq_true (hpre x hx)), List.dropWhile_cons]
    simp
  unfold after
  rw [hdrop]

variable [LinearOrder κ] {l : List α} {a b : α}

theorem mem_after {cursor : κ} (hl : l.Pairwise (fun x y => key x < key y)) (ha : a ∈ l)
    (hcursor : cursor < key a) : a ∈ after key cursor l := by
  unfold after
  split
  · exact ha
  · rename_i y rest hdrop
    have hsplit := List.takeWhile_append_dropWhile (p := fun x => decide (key x ≠ cursor)) (l := l)
    rw [hdrop] at hsplit
    have hy : key y = cursor := by
      have hhead := List.head?_dropWhile_not (fun x => decide (key x ≠ cursor)) l
      rw [hdrop] at hhead
      simpa using hhead
    rw [← hsplit] at ha hl
    obtain ⟨_, htail, hbefore⟩ := List.pairwise_append.mp hl
    rcases List.mem_append.mp ha with h | h
    · -- what is before the cursor has smaller keys
      have hlt := hbefore a h y (.head _)
      rw [hy] at hlt
      exact absurd (lt_trans hcursor hlt) (lt_irrefl _)
    · rcases List.mem_cons.mp h with rfl | h
      · exact absurd (hy ▸ hcursor) (lt_irrefl _)
      · exact h

/-- **The page after a page** begins with what did not fit on it. -/
theorem after_last {rest : List α} {n : Nat} (hl : l.Pairwise (fun x y => key x < key y)) (hrest : rest <:+ l)
    (hlast : (rest.take n).getLast? = some a) : after key (key a) l = rest.drop n := by
  obtain ⟨pre, rfl⟩ := hrest
  have hpage : (rest.take n).dropLast ++ [a] = rest.take n := by
    rw [← List.dropLast_append_getLast? a hlast]
    simp
  have hsplit : pre ++ rest = (pre ++ (rest.take n).dropLast) ++ a :: rest.drop n := by
    calc pre ++ rest = pre ++ (rest.take n ++ rest.drop n) := by rw [List.take_append_drop]
      _ = pre ++ (((rest.take n).dropLast ++ [a]) ++ rest.drop n) := by rw [hpage]
      _ = _ := by simp
  rw [hsplit] at hl ⊢
  refine after_append (fun x hx hkey => ?_)
  have hlt := (List.pairwise_append.mp hl).2.2 x hx a (.head _)
  rw [hkey] at hlt
  exact lt_irrefl _ hlt

omit [DecidableEq κ] in
theorem lt_of_not_mem_take {n : Nat} (hl : l.Pairwise (fun x y => key x < key y)) (ha : a ∈ l)
    (hout : a ∉ l.take n) (hb : b ∈ l.take n) : key b < key a := by
  rw [← List.take_append_drop n l] at ha hl
  rcases List.mem_append.mp ha with h | h
  · exact absurd h hout
  · exact (List.pairwise_append.mp hl).2.2 b hb a h

end Relational.Keyset
