import Mathlib.Data.List.Basic
import Mathlib.Logic.Function.Basic
import Mathlib.Tactic.Linarith

/-!
# `Relay.Queue` — messages passed back and forth between two sides

A relay takes messages off one queue in order. It drops a message, or answers it with one of the other side,
unless its content is the one it sent to that side last. While the queue is in two blocks this stops: an
answer costs one unit of `potential`, dropping a message nothing, and a new message brings `4 n + 1` units.
-/

namespace Relay

open Function (update update_of_ne update_self)

inductive Side where
  | a | b
deriving DecidableEq, Repr

namespace Side

def other : Side → Side
  | .a => .b
  | .b => .a

@[simp] theorem other_other (x : Side) : x.other.other = x := by
  cases x <;> rfl

@[simp] theorem other_ne (x : Side) : x.other ≠ x := by
  cases x <;> decide

@[simp] theorem ne_other (x : Side) : x ≠ x.other := by
  cases x <;> decide

theorem eq_or_other (x y : Side) : y = x ∨ y = x.other := by
  cases x <;> cases y <;> decide

theorem eq_other_of_ne {x y : Side} (h : y ≠ x) : y = x.other := (eq_or_other x y).resolve_left h

end Side

variable {H : Type} {x : Side} {content : H} {n : Nat}

/-- All messages come from `x`. -/
def AllFrom (x : Side) (q : List (Side × H)) : Prop := ∀ m ∈ q, m.1 = x

def Ordered (q : List (Side × H)) : Prop :=
  ∃ x lead rest, q = lead ++ rest ∧ AllFrom x lead ∧ AllFrom x.other rest

/-- No message of `x` waits in front of one of the other side. -/
def Open (x : Side) (q : List (Side × H)) : Prop := q.Pairwise (fun m m' => m.1 = x → m'.1 = x)

def lead : List (Side × H) → List (Side × H)
  | [] => []
  | m :: q => m :: q.takeWhile (fun m' => m'.1 = m.1)

/-! ## The leading block -/

theorem lead_length_le (q : List (Side × H)) : (lead q).length ≤ q.length := by
  cases q with
  | nil => exact le_rfl
  | cons m q =>
    have h : (q.takeWhile (fun m' => m'.1 = m.1)).length ≤ q.length := (List.takeWhile_prefix _).length_le
    show (q.takeWhile _).length + 1 ≤ q.length + 1
    omega

theorem AllFrom.cons {x : Side} {content : H} {q : List (Side × H)} (h : AllFrom x q) :
    AllFrom x ((x, content) :: q) := by
  intro m hm
  rcases List.mem_cons.mp hm with rfl | hm
  · rfl
  · exact h m hm

theorem AllFrom.snoc {x : Side} {content : H} {q : List (Side × H)} (h : AllFrom x q) :
    AllFrom x (q ++ [(x, content)]) := by
  intro m hm
  rcases List.mem_append.mp hm with hm | hm
  · exact h m hm
  · rw [List.mem_singleton.mp hm]

theorem lead_append {l r : List (Side × H)} (hl : AllFrom x l) (hne : l ≠ []) (hr : AllFrom x.other r) :
    lead (l ++ r) = l := by
  cases l with
  | nil => exact absurd rfl hne
  | cons m l =>
    have hm : m.1 = x := hl m (by simp)
    show m :: (l ++ r).takeWhile (fun m' => m'.1 = m.1) = m :: l
    have htail : (l ++ r).takeWhile (fun m' => m'.1 = m.1) = l := by
      rw [List.takeWhile_append_of_pos]
      · have hnil : r.takeWhile (fun m' => m'.1 = m.1) = [] := by
          cases r with
          | nil => rfl
          | cons m' r =>
            have hm' : m'.1 = x.other := hr m' (by simp)
            apply List.takeWhile_cons_of_neg
            rw [decide_eq_true_eq, hm', hm]
            exact x.other_ne
        rw [hnil, List.append_nil]
      · intro m' hm'
        rw [decide_eq_true_eq, hm]
        exact hl m' (.tail _ hm')
    rw [htail]

theorem Ordered.cons {m : Side × H} {q : List (Side × H)} (h : Ordered (m :: q)) :
    ∃ l r, q = l ++ r ∧ AllFrom m.1 l ∧ AllFrom m.1.other r := by
  obtain ⟨x, l, r, hq, hl, hr⟩ := h
  cases l with
  | nil =>
    -- the first block is empty: the queue is one block of the other side
    rw [List.nil_append] at hq
    subst hq
    have hm : m.1 = x.other := hr m (by simp)
    refine ⟨q, [], (List.append_nil q).symm, fun m' hm' => ?_, fun m' hm' => by cases hm'⟩
    rw [hm]
    exact hr m' (.tail _ hm')
  | cons m0 l =>
    cases hq
    have hm : m.1 = x := hl m (by simp)
    rw [hm]
    exact ⟨l, r, rfl, fun m' hm' => hl m' (.tail _ hm'), hr⟩

theorem ordered_nil : Ordered ([] : List (Side × H)) :=
    ⟨.a, [], [], rfl, by simp [AllFrom], by simp [AllFrom]⟩

theorem Ordered.tail {m : Side × H} {q : List (Side × H)} (h : Ordered (m :: q)) : Ordered q := by
  obtain ⟨l, r, rfl, hl, hr⟩ := h.cons
  exact ⟨m.1, l, r, rfl, hl, hr⟩

variable {q : List (Side × H)}

theorem Open.ordered (h : Open x q) (content : H) : Ordered (q ++ [(x, content)]) := by
  have hsplit : ∃ l r, q = l ++ r ∧ AllFrom x.other l ∧ AllFrom x r := by
    induction q with
    | nil => exact ⟨[], [], rfl, by simp [AllFrom], by simp [AllFrom]⟩
    | cons m q ih =>
      obtain ⟨hm, hq⟩ := List.pairwise_cons.mp h
      by_cases hx : m.1 = x
      · refine ⟨[], m :: q, rfl, by simp [AllFrom], fun m' hm' => ?_⟩
        rcases List.mem_cons.mp hm' with rfl | hm'
        · exact hx
        · exact hm m' hm' hx
      · obtain ⟨l, r, rfl, hl, hr⟩ := ih hq
        refine ⟨m :: l, r, rfl, fun m' hm' => ?_, hr⟩
        rcases List.mem_cons.mp hm' with rfl | hm'
        · exact Side.eq_other_of_ne hx
        · exact hl m' hm'
  obtain ⟨l, r, rfl, hl, hr⟩ := hsplit
  refine ⟨x.other, l, r ++ [(x, content)], by rw [List.append_assoc], hl, ?_⟩
  rw [Side.other_other]
  exact hr.snoc

theorem Ordered.answer (h : Ordered ((x, content) :: q)) (reply : H) : Ordered (q ++ [(x.other, reply)]) := by
  obtain ⟨l, r, rfl, hl, hr⟩ := h.cons
  exact ⟨x, l, r ++ [(x.other, reply)], by rw [List.append_assoc], hl, hr.snoc⟩

def Remembered (last : Side → Option H) (q : List (Side × H)) : Prop := ∃ m ∈ q, last m.1 = some m.2

theorem remembered_answer {last : Side → Option H} {l : List (Side × H)} (hl : AllFrom x l)
    (hnew : last x ≠ some content) (reply : H) : Remembered (update last x.other (some reply)) l ↔
    Remembered last ((x, content) :: l) := by
  constructor
  · rintro ⟨m, hm, hlast⟩
    refine ⟨m, .tail _ hm, ?_⟩
    rwa [update_of_ne (by rw [hl m hm]; exact x.ne_other)] at hlast
  · rintro ⟨m, hm, hlast⟩
    rcases List.mem_cons.mp hm with rfl | hm
    · exact absurd hlast hnew
    · refine ⟨m, hm, ?_⟩
      rwa [update_of_ne (by rw [hl m hm]; exact x.ne_other)]

/-! ## Rank and potential -/

variable [DecidableEq H]

instance (last : Side → Option H) (q : List (Side × H)) : Decidable (Remembered last q) :=
  inferInstanceAs (Decidable (∃ m ∈ q, last m.1 = some m.2))

def rank (last : Side → Option H) (q : List (Side × H)) : Nat :=
  if Remembered last (lead q) then (lead q).length else (lead q).length + q.length

def potential (n : Nat) (last : Side → Option H) (q : List (Side × H)) :
    Nat := q.length * (2 * n + 1) + rank last q

theorem rank_le (last : Side → Option H) (q : List (Side × H)) : rank last q ≤ 2 * q.length := by
  have h := lead_length_le q
  unfold rank
  split_ifs <;> omega

/-! ## A new message -/

theorem potential_post (last : Side → Option H) (m : Side × H)
    (hn : q.length + 1 ≤ n) : potential n last (q ++ [m]) ≤ potential n last q + (4 * n + 1) := by
  have hrank := rank_le last (q ++ [m])
  rw [List.length_append, List.length_singleton] at hrank
  unfold potential
  rw [List.length_append, List.length_singleton, Nat.add_mul, Nat.one_mul]
  omega

/-! ## A message is dropped -/

theorem potential_drop (last : Side → Option H) (m : Side × H)
    (hn : q.length + 1 ≤ n) : potential n last q ≤ potential n last (m :: q) := by
  have hrank := rank_le last q
  unfold potential
  rw [List.length_cons, Nat.add_mul, Nat.one_mul]
  omega

/-! ## A message is answered -/

section Answer

variable {last : Side → Option H} {x : Side} {content : H} {q : List (Side × H)}

theorem rank_answer_last {r : List (Side × H)} (hr : AllFrom x.other r) (hnew : last x ≠ some content)
    (reply : H) : rank (update last x.other (some reply)) (r ++ [(x.other, reply)]) + 1
    = rank last ((x, content) :: r) := by
  have hlead : lead ((x, content) :: r) = [(x, content)] :=
    lead_append (l := [(x, content)]) (by simp [AllFrom]) (List.cons_ne_nil _ _) hr
  have hlead' : lead (r ++ [(x.other, reply)]) = r ++ [(x.other, reply)] := by
    have hall : AllFrom x.other (r ++ [(x.other, reply)]) := AllFrom.snoc hr
    have h := lead_append (r := ([] : List (Side × H))) hall (by simp) (by simp [AllFrom])
    rwa [List.append_nil] at h
  have hold : ¬ Remembered last [(x, content)] := by
    rintro ⟨m, hm, hlast⟩
    rw [List.mem_singleton.mp hm] at hlast
    exact hnew hlast
  have hmem : Remembered (update last x.other (some reply)) (r ++ [(x.other, reply)]) :=
    ⟨(x.other, reply), by simp, update_self _ _ _⟩
  rw [rank, rank, hlead', hlead, if_pos hmem, if_neg hold]
  simp only [List.length_append, List.length_cons, List.length_nil]
  omega

theorem rank_answer (h : Ordered ((x, content) :: q)) (hnew : last x ≠ some content) (reply : H) :
    rank (update last x.other (some reply)) (q ++ [(x.other, reply)]) + 1
    = rank last ((x, content) :: q) := by
  obtain ⟨l, r, rfl, hl, hr⟩ := h.cons
  by_cases hnil : l = []
  · subst hnil
    exact rank_answer_last hr hnew reply
  · -- the leading block gets shorter by a message that was not the remembered one
    have hlead : lead ((x, content) :: (l ++ r)) = (x, content) :: l :=
      lead_append (l := (x, content) :: l) (AllFrom.cons hl) (List.cons_ne_nil _ _) hr
    have hlead' : lead (l ++ r ++ [(x.other, reply)]) = l := by
      rw [List.append_assoc]
      exact lead_append hl hnil (AllFrom.snoc hr)
    have hsame := remembered_answer hl hnew reply
    rw [rank, rank, hlead', hlead]
    by_cases hrem : Remembered last ((x, content) :: l)
    · rw [if_pos hrem, if_pos (hsame.mpr hrem)]
      rfl
    · rw [if_neg hrem, if_neg (fun h => hrem (hsame.mp h))]
      simp only [List.length_append, List.length_cons, List.length_nil]
      omega

theorem potential_answer (h : Ordered ((x, content) :: q)) (hnew : last x ≠ some content) (reply : H)
    (n : Nat) : potential n (update last x.other (some reply)) (q ++ [(x.other, reply)]) + 1
      = potential n last ((x, content) :: q) := by
  have hrank := rank_answer h hnew reply
  unfold potential
  rw [List.length_append, List.length_singleton, List.length_cons]
  omega

end Answer

end Relay
