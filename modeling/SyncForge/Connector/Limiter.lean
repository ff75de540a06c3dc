import Mathlib.Algebra.Order.Field.Rat
import Mathlib.Data.Rat.Cast.Order
import Mathlib.Tactic.Linarith
import Mathlib.Tactic.FieldSimp

/-!
# `Connector.Limiter` — pacing the requests to a provider

`internal/connectors/ratelimit.go`: a token bucket. Token counts and times (in seconds) are exact rationals
here, where the code has
`float64` and whole nanoseconds. A call's grant and the level it leaves add up to the level it found
(`take_taken`).
-/

namespace SyncForge

structure Limiter where
  rate : ℚ
  capacity : ℚ
  tokens : ℚ
  last : ℚ

namespace Limiter

def newLimiter (perMinute : Int) (now : ℚ) : Limiter :=
  { rate := perMinute / 60, capacity := perMinute, tokens := perMinute, last := now }

def level (l : Limiter) (now : ℚ) : ℚ := min l.capacity (l.tokens + (now - l.last) * l.rate)

/-- `take`: the grant and the wait, and the bucket after it. -/
def take (l : Limiter) (n now : ℚ) : (Bool × ℚ) × Limiter :=
  let l := { l with tokens := l.level now, last := now }
  if l.tokens ≥ n then ((true, 0), { l with tokens := l.tokens - n })
  else ((false, (n - l.tokens) / l.rate), l)

/-- The bucket after `take(1)` calls at these times. -/
def calls (l : Limiter) : List ℚ → Limiter
  | [] => l
  | t :: ts => (l.take 1 t).2.calls ts

def grants (l : Limiter) : List ℚ → List ℚ
  | [] => []
  | t :: ts => (if (l.take 1 t).1.1 then [t] else []) ++ (l.take 1 t).2.grants ts

variable {l : Limiter} {t a b : ℚ} {ts : List ℚ}

structure Sound (l : Limiter) : Prop where
  rate : 0 < l.rate
  capacity : 1 ≤ l.capacity
  tokens : 0 ≤ l.tokens

/-- What a call at `t` leaves of the bucket `l`. -/
structure Taken (l : Limiter) (t : ℚ) (granted : Bool) (l' : Limiter) : Prop where
  sound : l'.Sound
  rate : l'.rate = l.rate
  capacity : l'.capacity = l.capacity
  last : l'.last = t
  tokens : (if granted then 1 else 0) + l'.tokens = l.level t

/-- **One call**: a token that is granted is taken from the level, and nothing else changes. -/
theorem take_taken (hl : l.Sound) (ht : l.last ≤ t) : Taken l t (l.take 1 t).1.1 (l.take 1 t).2 := by
  have hrefill : 0 ≤ (t - l.last) * l.rate := mul_nonneg (sub_nonneg.mpr ht) hl.rate.le
  have hlevel : 0 ≤ l.level t := le_min (zero_le_one.trans hl.capacity) (add_nonneg hl.tokens hrefill)
  by_cases h : l.level t ≥ 1
  · have htake : l.take 1 t = ((true, 0), { l with tokens := l.level t - 1, last := t }) := if_pos h
    rw [htake]
    exact ⟨⟨hl.rate, hl.capacity, sub_nonneg.mpr h⟩, rfl, rfl,
      rfl, by rw [if_pos rfl]; exact add_sub_cancel _ _⟩
  · have htake : l.take 1 t = ((false, (1 - l.level t) / l.rate),
      { l with tokens := l.level t, last := t }) := if_neg h
    rw [htake]
    exact ⟨⟨hl.rate, hl.capacity, hlevel⟩, rfl, rfl, rfl, by rw [if_neg Bool.false_ne_true, zero_add]⟩

/-! ## Grants in a window -/

/-- How many of the grants are at times that `p` selects. -/
def granted (l : Limiter) (ts : List ℚ) (p : ℚ → Bool) : ℚ := ((l.grants ts).filter p).length

theorem granted_cons (p : ℚ → Bool) : l.granted (t :: ts) p =
    (if p t then if (l.take 1 t).1.1 then 1 else 0 else 0) + (l.take 1 t).2.granted ts p := by
  rw [granted, grants, List.filter_append, List.length_append, Nat.cast_add]
  congr 1
  cases hp : p t <;> cases (l.take 1 t).1.1 <;> simp [hp]

theorem granted_eq_zero {p : ℚ → Bool} (h : ∀ t ∈ ts, p t = false) : l.granted ts p = 0 := by
  induction ts generalizing l with
  | nil => rfl
  | cons t ts ih =>
    rw [granted_cons, h t (.head _), ih (fun u hu => h u (.tail _ hu)), if_neg Bool.false_ne_true, zero_add]

section

variable (hl : l.Sound)
include hl

/-- **From a call on**, the grants until `b` come out of the tokens there are and the refill until then. -/
theorem granted_le (hts : (l.last :: ts).Pairwise (· ≤ ·)) {p : ℚ → Bool} (hp : ∀ t, p t = true → t ≤ b)
    (hb : l.last ≤ b) : l.granted ts p ≤ l.tokens + (b - l.last) * l.rate := by
  have hbound : 0 ≤ l.tokens + (b - l.last) * l.rate :=
    add_nonneg hl.tokens (mul_nonneg (sub_nonneg.mpr hb) hl.rate.le)
  induction ts generalizing l with
  | nil => exact hbound
  | cons t ts ih =>
    obtain ⟨hlast, hts⟩ := List.pairwise_cons.mp hts
    by_cases htb : t ≤ b
    · have h := take_taken hl (hlast t (.head _))
      have hrest := ih h.sound (by rw [h.last]; exact hts) (by rw [h.last]; exact htb) 
        (add_nonneg h.sound.tokens (mul_nonneg (by rw [h.last]; exact sub_nonneg.mpr htb) h.sound.rate.le))
      rw [h.last, h.rate] at hrest
      have hlevel : l.level t ≤ l.tokens + (t - l.last) * l.rate := min_le_right _ _
      have htokens := h.tokens
      have hgrant : (if p t then if (l.take 1 t).1.1 then (1 : ℚ) else 0 else 0) ≤ if (l.take 1 t).1.1 then 1 else 0 := by
        split_ifs <;> norm_num
      rw [granted_cons]
      linarith
    · -- nothing after `t` is counted
      rw [granted_eq_zero (fun u hu => ?_)]
      · exact hbound
      · have htu : t ≤ u := by
          rcases List.mem_cons.mp hu with rfl | hu
          · exact le_rfl
          · exact (List.pairwise_cons.mp hts).1 u hu
        exact Bool.eq_false_iff.mpr (fun hpu => htb (htu.trans (hp u hpu)))

/-- **In a window** the level found at its first call is at most the capacity. -/
theorem granted_window (hts : (l.last :: ts).Pairwise (· ≤ ·)) (hab : a ≤ b) :
    l.granted ts (fun t => a ≤ t ∧ t ≤ b) ≤ l.capacity + (b - a) * l.rate := by
  have hbound : 0 ≤ l.capacity + (b - a) * l.rate :=
    add_nonneg (zero_le_one.trans hl.capacity) (mul_nonneg (sub_nonneg.mpr hab) hl.rate.le)
  induction ts generalizing l with
  | nil => exact hbound
  | cons t ts ih =>
    obtain ⟨hlast, hts⟩ := List.pairwise_cons.mp hts
    have h := take_taken hl (hlast t (.head _))
    have hts' : ((l.take 1 t).2.last :: ts).Pairwise (· ≤ ·) := by rw [h.last]; exact hts
    rw [granted_cons]
    by_cases hwindow : a ≤ t ∧ t ≤ b
    · have hrest := granted_le (p := fun t => a ≤ t ∧
        t ≤ b) h.sound hts' (fun u hu => (of_decide_eq_true hu).2) (by rw [h.last]; exact hwindow.2)
      have hlevel : l.level t ≤ l.capacity := min_le_left _ _
      have htokens := h.tokens
      have hrefill : (b - t) * l.rate ≤ (b - a) * l.rate := mul_le_mul_of_nonneg_right (by linarith [hwindow.1]) hl.rate.le
      rw [h.last, h.rate] at hrest
      rw [if_pos (decide_eq_true hwindow)]
      linarith
    · have hrest := ih h.sound hts' (by rw [h.capacity, h.rate]; exact hbound)
      rw [h.capacity, h.rate] at hrest
      rw [if_neg (fun hp => hwindow (of_decide_eq_true hp)), zero_add]
      exact hrest

/-! ## Waiting -/

theorem level_of_refused (ht : l.last ≤ t) (h : (l.take 1 t).1.1 = false) {u : ℚ} (hu : t ≤ u) :
    (l.take 1 t).2.level u = l.level u := by
  have htaken := take_taken hl ht
  have htokens := htaken.tokens
  rw [h, if_neg Bool.false_ne_true, zero_add] at htokens
  have hrefill : 0 ≤ (u - t) * l.rate := mul_nonneg (sub_nonneg.mpr hu) hl.rate.le
  have hsplit : (u - l.last) * l.rate = (t - l.last) * l.rate + (u - t)
    * l.rate := by rw [← add_mul, add_comm, sub_add_sub_cancel]
  rw [level, htaken.capacity, htaken.last, htaken.rate, htokens, level, level, hsplit, ← add_assoc,
    ← min_add_add_right, ← min_assoc, min_eq_left (le_add_of_nonneg_right hrefill)]

theorem level_of_none_granted {u : ℚ} (hts : (l.last :: (ts ++ [u])).Pairwise (· ≤ ·))
    (h : l.grants ts = []) : (l.calls ts).level u = l.level u := by
  induction ts generalizing l with
  | nil => rfl
  | cons t ts ih =>
    obtain ⟨hlast, hts⟩ := List.pairwise_cons.mp hts
    have ht := hlast t (.head _)
    have htaken := take_taken hl ht
    obtain ⟨hnow, hlater⟩ := List.append_eq_nil_iff.mp h
    have hrefused : (l.take 1 t).1.1 = false := by
      rw [Bool.eq_false_iff]
      intro hgranted
      rw [if_pos hgranted] at hnow
      cases hnow
    have htu : t ≤ u := (List.pairwise_cons.mp hts).1 u (List.mem_append_right _ (.head _))
    rw [← level_of_refused hl ht hrefused htu]
    exact ih htaken.sound (by rw [htaken.last]; exact hts) hlater

theorem granted_after_wait (ht : l.last ≤ t) {wait : ℚ} (h : (l.take 1 t).1 = (false, wait)) {us : List ℚ}
    (hus : (t :: (us ++ [t + wait])).Pairwise (· ≤ ·)) (hnone : (l.take 1 t).2.grants us = []) :
    (((l.take 1 t).2.calls us).take 1 (t + wait)).1.1 = true := by
  have htaken := take_taken hl ht
  have hlevel := level_of_none_granted htaken.sound (by rw [htaken.last]; exact hus) hnone
  have hshort : ¬ l.level t ≥ 1 := by
    intro hfull
    have htake : (l.take 1 t).1 = (true, 0) := congrArg Prod.fst (if_pos hfull)
    rw [htake] at h
    cases h
  have hwait : (1 - l.level t) / l.rate = wait := by
    have htake : (l.take 1 t).1 = (false, (1 - l.level t) / l.rate) := congrArg Prod.fst (if_neg hshort)
    rw [htake] at h
    exact congrArg Prod.snd h
  -- what is missing is refilled by then
  have hone : 1 ≤ (l.take 1 t).2.level (t + wait) := by
    have htokens := htaken.tokens
    rw [h, if_neg Bool.false_ne_true, zero_add] at htokens
    rw [level, htaken.capacity, htaken.last, htaken.rate, htokens, ← hwait, add_sub_cancel_left,
      div_mul_cancel₀ _ hl.rate.ne', add_sub_cancel]
    exact le_min hl.capacity le_rfl
  rw [← hlevel] at hone
  exact congrArg (fun r : (Bool × ℚ) × Limiter => r.1.1) (if_pos hone)

theorem calls_sound {u : ℚ} (hts : (l.last :: (ts ++ [u])).Pairwise (· ≤ ·)) :
    (l.calls ts).Sound ∧ (l.calls ts).last ≤ u := by
  induction ts generalizing l with
  | nil => exact ⟨hl, (List.pairwise_cons.mp hts).1 u (.head _)⟩
  | cons t ts ih =>
    obtain ⟨hlast, hts⟩ := List.pairwise_cons.mp hts
    have htaken := take_taken hl (hlast t (.head _))
    exact ih htaken.sound (by rw [htaken.last]; exact hts)

end

theorem newLimiter_sound {p : Int} (hp : 0 < p) (now : ℚ) : (newLimiter p now).Sound := by
  have hone : (1 : ℚ) ≤ p := by exact_mod_cast hp
  exact ⟨div_pos (zero_lt_one.trans_le hone) (by norm_num), hone, zero_le_one.trans hone⟩

/-- **Pacing**: in any `d` seconds at most `p + p * d / 60` calls are granted, and a call that is made again
    after the wait it was told is granted if no other one was in between. -/
theorem limiter_paces {p : Int} (hp : 0 < p) {t0 : ℚ} :
    (∀ ts a d, (t0 :: ts).Pairwise (· ≤ ·) → 0 ≤ d →
      (((newLimiter p t0).grants ts).filter (fun t => a ≤ t ∧ t ≤ a + d)).length ≤ (p : ℚ) + p * d / 60) ∧
    ∀ ts t wait us, (t0 :: (ts ++ [t])).Pairwise (· ≤ ·) → (t :: (us ++ [t + wait])).Pairwise (· ≤ ·) →
      (((newLimiter p t0).calls ts).take 1 t).1 = (false, wait) →
      (((newLimiter p t0).calls ts).take 1 t).2.grants us = [] →
      (((((newLimiter p t0).calls ts).take 1 t).2.calls us).take 1 (t + wait)).1.1 = true := by
  have hnew := newLimiter_sound hp t0
  constructor
  · intro ts a d hts hd
    have hbound := granted_window (a := a) (b := a + d) hnew hts (by linarith)
    rw [add_sub_cancel_left] at hbound
    calc _ ≤ (p : ℚ) + d * (p / 60) := hbound
      _ = p + p * d / 60 := by rw [mul_comm d, div_mul_eq_mul_div]
  · intro ts t wait us hts hus hrefused hnone
    obtain ⟨hsound, hlast⟩ := calls_sound hnew hts
    exact granted_after_wait hsound hlast hrefused hus hnone

theorem limiter_paces_one : (((newLimiter 1 0).grants [0, 0]).filter (fun t => 0 ≤ t ∧ t ≤ 0 + 0)).length
    ≤ (1 : ℚ) ∧ (((((newLimiter 1 0).calls [0]).take 1 0).2.calls []).take 1 (0 + 60)).1.1 = true := by
  obtain ⟨hbound, hwait⟩ := limiter_paces (p := 1) (by decide)
  refine ⟨(hbound [0, 0] 0 0 (by simp) le_rfl).trans (by norm_num),
    hwait [0] 0 60 [] (by simp) (by simp) ?_ rfl⟩
  norm_num [newLimiter, calls, take, level]

end Limiter

end SyncForge
