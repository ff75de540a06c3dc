import Mathlib.Data.List.Basic
import Mathlib.Data.List.Forall2

/-!
# `Transition.Run` — runs of a partial step function

A system is a step function `step : σ → α → Option σ`. `Run step ok s as t` is a run from `s` to `t` by the
actions `as`, each taken in a state where `ok` allows it. The rules are the invariant rule, whose invariant
may speak of the actions taken, and the simulation rule.
-/

namespace Transition

variable {σ α : Type} {step : σ → α → Option σ} {ok : σ → α → Prop}

/-- The actions `as` lead from `s` to another state. -/
inductive Run (step : σ → α → Option σ) (ok : σ → α → Prop) (s : σ) : List α → σ → Prop where
  | refl : Run step ok s [] s
  | tail {as : List α} {t u : σ} {a : α} :
      Run step ok s as t → ok t a → step t a = some u → Run step ok s (as ++ [a]) u

namespace Run

variable {s t u : σ} {as bs : List α} {a : α}

/-- **Invariant rule**: what holds at the start and is kept by every step holds after the run. -/
theorem invariant {P : List α → σ → Prop} (h : Run step ok s as t) (hinit : P [] s)
    (hstep : ∀ as t a u, P as t → ok t a → step t a = some u → P (as ++ [a]) u) : P as t := by
  induction h with
  | refl => exact hinit
  | tail _ hok ha ih => exact hstep _ _ _ _ ih hok ha

theorem trans (h : Run step ok s as t) (h' : Run step ok t bs u) : Run step ok s (as ++ bs) u := by
  induction h' with
  | refl =>
    rwa [List.append_nil]
  | tail _ hok ha ih =>
    rw [← List.append_assoc]
    exact ih.tail hok ha

theorem single (hok : ok s a) (ha : step s a = some t) : Run step ok s [a] t := Run.tail .refl hok ha

theorem head (hok : ok s a) (ha : step s a = some t) (h : Run step ok t as u) : Run step ok s (a :: as) u :=
  (single hok ha).trans h

theorem mono {ok' : σ → α → Prop} (h : Run step ok s as t) (himp : ∀ s, ∀ a ∈ as, ok s a → ok' s a) :
    Run step ok' s as t := by
  induction h with
  | refl => exact .refl
  | tail _ hok ha ih =>
    refine (ih (fun s a hmem => himp s a (List.mem_append_left _ hmem))).tail (himp _ _ ?_ hok) ha
    exact List.mem_concat_self

/-- **Simulation rule.** Each step of one system is matched by a step of the other that keeps the states
    related. -/
theorem simulate {τ β : Type} {step' : τ → β → Option τ} {ok' : τ → β → Prop} {R : σ → τ → Prop}
    {f : α → β → Prop}
    (hsim : ∀ s a u t, R s t → ok s a → step s a = some u → ∃ b v, f a b ∧ ok' t b ∧ step' t b = some v ∧ R u v)
    (h : Run step ok s as u) {s' : τ} (hR : R s s') : ∃ bs u', List.Forall₂ f as bs ∧ Run step' ok' s' bs u' ∧ R u u' := by
  induction h with
  | refl => exact ⟨[], s', .nil, .refl, hR⟩
  | tail _ hok ha ih =>
    obtain ⟨bs, t', hf, hrun, ht⟩ := ih
    obtain ⟨b, v, hab, hok', hb, hv⟩ := hsim _ _ _ _ ht hok ha
    exact ⟨bs ++ [b], v, List.rel_append hf (.cons hab .nil), hrun.tail hok' hb, hv⟩

end Run

/-- Take the actions one after the other, each allowed by `ok`. -/
def exec (step : σ → α → Option σ) (ok : σ → α → Bool) : List α → σ → Option σ
  | [], s => some s
  | a :: as, s => if ok s a then (step s a).bind (exec step ok as) else none

variable {as : List α}

theorem run_of_exec {ok : σ → α → Bool} {s t : σ} (h : exec step ok as s = some t) :
    Run step (fun s a => ok s a = true) s as t := by
  induction as generalizing s with
  | nil =>
    cases h
    exact .refl
  | cons a as ih =>
    rw [exec] at h
    split at h
    · rename_i hok
      obtain ⟨u, hu, hrest⟩ := Option.bind_eq_some_iff.mp h
      exact .head hok hu (ih hrest)
    · cases h

theorem exec_run {ok : σ → α → Bool} {s t : σ} (h : exec step ok as s = some t) :
    Run step (fun _ _ => True) s as t :=
  (run_of_exec h).mono (fun _ _ _ _ => trivial)

theorem run_of_test {ok : σ → α → Bool} {s : σ} {test : σ → Bool}
    (h : (exec step ok as s).map test = some true) : ∃ t, Run step (fun s a => ok s a = true) s as t ∧
    exec step ok as s = some t ∧ test t = true := by
  obtain ⟨t, ht, htest⟩ := Option.map_eq_some_iff.mp h
  exact ⟨t, run_of_exec ht, ht, htest⟩

/-- Take the actions that can be taken and pass over the others. -/
def follow (step : σ → α → Option σ) : List α → σ → σ
  | [], s => s
  | a :: as, s => follow step as ((step s a).getD s)

/-- **Schedule rule.** What no step undoes, no schedule undoes. -/
theorem follow_stable {P : σ → Prop} (hstep : ∀ s a t, step s a = some t → P s → P t) (as : List α) {s : σ}
    (hs : P s) : P (follow step as s) := by
  induction as generalizing s with
  | nil => exact hs
  | cons a as ih =>
    refine ih ?_
    cases h : step s a with
    | none => exact hs
    | some t => exact hstep s a t h hs

/-- **A run by evaluation**: its actions pass the test `b`, its end the test `f`. -/
theorem exists_run {ok : σ → α → Prop} {b : σ → α → Bool} {f : σ → Bool} {Q : σ → Prop} {s : σ}
    (h : (exec step b as s).map f = some true) (hok : ∀ s a, b s a = true → ok s a)
    (hQ : ∀ t, Run step ok s as t → f t = true → Q t) : ∃ t, Run step ok s as t ∧ Q t := by
  obtain ⟨t, hrun, -, htest⟩ := run_of_test h
  have hrun : Run step ok s as t := hrun.mono (fun s a _ ha => hok s a ha)
  exact ⟨t, hrun, hQ t hrun htest⟩

end Transition
