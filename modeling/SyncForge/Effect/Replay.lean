import SyncForge.Effect.Pool

/-!
# `Effect.Replay` — what a log says about a program

A log determines how a program went: given the answers, the program makes the calls. `Plays p log r` says that
`log` is a whole run of
`p` and that it ended with `r`, so that the outcome of a part of a thread's program can be read off a part of
its log. The log of a thread that is done is a whole run of its task (`plays_of_done`).
-/

namespace Effect.Prog

variable {S : Sig} {ε α β : Type}

/-- The calls of `log` are those `p` makes, given its answers, and `p` ends with `r`. -/
def Plays : Prog S ε α → List (Entry S ε) → Except ε α → Prop
  | .pure a, log, r => log = [] ∧ r = .ok a
  | .throw e, log, r => log = [] ∧ r = .error e
  | .call o k, log, r => ∃ answer rest, log = ⟨o, answer⟩ :: rest ∧ Plays (k answer) rest r

variable {p : Prog S ε α} {log : List (Entry S ε)} {r : Except ε α}

theorem plays_ofExcept {x : Except ε α} (h : Plays (ofExcept x) log r) : log = [] ∧ r = x := by
  cases x <;> exact h

theorem plays_perform {o : S.Op} {r : Except ε (S.Res o)} (h : Plays (perform o) log r) : log = [⟨o, r⟩] := by
  obtain ⟨answer, rest, rfl, hrest⟩ := h
  obtain ⟨rfl, rfl⟩ := plays_ofExcept hrest
  rfl

theorem plays_bind {f : α → Prog S ε β} {r : Except ε β} (h : Plays (p >>= f) log r) :
    (∃ log1 log2 a, log = log1 ++ log2 ∧ Plays p log1 (.ok a) ∧ Plays (f a) log2 r) ∨
      ∃ e, r = .error e ∧ Plays p log (.error e) := by
  induction p generalizing log with
  | pure a => exact .inl ⟨[], log, a, rfl, ⟨rfl, rfl⟩, h⟩
  | throw e => exact .inr ⟨e, h.2, h.1, rfl⟩
  | call o k ih =>
    obtain ⟨answer, rest, rfl, hrest⟩ := h
    rcases ih answer hrest with ⟨log1, log2, a, rfl, h1, h2⟩ | ⟨e, rfl, h1⟩
    · exact .inl ⟨⟨o, answer⟩ :: log1, log2, a, rfl, ⟨answer, log1, rfl, h1⟩, h2⟩
    · exact .inr ⟨e, rfl, answer, rest, rfl, h1⟩

theorem plays_attempt {f : Except ε α → Prog S ε β} {r : Except ε β} (h : Plays (p.attempt >>= f) log r) :
    ∃ log1 log2 x, log = log1 ++ log2 ∧ Plays p log1 x ∧ Plays (f x) log2 r := by
  induction p generalizing log with
  | pure a => exact ⟨[], log, _, rfl, ⟨rfl, rfl⟩, h⟩
  | throw e => exact ⟨[], log, _, rfl, ⟨rfl, rfl⟩, h⟩
  | call o k ih =>
    obtain ⟨answer, rest, rfl, hrest⟩ := h
    obtain ⟨log1, log2, x, rfl, h1, h2⟩ := ih answer hrest
    exact ⟨⟨o, answer⟩ :: log1, log2, x, rfl, ⟨answer, log1, rfl, h1⟩, h2⟩

theorem plays_only {K : S.Op → Prop} (hp : Only K p) (h : Plays p log r) : ∀ e ∈ log, K e.op := by
  induction p generalizing log with
  | pure | throw =>
    rw [h.1]
    nofun
  | call o k ih =>
    obtain ⟨answer, rest, rfl, hrest⟩ := h
    exact List.forall_mem_cons.mpr ⟨hp.1, ih answer (hp.2 answer) hrest⟩

end Effect.Prog

namespace Effect.Pool

open Transition (Run)
open Prog (Plays)

variable {S : Sig} {ε τ σ μ : Type} {P : Setup S ε τ σ μ} {c : Pool S ε τ σ}
  {ok : Pool S ε τ σ → Act τ μ → Prop} {as : List (Act τ μ)} {s : σ}

/-- **Run lemma**: what a thread has done and what is left of its program are a run of its task. -/
theorem plays_of_run (h : Run (step P) ok ⟨[], s⟩ as c) :
    ∀ t ∈ c.threads, ∀ rest r, Plays t.prog rest r → Plays (P.body t.task) (t.log ++ rest) r := by
  refine h.invariant (P := fun _ c => ∀ t ∈ c.threads, ∀ rest r, Plays t.prog rest r →
    Plays (P.body t.task) (t.log ++ rest) r) nofun ?_
  intro _ c a c' ih _ hstep u hu rest r hrest
  rcases step_cases hstep with ⟨task, rfl, rfl⟩ | ⟨i, t, o, k, rfl, hi, hprog, rfl⟩ | ⟨m, s', rfl, hs, rfl⟩
  · rcases List.mem_append.mp hu with hu | hu
    · exact ih u hu rest r hrest
    · obtain rfl := List.mem_singleton.mp hu
      exact hrest
  · rcases List.mem_or_eq_of_mem_set hu with hu | rfl
    · exact ih u hu rest r hrest
    · have hcall := ih t (List.mem_of_getElem? hi) (⟨o, (P.handle o c.state).1⟩ :: rest) r
        (by rw [hprog]; exact ⟨_, rest, rfl, hrest⟩)
      rwa [List.append_cons] at hcall
  · exact ih u hu rest r hrest

theorem plays_of_done (h : Run (step P) ok ⟨[], s⟩ as c) {t : Thread S ε τ} (ht : t ∈ c.threads)
    (hdone : t.done = true) : ∃ r, Plays (P.body t.task) t.log r := by
  have hplays : ∃ r, Plays t.prog [] r := by
    cases hprog : t.prog with
    | pure a => exact ⟨.ok a, rfl, rfl⟩
    | throw e => exact ⟨.error e, rfl, rfl⟩
    | call o k =>
      rw [Thread.not_done hprog] at hdone
      cases hdone
  obtain ⟨r, hr⟩ := hplays
  have hrun := plays_of_run h t ht [] r hr
  rw [List.append_nil] at hrun
  exact ⟨r, hrun⟩

end Effect.Pool
