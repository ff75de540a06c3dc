import SyncForge.Effect.Prog

/-!
# `Effect.Runs` — running alone, up to what does not matter

`Runs h v p s r s'` looks at the state through a view `v`, which hides what no property depends on: from every
state that looks like `s`, running `p` answers `r` and ends in a state that looks like `s'`.
-/

namespace Effect.Prog

variable {S : Sig} {ε σ τ α β : Type} {h : Handler S ε σ} {v : σ → τ}

/-- Seen through `v`, running `p` from `s` answers `r` and ends in `s'`. -/
def Runs (h : Handler S ε σ) (v : σ → τ) (p : Prog S ε α) (s : σ) (r : Except ε α) (s' : σ) : Prop :=
  ∀ u, v u = v s → (run h p u).1 = r ∧ v (run h p u).2 = v s'

variable {p : Prog S ε α} {s' s : σ}

theorem Runs.state {r : Except ε α} (hp : Runs h v p s r s') : v (run h p s).2 = v s' :=
  (hp s rfl).2

theorem runs_return (a : α) (s : σ) : Runs h v (Pure.pure a : Prog S ε α) s (.ok a) s :=
  fun _ hu => ⟨rfl, hu⟩

theorem runs_throw (e : ε) (s : σ) : Runs h v (.throw e : Prog S ε α) s (.error e) s :=
  fun _ hu => ⟨rfl, hu⟩

theorem runs_ofExcept (r : Except ε α) (s : σ) : Runs h v (ofExcept r : Prog S ε α) s r s := by
  intro u hu
  rw [run_ofExcept]
  exact ⟨rfl, hu⟩

theorem runs_perform {o : S.Op} {r : Except ε (S.Res o)}
    (ho : ∀ u, v u = v s → (h o u).1 = r ∧ v (h o u).2 = v s') : Runs h v (perform o) s r s' := by
  intro u hu
  rw [run_perform]
  exact ho u hu

theorem runs_bind {f : α → Prog S ε β} {s'' : σ} {a : α} {r : Except ε β}
    (hp : Runs h v p s (.ok a) s') (hf : Runs h v (f a) s' r s'') : Runs h v (p >>= f) s r s'' := by
  intro u hu
  obtain ⟨hr, hs⟩ := hp u hu
  have hok : run h p u = (.ok a, (run h p u).2) := Prod.ext hr rfl
  rw [run_bind_ok h hok]
  exact hf _ hs

theorem runs_bind_error {f : α → Prog S ε β} {e : ε} (hp : Runs h v p s (.error e) s') :
    Runs h v (p >>= f) s (.error e) s' := by
  intro u hu
  obtain ⟨hr, hs⟩ := hp u hu
  have herr : run h p u = (.error e, (run h p u).2) := Prod.ext hr rfl
  rw [run_bind_error h herr]
  exact ⟨rfl, hs⟩

theorem runs_attempt {r : Except ε α} (hp : Runs h v p s r s') : Runs h v p.attempt s (.ok r) s' := by
  intro u hu
  obtain ⟨hr, hs⟩ := hp u hu
  rw [run_attempt, hr]
  exact ⟨rfl, hs⟩

end Effect.Prog
