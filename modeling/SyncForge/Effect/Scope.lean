import SyncForge.Effect.Monitor

/-!
# `Effect.Scope` — programs that stay inside a part of the state

A scope says which calls stay inside, and what is known of their answers. `P.within p good`: every call `p`
can make stays inside, and a value it returns is `good`. Runs from states that agree on the part then agree
(`agree_of_within`), and what calls inside leave alone, a run leaves alone (`keeps_of_within`).
-/

namespace Effect

structure Scope (S : Sig) where
  may : S.Op → Prop
  gives : (o : S.Op) → S.Res o → Prop

variable {S : Sig} {ε σ α β : Type}

namespace Prog

def trace (h : Handler S ε σ) : Prog S ε α → σ → List (Entry S ε)
  | .pure _, _ => []
  | .throw _, _ => []
  | .call o k, s => ⟨o, (h o s).1⟩ :: trace h (k (h o s).1) (h o s).2

end Prog

namespace Scope

variable (P : Scope S)

/-- Every call of `p` stays inside, and what `p` returns is `good`. -/
def within : Prog S ε α → (α → Prop) → Prop
  | .pure a, good => good a
  | .throw _, _ => True
  | .call o k, good => P.may o ∧ (∀ a, P.gives o a → within (k (.ok a)) good) ∧
      ∀ e, within (k (.error e)) good

variable {P} {p : Prog S ε α} {good good' : α → Prop}

theorem within_ofExcept {r : Except ε α} (h : ∀ a, r = .ok a → good a) : P.within (Prog.ofExcept r) good := by
  cases r with
  | ok a => exact h a rfl
  | error e => trivial

theorem within_perform {o : S.Op} {good : S.Res o → Prop} (hmay : P.may o)
    (hgood : ∀ a, P.gives o a → good a) : P.within (Prog.perform o : Prog S ε (S.Res o)) good :=
  ⟨hmay, hgood, fun _ => trivial⟩

theorem within_may {may : S.Op → Prop} (hmay : ∀ o, P.may o → may o) (h : P.within p good) :
    Scope.within { P with may } p good := by
  induction p with
  | pure a => exact h
  | throw e => trivial
  | call o k ih => exact ⟨hmay o h.1, fun a ha => ih _ (h.2.1 a ha), fun e => ih _ (h.2.2 e)⟩

theorem within_of_only {K : S.Op → Prop} (hp : Prog.Only K p) (h : ∀ o, K o → P.may o) :
    P.within p (fun _ => True) := by
  induction p with
  | pure a => trivial
  | throw e => trivial
  | call o k ih => exact ⟨h o hp.1, fun a _ => ih _ (hp.2 _), fun e => ih _ (hp.2 _)⟩

theorem only_of_within {may : S.Op → Prop} (h : Scope.within ⟨may, fun _ _ => True⟩ p good) :
    Prog.Only may p := by
  induction p with
  | pure a => trivial
  | throw e => trivial
  | call o k ih => exact ⟨h.1, fun r => ih r (by cases r with | ok a => exact h.2.1 a trivial | error e => exact h.2.2 e)⟩

theorem within_bind {f : α → Prog S ε β} {good' : β → Prop} (hp : P.within p good)
    (hf : ∀ a, good a → P.within (f a) good') : P.within (p >>= f) good' := by
  induction p with
  | pure a => exact hf a hp
  | throw e => trivial
  | call o k ih => exact ⟨hp.1, fun a ha => ih _ (hp.2.1 a ha), fun e => ih _ (hp.2.2 e)⟩

/-- **Sequence rule** when the outcome of the first part is looked at. -/
theorem within_attempt {f : Except ε α → Prog S ε β} {good' : β → Prop} (hp : P.within p good)
    (hok : ∀ a, good a → P.within (f (.ok a)) good') (herror : ∀ e, P.within (f (.error e)) good') :
    P.within (p.attempt >>= f) good' := by
  induction p with
  | pure a => exact hok a hp
  | throw e => exact herror e
  | call o k ih => exact ⟨hp.1, fun a ha => ih _ (hp.2.1 a ha), fun e => ih _ (hp.2.2 e)⟩

/-! ## Handlers that respect a scope -/

variable {h : Prog.Handler S ε σ} {s s' : σ}

theorem agree_of_within {R : σ → σ → Prop}
    (hcall : ∀ o s s', P.may o → R s s' → (∀ a, (h o s).1 = .ok a → P.gives o a) ∧ (h o s').1 = (h o s).1 ∧
      R (h o s).2 (h o s').2) (hp : P.within p good) (hs : R s s') :
    Prog.trace h p s' = Prog.trace h p s ∧ (Prog.run h p s').1 = (Prog.run h p s).1 ∧
      R (Prog.run h p s).2 (Prog.run h p s').2 := by
  induction p generalizing s s' with
  | pure a => exact ⟨rfl, rfl, hs⟩
  | throw e => exact ⟨rfl, rfl, hs⟩
  | call o k ih =>
    obtain ⟨hgives, hanswer, hnext⟩ := hcall o s s' hp.1 hs
    have hk : P.within (k (h o s).1) good := by
      cases hr : (h o s).1 with
      | ok a => exact hp.2.1 a (hgives a hr)
      | error e => exact hp.2.2 e
    obtain ⟨htrace, hresult, hstate⟩ := ih (h o s).1 hk hnext
    refine ⟨?_, ?_, ?_⟩
    · simp only [Prog.trace, hanswer, htrace]
    · rwa [Prog.run_call, Prog.run_call, hanswer]
    · rwa [Prog.run_call, Prog.run_call, hanswer]

/-- **One run**: what calls inside keep, the run keeps. -/
theorem keeps_of_within {I : σ → Prop} (hcall : ∀ o s, P.may o → I s →
    (∀ a, (h o s).1 = .ok a → P.gives o a) ∧ I (h o s).2) (hp : P.within p good) (hs : I s) :
      I (Prog.run h p s).2 := by
  induction p generalizing s with
  | pure a => exact hs
  | throw e => exact hs
  | call o k ih =>
    obtain ⟨hgives, hnext⟩ := hcall o s hp.1 hs
    rw [Prog.run_call]
    cases hr : (h o s).1 with
    | ok a => exact ih _ (hp.2.1 a (hgives a hr)) hnext
    | error e => exact ih _ (hp.2.2 e) hnext

end Scope

end Effect
