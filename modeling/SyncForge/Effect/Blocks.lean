import SyncForge.Effect.Prog

/-!
# `Effect.Blocks` — operations that stand for programs

A program can be written at two levels: its operations are calls, or names of programs that make calls.
`expand` puts the programs in the place of their names, `atomic` runs each of them in one step. Run alone, the
two levels agree; among other threads, the second one is for programs that are not interrupted in the middle
of an operation.
-/

namespace Effect.Prog

variable {S T : Sig} {ε σ α β : Type}

def expand (impl : (o : T.Op) → Prog S ε (T.Res o)) : Prog T ε α → Prog S ε α
  | .pure a => .pure a
  | .throw e => .throw e
  | .call o k => (impl o).attempt >>= fun r => expand impl (k r)

def atomic (h : Handler S ε σ) (impl : (o : T.Op) → Prog S ε (T.Res o)) : Handler T ε σ :=
    fun o s => run h (impl o) s

variable (impl : (o : T.Op) → Prog S ε (T.Res o))

theorem expand_ofExcept (r : Except ε α) : expand impl (ofExcept r) = ofExcept r := by
  cases r <;> rfl

theorem expand_bind (p : Prog T ε α) (f : α → Prog T ε β) :
    expand impl (p >>= f) = expand impl p >>= fun a => expand impl (f a) := by
  induction p with
  | pure a => rfl
  | throw e => rfl
  | call o k ih =>
    rw [call_bind, expand, expand, bind_assoc]
    exact congrArg _ (funext ih)

/-- **Sequence rule**: the parts one after the other. -/
theorem expand_seq {p : Prog T ε α} {f : α → Prog T ε β} {q : Prog S ε α} {g : α → Prog S ε β}
    (hp : expand impl p = q) (hf : ∀ a, expand impl (f a) = g a) : expand impl (p >>= f) = q >>= g := by
  rw [expand_bind, hp]
  exact congrArg _ (funext hf)

theorem attempt_bind_attempt (p : Prog S ε α) (f : Except ε α → Prog S ε β) :
    (p.attempt >>= f).attempt = p.attempt >>= fun r => (f r).attempt := by
  induction p with
  | pure a => rfl
  | throw e => rfl
  | call o k ih => exact congrArg (Prog.call o) (funext ih)

theorem expand_attempt (p : Prog T ε α) : expand impl p.attempt = (expand impl p).attempt := by
  induction p with
  | pure a => rfl
  | throw e => rfl
  | call o k ih =>
    rw [attempt, expand, expand, attempt_bind_attempt]
    exact congrArg _ (funext ih)

theorem attempt_bind_ofExcept (p : Prog S ε α) : (p.attempt >>= fun r => ofExcept r) = p := by
  induction p with
  | pure a => rfl
  | throw e => rfl
  | call o k ih => exact congrArg (Prog.call o) (funext ih)

theorem expand_perform (o : T.Op) : expand impl (perform o) = impl o := by
  simp only [perform, expand, expand_ofExcept, attempt_bind_ofExcept]

theorem run_expand (h : Handler S ε σ) (p : Prog T ε α) (s : σ) :
    run h (expand impl p) s = run (atomic h impl) p s := by
  induction p generalizing s with
  | pure a => rfl
  | throw e => rfl
  | call o k ih =>
    rw [expand, run_bind, run_attempt]
    exact ih _ _

end Effect.Prog
