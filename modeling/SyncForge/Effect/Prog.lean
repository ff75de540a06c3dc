import Mathlib.Logic.Basic

/-!
# `Effect.Prog` — programs as trees of fallible calls

A program is a finite tree: it returns, it throws, or it makes one call and goes on with whatever was
answered; every call may fail. The tree is the program *text*: `run` runs it alone against a deterministic
handler, a pool (`Effect.Pool`) among other threads. The signature `Sig` of the calls is a parameter.
-/

namespace Effect

structure Sig where
  Op : Type
  Res : Op → Type

/-- A program over signature `S` with errors `ε`: return, throw, or one call and a continuation. -/
inductive Prog (S : Sig) (ε α : Type) : Type where
  | pure (a : α)
  | throw (e : ε)
  | call (o : S.Op) (k : Except ε (S.Res o) → Prog S ε α)

variable {S : Sig} {ε σ α β γ : Type}

namespace Prog

/-! ## Sequencing -/

/-- Sequencing: an error of `p` is an error of the whole, as an early `return err` is. -/
protected def bind : Prog S ε α → (α → Prog S ε β) → Prog S ε β
  | .pure a, f => f a
  | .throw e, _ => .throw e
  | .call o k, f => .call o (fun r => (k r).bind f)

instance : Monad (Prog S ε) where
  pure := Prog.pure
  bind := Prog.bind

/-- Run `p` and hand its outcome over as a value: the caller looks at the error itself. -/
def attempt : Prog S ε α → Prog S ε (Except ε α)
  | .pure a => .pure (.ok a)
  | .throw e => .pure (.error e)
  | .call o k => .call o (fun r => (k r).attempt)

def ofExcept : Except ε α → Prog S ε α
  | .ok a => .pure a
  | .error e => .throw e

def perform (o : S.Op) : Prog S ε (S.Res o) :=
  .call o ofExcept

@[simp] theorem pure_bind (a : α) (f : α → Prog S ε β) : (Prog.pure a >>= f) = f a := rfl

@[simp] theorem call_bind (o : S.Op) (k : Except ε (S.Res o) → Prog S ε α) (f : α → Prog S ε β) :
    (Prog.call o k >>= f) = Prog.call o (fun r => k r >>= f) := rfl

theorem bind_assoc {γ : Type} (p : Prog S ε α) (f : α → Prog S ε β) (g : β → Prog S ε γ) :
    ((p >>= f) >>= g) = p >>= fun a => f a >>= g := by
  induction p with
  | pure a => rfl
  | throw e => rfl
  | call o k ih => exact congrArg (Prog.call o) (funext ih)

/-! ## One program alone: `run` -/

abbrev Handler (S : Sig) (ε σ : Type) := (o : S.Op) → σ → Except ε (S.Res o) × σ

def run (h : Handler S ε σ) : Prog S ε α → σ → Except ε α × σ
  | .pure a, s => (.ok a, s)
  | .throw e, s => (.error e, s)
  | .call o k, s => run h (k (h o s).1) (h o s).2

variable (h : Handler S ε σ)

@[simp] theorem run_return (a : α) (s : σ) : run h (Pure.pure a) s = (.ok a, s) := rfl

theorem run_call (o : S.Op) (k : Except ε (S.Res o) → Prog S ε α) (s : σ) :
    run h (.call o k) s = run h (k (h o s).1) (h o s).2 := rfl

@[simp] theorem run_ofExcept (r : Except ε α) (s : σ) : run h (ofExcept r) s = (r, s) := by
  cases r <;> rfl

@[simp] theorem run_perform (o : S.Op) (s : σ) : run h (perform o) s = h o s := by
  simp only [perform, run_call, run_ofExcept]

theorem run_bind (p : Prog S ε α) (f : α → Prog S ε β) (s : σ) : run h (p >>= f) s = match run h p s with
        | (.ok a, s') => run h (f a) s'
        | (.error e, s') => (.error e, s') := by
  induction p generalizing s with
  | pure a => rfl
  | throw e => rfl
  | call o k ih => exact ih _ _

theorem run_bind_ok {p : Prog S ε α} {s s' : σ} {a : α} (hp : run h p s = (.ok a, s'))
    (f : α → Prog S ε β) : run h (p >>= f) s = run h (f a) s' := by
  rw [run_bind, hp]

theorem run_bind_error {p : Prog S ε α} {s s' : σ} {e : ε} (hp : run h p s = (.error e, s'))
    (f : α → Prog S ε β) : run h (p >>= f) s = (.error e, s') := by
  rw [run_bind, hp]

/-- `attempt` changes the outcome's packaging, not the run. -/
@[simp] theorem run_attempt (p : Prog S ε α) (s : σ) :
    run h p.attempt s = (.ok (run h p s).1, (run h p s).2) := by
  induction p generalizing s with
  | pure a => rfl
  | throw e => rfl
  | call o k ih => exact ih _ _

end Prog

theorem ok_of_toOption {r : Except ε α} {a : α} (h : r.toOption = some a) : r = .ok a := by
  cases r with
  | error e => cases h
  | ok b => exact congrArg Except.ok (Option.some.inj h)

end Effect
