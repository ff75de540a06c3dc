import SyncForge.Effect.Prog

/-!
# `Effect.Monitor` — what a program does, call by call

A monitor watches the calls of one program. Its state `γ` sums up the calls made and their answers; `may` says
which calls are allowed,
`adm` which answers the environment can give. `wp M p post g` is the weakest precondition: `p` only makes
allowed calls, and its outcome satisfies `post`. `Only P p` says that every call `p` can ever make satisfies
`P`.
-/

namespace Effect

/-- A monitor with summary state `γ`. -/
structure Monitor (S : Sig) (ε γ : Type) where
  next : γ → (o : S.Op) → Except ε (S.Res o) → γ
  may : γ → S.Op → Prop
  adm : γ → (o : S.Op) → Except ε (S.Res o) → Prop

structure Entry (S : Sig) (ε : Type) where
  op : S.Op
  answer : Except ε (S.Res op)

variable {S : Sig} {ε γ σ α β : Type}

namespace Monitor

variable (M : Monitor S ε γ)

/-- The weakest precondition of `p` for `post`. -/
def wp : Prog S ε α → (γ → Except ε α → Prop) → γ → Prop
  | .pure a, post, g => post g (.ok a)
  | .throw e, post, g => post g (.error e)
  | .call o k, post, g => M.may g o ∧ ∀ r, M.adm g o r → wp (k r) post (M.next g o r)

variable {M} {g : γ} {post : γ → Except ε α → Prop}

@[simp] theorem wp_return (a : α) : M.wp (Pure.pure a) post g ↔ post g (.ok a) := Iff.rfl

theorem wp_call (o : S.Op) (k : Except ε (S.Res o) → Prog S ε α) :
    M.wp (.call o k) post g ↔ M.may g o ∧ ∀ r, M.adm g o r → M.wp (k r) post (M.next g o r) := Iff.rfl

@[simp] theorem wp_ofExcept (r : Except ε α) : M.wp (Prog.ofExcept r) post g ↔ post g r := by
  cases r <;> exact Iff.rfl

@[simp] theorem wp_perform (o : S.Op) {post : γ → Except ε (S.Res o) → Prop} :
    M.wp (Prog.perform o) post g ↔ M.may g o ∧ ∀ r, M.adm g o r → post (M.next g o r) r := by
  simp only [Prog.perform, wp_call, wp_ofExcept]

@[simp] theorem wp_bind (p : Prog S ε α) (f : α → Prog S ε β) {post : γ → Except ε β → Prop} :
    M.wp (p >>= f) post g
      ↔ M.wp p (fun g' r => match r with | .ok a => M.wp (f a) post g' | .error e => post g' (.error e)) g := by
  induction p generalizing g with
  | pure a => exact Iff.rfl
  | throw e => exact Iff.rfl
  | call o k ih =>
    rw [Prog.call_bind, wp_call, wp_call]
    exact and_congr_right fun _ => forall_congr' fun r => imp_congr_right fun _ => ih r

@[simp] theorem wp_attempt (p : Prog S ε α) {post : γ → Except ε (Except ε α) → Prop} :
    M.wp p.attempt post g ↔ M.wp p (fun g' r => post g' (.ok r)) g := by
  induction p generalizing g with
  | pure a => exact Iff.rfl
  | throw e => exact Iff.rfl
  | call o k ih =>
    rw [Prog.attempt, wp_call, wp_call]
    exact and_congr_right fun _ => forall_congr' fun r => imp_congr_right fun _ => ih r

variable {p : Prog S ε α} {post' : γ → Except ε α → Prop}

theorem wp_mono {post : γ → Except ε α → Prop} (h : M.wp p post g) (himp : ∀ g r, post g r → post' g r) :
    M.wp p post' g := by
  induction p generalizing g with
  | pure a => exact himp _ _ h
  | throw e => exact himp _ _ h
  | call o k ih => exact ⟨h.1, fun r hr => ih r (h.2 r hr)⟩

variable {mid : γ → Except ε α → Prop}

/-- **Sequence rule**: `mid` is what is known between the two programs. -/
theorem wp_seq {post : γ → Except ε β → Prop} {f : α → Prog S ε β} (hp : M.wp p mid g)
    (hok : ∀ g' a, mid g' (.ok a) → M.wp (f a) post g') (herror : ∀ g' e, mid g' (.error e) →
      post g' (.error e)) : M.wp (p >>= f) post g := by
  rw [wp_bind]
  refine wp_mono hp (fun g' r h => ?_)
  cases r with
  | ok a => exact hok g' a h
  | error e => exact herror g' e h

theorem wp_seq_attempt {post : γ → Except ε β → Prop}
    {f : Except ε α → Prog S ε β} (hp : M.wp p mid g) (hnext : ∀ g' r, mid g' r → M.wp (f r) post g') :
    M.wp (p.attempt >>= f) post g := by
  rw [wp_bind, wp_attempt]
  exact wp_mono hp hnext

theorem wp_and {post : γ → Except ε α → Prop} (h : M.wp p post g) (h' : M.wp p post' g) :
    M.wp p (fun g r => post g r ∧ post' g r) g := by
  induction p generalizing g with
  | pure a => exact ⟨h, h'⟩
  | throw e => exact ⟨h, h'⟩
  | call o k ih => exact ⟨h.1, fun r hr => ih r (h.2 r hr) (h'.2 r hr)⟩

end Monitor

/-! ## Programs that only make certain calls -/

namespace Prog

/-- Every call `p` can make, whatever the answers, satisfies `P`. -/
def Only (P : S.Op → Prop) : Prog S ε α → Prop
  | .pure _ => True
  | .throw _ => True
  | .call o k => P o ∧ ∀ r, Only P (k r)

variable {P Q : S.Op → Prop}

@[simp] theorem only_return (a : α) : Only P (Pure.pure a : Prog S ε α) := trivial

@[simp] theorem only_throw (e : ε) : Only P (.throw e : Prog S ε α) := trivial

@[simp] theorem only_ofExcept (r : Except ε α) : Only P (ofExcept r : Prog S ε α) := by
  cases r <;> exact trivial

theorem only_perform {o : S.Op} (h : P o) : Only P (perform o : Prog S ε (S.Res o)) :=
  ⟨h, fun r => only_ofExcept r⟩

variable {p : Prog S ε α}

theorem only_bind {f : α → Prog S ε β} (hp : Only P p) (hf : ∀ a, Only P (f a)) : Only P (p >>= f) := by
  induction p with
  | pure a => exact hf a
  | throw e => exact trivial
  | call o k ih => exact ⟨hp.1, fun r => ih r (hp.2 r)⟩

theorem only_attempt (hp : Only P p) : Only P p.attempt := by
  induction p with
  | pure a => exact trivial
  | throw e => exact trivial
  | call o k ih => exact ⟨hp.1, fun r => ih r (hp.2 r)⟩

theorem only_true (p : Prog S ε α) : Only (fun _ => True) p := by
  induction p with
  | pure a => exact trivial
  | throw e => exact trivial
  | call o k ih => exact ⟨trivial, ih⟩

theorem only_and (hp : Only P p) (hq : Only Q p) : Only (fun o => P o ∧ Q o) p := by
  induction p with
  | pure a => exact trivial
  | throw e => exact trivial
  | call o k ih => exact ⟨⟨hp.1, hq.1⟩, fun r => ih r (hp.2 r) (hq.2 r)⟩

theorem only_mono (hp : Only P p) (h : ∀ o, P o → Q o) : Only Q p := by
  induction p with
  | pure a => exact trivial
  | throw e => exact trivial
  | call o k ih => exact ⟨h o hp.1, fun r => ih r (hp.2 r)⟩

/-- **Invariant rule.** A monitor invariant that every call in `P` may be made under, and keeps, holds when
    a program of such calls ends. -/
theorem wp_of_only {M : Monitor S ε γ} {I : γ → Prop} {g : γ} (hp : Only P p)
    (hcall : ∀ g o, I g → P o → M.may g o ∧ ∀ r, M.adm g o r → I (M.next g o r)) (hg : I g) :
    M.wp p (fun g' _ => I g') g := by
  induction p generalizing g with
  | pure a => exact hg
  | throw e => exact hg
  | call o k ih =>
    obtain ⟨hmay, hnext⟩ := hcall g o hg hp.1
    exact ⟨hmay, fun r hr => ih r (hp.2 r) (hnext r hr)⟩

/-- **Run invariant.** A state invariant that every call in `P` keeps survives the run of a program of such
    calls. -/
theorem run_invariant {h : Handler S ε σ} {I : σ → Prop} {s : σ} (hp : Only P p)
    (hcall : ∀ s o, P o → I s → I (h o s).2) (hs : I s) : I (run h p s).2 := by
  induction p generalizing s with
  | pure a => exact hs
  | throw e => exact hs
  | call o k ih => exact ih _ (hp.2 _) (hcall s o hp.1 hs)

end Prog

end Effect
