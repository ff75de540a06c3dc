import SyncForge.Effect.Monitor

/-!
# `Effect.Triple` — pre- and postconditions of a program run alone

`Triple h P p Q`: running `p` from a state in `P` ends, with its outcome, in `Q`, whatever calls fail. A run
in which certain calls do not fail is one that `meets` a condition on its answers; the monitor `answering`
watches it.
-/

namespace Effect.Prog

variable {S : Sig} {ε σ α β : Type} {h : Handler S ε σ}

/-- Running `p` from `P` ends in `Q`. -/
def Triple (h : Handler S ε σ) (P : σ → Prop) (p : Prog S ε α) (Q : Except ε α → σ → Prop) : Prop :=
  ∀ s, P s → Q (run h p s).1 (run h p s).2

variable {P P' : σ → Prop} {p : Prog S ε α} {Q Q' : Except ε α → σ → Prop}

theorem triple_return {a : α} (hQ : ∀ s, P s → Q (.ok a) s) : Triple h P (Pure.pure a) Q := hQ

theorem triple_throw {e : ε} (hQ : ∀ s, P s → Q (.error e) s) : Triple h P (.throw e) Q := hQ

theorem triple_ofExcept {r : Except ε α} (hQ : ∀ s, P s → Q r s) : Triple h P (ofExcept r) Q := by
  intro s hs
  rw [run_ofExcept]
  exact hQ s hs

theorem triple_perform {o : S.Op} {Q : Except ε (S.Res o) → σ → Prop}
    (hQ : ∀ s, P s → Q (h o s).1 (h o s).2) : Triple h P (perform o) Q := by
  intro s hs
  rw [run_perform]
  exact hQ s hs

theorem triple_bind {f : α → Prog S ε β} {R : Except ε α → σ → Prop} {Q : Except ε β → σ → Prop}
    (hp : Triple h P p R) (hok : ∀ a, Triple h (R (.ok a)) (f a) Q)
    (herror : ∀ e s, R (.error e) s → Q (.error e) s) : Triple h P (p >>= f) Q := by
  intro s hs
  have hmid := hp s hs
  rw [run_bind]
  rcases hrun : run h p s with ⟨r, s'⟩
  rw [hrun] at hmid
  cases r with
  | ok a => exact hok a s' hmid
  | error e => exact herror e s' hmid

/-- **Sequence rule** when the outcome of the first part is looked at. -/
theorem triple_attempt {f : Except ε α → Prog S ε β} {Q' : Except ε β → σ → Prop} (hp : Triple h P p Q)
    (hf : ∀ r, Triple h (Q r) (f r) Q') : Triple h P (p.attempt >>= f) Q' := by
  intro s hs
  rw [run_bind_ok h (run_attempt h p s)]
  exact hf _ _ (hp s hs)

theorem triple_mono (hp : Triple h P p Q) (hP : ∀ s, P' s → P s) (hQ : ∀ r s, Q r s → Q' r s) :
    Triple h P' p Q' :=
  fun s hs => hQ _ _ (hp s (hP s hs))

theorem triple_pre (hp : Triple h P p Q) (hP : ∀ s, P' s → P s) : Triple h P' p Q :=
    fun s hs => hp s (hP s hs)

theorem triple_fact {φ : Prop} (hφ : ∀ s, P s → φ) (hp : φ → Triple h P p Q) : Triple h P p Q :=
  fun s hs => hp (hφ s hs) s hs

/-- **Invariant rule** for programs that only make calls of one kind. -/
theorem triple_of_only {K : S.Op → Prop} {I : σ → Prop} (hp : Only K p)
    (hcall : ∀ s o, K o → I s → I (h o s).2) : Triple h I p (fun _ => I) :=
  fun _ hs => run_invariant hp hcall hs

/-! ## Runs whose answers meet a condition -/

/-- Every answer the run of `p` from `s` gets is one that `A` allows. -/
def meets (h : Handler S ε σ) (A : (o : S.Op) → Except ε (S.Res o) → Bool) : Prog S ε α → σ → Bool
  | .pure _, _ => true
  | .throw _, _ => true
  | .call o k, s => A o (h o s).1 && meets h A (k (h o s).1) (h o s).2

variable {A : (o : S.Op) → Except ε (S.Res o) → Bool}

def answering (h : Handler S ε σ) (A : (o : S.Op) → Except ε (S.Res o) → Bool) : Monitor S ε σ where
  next s o _ := (h o s).2
  may _ _ := True
  adm s o r := r = (h o s).1 ∧ A o r = true

/-- Answers of one kind are of every wider kind. -/
theorem wp_meets {B : (o : S.Op) → Except ε (S.Res o) → Bool} {s : σ}
    (hB : ∀ o r, A o r = true → B o r = true) : (answering h A).wp p (fun _ _ => meets h B p s = true) s := by
  induction p generalizing s with
  | pure | throw => rfl
  | call o k ih =>
    refine ⟨trivial, ?_⟩
    rintro r ⟨rfl, hanswer⟩
    refine Monitor.wp_mono (ih _) (fun _ _ hrest => ?_)
    show (B o (h o s).1 && meets h B (k (h o s).1) (h o s).2) = true
    rw [hB _ _ hanswer]
    exact hrest

theorem run_of_wp {post : σ → Except ε α → Prop} {s : σ} (hp : (answering h A).wp p post s)
    (hs : meets h A p s = true) : post (run h p s).2 (run h p s).1 := by
  induction p generalizing s with
  | pure a => exact hp
  | throw e => exact hp
  | call o k ih =>
    -- the answer the handler gives is one the monitor admits
    obtain ⟨hanswer, hrest⟩ := Bool.and_eq_true_iff.mp hs
    exact ih _ (hp.2 _ ⟨rfl, hanswer⟩) hrest

theorem wp_self (s : σ) : (answering h A).wp p (fun s' r => r = (run h p s).1 ∧ s' = (run h p s).2) s := by
  induction p generalizing s with
  | pure a => exact ⟨rfl, rfl⟩
  | throw e => exact ⟨rfl, rfl⟩
  | call o k ih =>
    refine ⟨trivial, ?_⟩
    rintro r ⟨rfl, -⟩
    exact ih _ _

theorem wp_of_triple (hp : Triple h P p Q) {s : σ} (hs : P s) :
    (answering h A).wp p (fun s' r => Q r s') s := by
  refine Monitor.wp_mono (wp_self s) (fun s' r hrun => ?_)
  rw [hrun.1, hrun.2]
  exact hp s hs

end Effect.Prog
