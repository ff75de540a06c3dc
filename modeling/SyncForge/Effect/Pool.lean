import SyncForge.Effect.Scope
import SyncForge.Transition.Run

/-!
# `Effect.Pool` — programs that share a state, one call at a time

A pool is a list of threads over one state; a thread that is never chosen again has crashed. `Rely` fixes what
a thread may assume of the others: an invariant of the state, and how it may change. `R.safe may p post log s`
is the weakest precondition under such interference, and `safe_run` puts the threads together.
-/

namespace Effect

open Transition (Run)

/-! ## Pools -/

structure Thread (S : Sig) (ε τ : Type) where
  task : τ
  log : List (Entry S ε)
  prog : Prog S ε Unit

structure Pool (S : Sig) (ε τ σ : Type) where
  threads : List (Thread S ε τ)
  state : σ

/-- Start a task, make the next call of thread `i`, or let the outside world move. -/
inductive Act (τ μ : Type) where
  | start (task : τ)
  | fire (i : Nat)
  | move (m : μ)

variable {S : Sig} {ε τ σ μ α β : Type}

namespace Thread

def next? (t : Thread S ε τ) : Option S.Op :=
  match t.prog with
  | .call o _ => some o
  | _ => none

def done (t : Thread S ε τ) : Bool := t.next?.isNone

variable {t : Thread S ε τ} {o : S.Op} {k : Except ε (S.Res o) → Prog S ε Unit}

theorem next_eq (hprog : t.prog = .call o k) : t.next? = some o := by
  unfold next?
  rw [hprog]

theorem not_done (hprog : t.prog = .call o k) : t.done = false := by
  unfold done
  rw [next_eq hprog]
  rfl

theorem call_of_next (h : t.next? = some o) : ∃ k, t.prog = .call o k := by
  unfold next? at h
  split at h
  · rename_i o' k hprog
    cases h
    exact ⟨k, hprog⟩
  · cases h

end Thread

namespace Pool

structure Setup (S : Sig) (ε τ σ μ : Type) where
  handle : Prog.Handler S ε σ
  body : τ → Prog S ε Unit
  move : μ → σ → Option σ

def fired (h : Prog.Handler S ε σ) (t : Thread S ε τ) (s : σ) : Option (Thread S ε τ × σ) :=
  match t.prog with
  | .call o k => some (⟨t.task, t.log ++ [⟨o, (h o s).1⟩], k (h o s).1⟩, (h o s).2)
  | _ => none

def step (P : Setup S ε τ σ μ) (c : Pool S ε τ σ) : Act τ μ → Option (Pool S ε τ σ)
  | .start task => some ⟨c.threads ++ [⟨task, [], P.body task⟩], c.state⟩
  | .fire i =>
    match c.threads[i]? with
    | none => none
    | some t => (fired P.handle t c.state).map (fun r => ⟨c.threads.set i r.1, r.2⟩)
  | .move m => (P.move m c.state).map (fun s => ⟨c.threads, s⟩)

theorem fired_eq_some {h : Prog.Handler S ε σ} {t t' : Thread S ε τ} {s s' : σ}
    (hf : fired h t s = some (t', s')) : ∃ o k, t.prog = .call o k ∧
    t' = ⟨t.task, t.log ++ [⟨o, (h o s).1⟩], k (h o s).1⟩ ∧ s' = (h o s).2 := by
  unfold fired at hf
  split at hf
  · rename_i o k hprog
    cases Option.some.inj hf
    exact ⟨o, k, hprog, rfl, rfl⟩
  · cases hf

theorem step_cases {P : Setup S ε τ σ μ} {c c' : Pool S ε τ σ} {a : Act τ μ} (h : step P c a = some c') :
    (∃ task, a = .start task ∧ c' = ⟨c.threads ++ [⟨task, [], P.body task⟩], c.state⟩) ∨
      (∃ i t o k, a = .fire i ∧ c.threads[i]? = some t ∧ t.prog = .call o k ∧
        c' = ⟨c.threads.set i ⟨t.task, t.log ++ [⟨o, (P.handle o c.state).1⟩], k (P.handle o c.state).1⟩,
          (P.handle o c.state).2⟩) ∨ ∃ m s, a = .move m ∧ P.move m c.state = some s ∧ c' = ⟨c.threads, s⟩ := by
  cases a with
  | start task => exact .inl ⟨task, rfl, (Option.some.inj h).symm⟩
  | fire i =>
    rw [step] at h
    split at h
    · cases h
    · rename_i t hi
      obtain ⟨⟨t', s'⟩, hf, rfl⟩ := Option.map_eq_some_iff.mp h
      obtain ⟨o, k, hprog, rfl, rfl⟩ := fired_eq_some hf
      exact .inr (.inl ⟨i, t, o, k, rfl, hi, hprog, rfl⟩)
  | move m =>
    obtain ⟨s, hs, rfl⟩ := Option.map_eq_some_iff.mp h
    exact .inr (.inr ⟨m, s, rfl, hs, rfl⟩)

end Pool

/-! ## Interference -/

/-- What threads may rely on, and must guarantee: an invariant of the state, how the state may change, and in
    which states a call is made at all. -/
structure Rely (S : Sig) (ε σ : Type) where
  handle : Prog.Handler S ε σ
  ok : S.Op → σ → Prop
  inv : σ → Prop
  change : σ → σ → Prop
  refl : ∀ s, change s s
  trans : ∀ s t u, change s t → change t u → change s u

structure Promise (S : Sig) (ε σ α : Type) where
  may : List (Entry S ε) → S.Op → σ → Prop
  post : List (Entry S ε) → Except ε α → σ → Prop

namespace Rely

variable (R : Rely S ε σ)

/-- `t` is a state the others may have made of `s`. -/
def later (s t : σ) : Prop := R.change s t ∧ R.inv t

def keeps (o : S.Op) (t : σ) : Prop := R.change t (R.handle o t).2 ∧ R.inv (R.handle o t).2

def safe (may : List (Entry S ε) → S.Op → σ → Prop) :
    Prog S ε α → (List (Entry S ε) → Except ε α → σ → Prop) → List (Entry S ε) → σ → Prop
  | .pure a, post, log, s => ∀ t, R.later s t → post log (.ok a) t
  | .throw e, post, log, s => ∀ t, R.later s t → post log (.error e) t
  | .call o k, post, log, s => ∀ t, R.later s t → R.ok o t → may log o t ∧
      R.keeps o t ∧ safe may (k (R.handle o t).1) post (log ++ [⟨o, (R.handle o t).1⟩]) (R.handle o t).2

variable {R} {may : List (Entry S ε) → S.Op → σ → Prop} {log : List (Entry S ε)} {s t : σ}
  {post post' : List (Entry S ε) → Except ε α → σ → Prop}

theorem later_trans {u : σ} (h : R.change s t) (h' : R.later t u) : R.later s u :=
    ⟨R.trans _ _ _ h h'.1, h'.2⟩

variable {p : Prog S ε α}

/-- **Stability**: what is known before the others go on is known after. -/
theorem safe_stable (h : R.safe may p post log s) (hst : R.change s t) : R.safe may p post log t := by
  cases p with
  | pure a => exact fun u hu => h u (later_trans hst hu)
  | throw e => exact fun u hu => h u (later_trans hst hu)
  | call o k => exact fun u hu => h u (later_trans hst hu)

theorem safe_return {a : α} (h : ∀ t, R.later s t → post log (.ok a) t) :
    R.safe may (Pure.pure a : Prog S ε α) post log s := h

theorem safe_ofExcept {r : Except ε α} (h : ∀ t, R.later s t → post log r t) :
    R.safe may (Prog.ofExcept r) post log s := by
  cases r <;> exact h

theorem safe_mono (h : R.safe may p post log s) (himp : ∀ log r t, post log r t → post' log r t) :
    R.safe may p post' log s := by
  induction p generalizing log s with
  | pure a => exact fun t ht => himp _ _ _ (h t ht)
  | throw e => exact fun t ht => himp _ _ _ (h t ht)
  | call o k ih => exact fun t ht hok => ⟨(h t ht hok).1, (h t ht hok).2.1, ih _ (h t ht hok).2.2⟩

theorem safe_weaken {may' : List (Entry S ε) → S.Op → σ → Prop} (h : R.safe may p post log s)
    (himp : ∀ log o t, may log o t → may' log o t) : R.safe may' p post log s := by
  induction p generalizing log s with
  | pure a => exact h
  | throw e => exact h
  | call o k ih => exact fun t ht hok => ⟨himp _ _ _ (h t ht hok).1, (h t ht hok).2.1, ih _ (h t ht hok).2.2⟩

theorem safe_perform {o : S.Op} {post : List (Entry S ε) → Except ε (S.Res o) → σ → Prop}
    (h : ∀ t, R.later s t → R.ok o t → may log o t ∧ R.keeps o t ∧
      ∀ u, R.later (R.handle o t).2 u → post (log ++ [⟨o, (R.handle o t).1⟩]) (R.handle o t).1 u) :
    R.safe may (Prog.perform o) post log s :=
  fun t ht hok => ⟨(h t ht hok).1, (h t ht hok).2.1, safe_ofExcept (h t ht hok).2.2⟩

variable {Q : List (Entry S ε) → Except ε α → σ → Prop}

/-- **Sequence rule**: `Q` is what is known between the two parts. -/
theorem safe_bind {f : α → Prog S ε β} {post : List (Entry S ε) → Except ε β → σ → Prop}
    (hp : R.safe may p Q log s) (hok : ∀ log a t, Q log (.ok a) t → R.inv t → R.safe may (f a) post log t)
    (herror : ∀ log e t, Q log (.error e) t → post log (.error e) t) (hs : R.inv s) :
    R.safe may (p >>= f) post log s := by
  induction p generalizing log s with
  | pure a => exact hok _ _ _ (hp s ⟨R.refl s, hs⟩) hs
  | throw e => exact fun t ht => herror _ _ _ (hp t ht)
  | call o k ih =>
    intro t ht hgo
    obtain ⟨hmay, hkeep, hrest⟩ := hp t ht hgo
    exact ⟨hmay, hkeep, ih _ hrest hkeep.2⟩

/-- **Sequence rule** when nothing has to be known at the end. -/
theorem safe_seq {f : α → Prog S ε β}
    (hp : R.safe may p Q log s)
    (hok : ∀ log a t, Q log (.ok a) t → R.inv t → R.safe may (f a) (fun _ _ _ => True) log t) (hs : R.inv s) :
      R.safe may (p >>= f) (fun _ _ _ => True) log s :=
  safe_bind hp hok (fun _ _ _ _ => trivial) hs

/-- **Sequence rule** when the outcome of the first part is looked at. -/
theorem safe_attempt {f : Except ε α → Prog S ε β} {post : List (Entry S ε) → Except ε β → σ → Prop}
    (hp : R.safe may p Q log s) (hf : ∀ log r t, Q log r t → R.inv t →
      R.safe may (f r) post log t) (hs : R.inv s) : R.safe may (p.attempt >>= f) post log s := by
  induction p generalizing log s with
  | pure a => exact hf _ _ _ (hp s ⟨R.refl s, hs⟩) hs
  | throw e => exact hf _ _ _ (hp s ⟨R.refl s, hs⟩) hs
  | call o k ih =>
    intro t ht hgo
    obtain ⟨hmay, hkeep, hrest⟩ := hp t ht hgo
    exact ⟨hmay, hkeep, ih _ hrest hkeep.2⟩

variable {I : List (Entry S ε) → σ → Prop}

theorem safe_of_within {P : Scope S} {good : α → Prop}
    (hp : P.within p good) (hgives : ∀ o t a, P.may o → R.inv t → (R.handle o t).1 = .ok a → P.gives o a)
    (hstable : ∀ log s t, I log s → R.later s t → I log t) (hcall : ∀ log o t, P.may o → R.inv t → R.ok o t →
      I log t → may log o t ∧ R.keeps o t ∧ I (log ++ [⟨o, (R.handle o t).1⟩]) (R.handle o t).2)
      (hI : I log s) :
    R.safe may p (fun log _ t => I log t) log s := by
  induction p generalizing log s with
  | pure a => exact fun t ht => hstable log s t hI ht
  | throw e => exact fun t ht => hstable log s t hI ht
  | call o k ih =>
    intro t ht hok
    obtain ⟨hmay, hkeep, hI'⟩ := hcall log o t hp.1 ht.2 hok (hstable log s t hI ht)
    refine ⟨hmay, hkeep, ?_⟩
    cases hr : (R.handle o t).1 with
    | ok a => exact ih _ (hp.2.1 a (hgives o t a hp.1 ht.2 hr)) (hr ▸ hI')
    | error e => exact ih _ (hp.2.2 e) (hr ▸ hI')

/-- **Invariant rule** for programs that only make calls of one kind: `I` is about the thread's own calls and
    the state, and survives the others. -/
theorem safe_of_only {K : S.Op → Prop} (hp : Prog.Only K p)
    (hstable : ∀ log s t, I log s → R.later s t → I log t) (hcall : ∀ log o t, K o → R.inv t → R.ok o t →
      I log t → may log o t ∧ R.keeps o t ∧ I (log ++ [⟨o, (R.handle o t).1⟩]) (R.handle o t).2)
      (hI : I log s) :
    R.safe may p (fun log _ t => I log t) log s :=
  safe_of_within (P := ⟨K, fun _ _ => True⟩) (Scope.within_of_only hp (fun _ h => h))
    (fun _ _ _ _ _ _ => trivial) hstable hcall hI

def free (h : Prog.Handler S ε σ) : Rely S ε σ where
  handle := h
  ok _ _ := True
  inv _ := True
  change _ _ := True
  refl _ := trivial
  trans _ _ _ _ _ := trivial

theorem free_keeps {h : Prog.Handler S ε σ} {o : S.Op} {t : σ} : (free h).keeps o t := ⟨trivial, trivial⟩

end Rely

/-! ## Threads together -/

namespace Pool

/-- Which actions a run takes: tasks that `spawn` allows, calls that are made in states where `ok` allows
    them. -/
def permits (ok : S.Op → σ → Prop) (spawn : σ → τ → Prop) (c : Pool S ε τ σ) : Act τ μ → Prop
  | .start task => spawn c.state task
  | .fire i => ∀ t o, c.threads[i]? = some t → t.next? = some o → ok o c.state
  | .move _ => True

variable {P : Setup S ε τ σ μ} {R : Rely S ε σ} {spawn : σ → τ → Prop} {D : τ → Promise S ε σ Unit}
  {c c' : Pool S ε τ σ} {as : List (Act τ μ)} {ok : Pool S ε τ σ → Act τ μ → Prop}

theorem permits_of_run (h : Run (step P) ok c as c') :
    Run (step P) (permits (fun _ _ => True) (fun _ task => .start task ∈ as)) c as c' := by
  refine h.mono (fun c a ha _ => ?_)
  cases a with
  | start task => exact ha
  | fire i => exact fun _ _ _ _ => trivial
  | move m => trivial

def permitted (ok : S.Op → σ → Bool) (c : Pool S ε τ σ) : Act τ μ → Bool
  | .fire i => ((c.threads[i]?).bind Thread.next?).all (fun o => ok o c.state)
  | _ => true

theorem permits_of_permitted {ok : S.Op → σ → Bool} {a : Act τ μ} (h : permitted ok c a = true) :
    permits (fun o s => ok o s = true) (fun _ _ => True) c a := by
  cases a with
  | start task => trivial
  | fire i =>
    intro t o ht ho
    rwa [permitted, ht, Option.bind_some, ho] at h
  | move m => trivial

structure Safe (R : Rely S ε σ) (D : τ → Promise S ε σ Unit) (c : Pool S ε τ σ) : Prop where
  inv : R.inv c.state
  threads : ∀ t ∈ c.threads, R.safe (D t.task).may t.prog (D t.task).post t.log c.state
  made : ∀ t ∈ c.threads, ∀ pre e post, t.log = pre ++ e :: post →
    ∃ s, R.inv s ∧ (D t.task).may pre e.op s ∧ e.answer = (R.handle e.op s).1

variable {t : Thread S ε τ}

theorem made_snoc {o : S.Op} {s : σ}
    (h : ∀ pre e post, t.log = pre ++ e :: post → ∃ s, R.inv s ∧ (D t.task).may pre e.op s ∧
      e.answer = (R.handle e.op s).1) (hs : R.inv s) (hmay : (D t.task).may t.log o s) :
      ∀ pre e post, t.log ++ [⟨o, (R.handle o s).1⟩] = pre ++ e :: post → ∃ s, R.inv s ∧
      (D t.task).may pre e.op s ∧ e.answer = (R.handle e.op s).1 := by
  intro pre e post hlog
  rcases List.eq_nil_or_concat post with rfl | ⟨post', e', rfl⟩
  · obtain ⟨rfl, he⟩ := List.append_inj' hlog rfl
    cases he
    exact ⟨s, hs, hmay, rfl⟩
  · rw [List.concat_eq_append, ← List.cons_append, ← List.append_assoc] at hlog
    exact h pre e post' (List.append_inj' hlog rfl).1

section

variable (hR : R.handle = P.handle)
  (hstart : ∀ s task, R.inv s → spawn s task → R.safe (D task).may (P.body task) (D task).post [] s)
  (hmove : ∀ m s s', R.inv s → P.move m s = some s' → R.later s s')
include hR hstart hmove

theorem safe_step {a : Act τ μ} (hc : Safe R D c) (hok : permits R.ok spawn c a) (h : step P c a = some c') :
    Safe R D c' := by
  rcases step_cases h with ⟨task, rfl, rfl⟩ | ⟨i, t, o, k, rfl, hi, hprog, rfl⟩ | ⟨m, s, rfl, hs, rfl⟩
  · refine ⟨hc.inv, List.forall_mem_append.mpr ⟨hc.threads, ?_⟩, List.forall_mem_append.mpr ⟨hc.made, ?_⟩⟩
    · exact List.forall_mem_singleton.mpr (hstart c.state task hc.inv hok)
    · refine List.forall_mem_singleton.mpr (fun pre e post hlog => ?_)
      exact absurd hlog (by simp)
  · -- the thread's own call; the others see a change they rely on
    have hmem := List.mem_of_getElem? hi
    have ht := hc.threads t hmem
    rw [hprog] at ht
    have hgo : R.ok o c.state := hok t o hi (Thread.next_eq hprog)
    obtain ⟨hmay, hkeep, hrest⟩ := ht c.state ⟨R.refl _, hc.inv⟩ hgo
    rw [← hR]
    refine ⟨hkeep.2, fun u hu => ?_, fun u hu => ?_⟩
    · rcases List.mem_or_eq_of_mem_set hu with hu | rfl
      · exact Rely.safe_stable (hc.threads u hu) hkeep.1
      · exact hrest
    · rcases List.mem_or_eq_of_mem_set hu with hu | rfl
      · exact hc.made u hu
      · exact made_snoc (hc.made t hmem) hc.inv hmay
  · have hlater := hmove m c.state s hc.inv hs
    exact ⟨hlater.2, fun u hu => Rely.safe_stable (hc.threads u hu) hlater.1, hc.made⟩

/-- **Run lemma**: threads that each keep their promise under interference keep it together. -/
theorem safe_run (h : Run (step P) (permits R.ok spawn) c as c') (hc : Safe R D c) : Safe R D c' :=
  h.invariant (P := fun _ c => Safe R D c) hc
    (fun _ _ _ _ hc hok hstep => safe_step hR hstart hmove hc hok hstep)

end

theorem Safe.may_next {h : Prog.Handler S ε σ} {o : S.Op} {k : Except ε (S.Res o) → Prog S ε Unit}
    (hc : Safe (Rely.free h) D c) (ht : t ∈ c.threads) (hprog : t.prog = .call o k) :
    (D t.task).may t.log o c.state := by
  have hsafe := hc.threads t ht
  rw [hprog] at hsafe
  exact (hsafe c.state ⟨trivial, trivial⟩ trivial).1

theorem step_grows {a : Act τ μ} (h : step P c a = some c') (ht : t ∈ c.threads) :
    ∃ t' ∈ c'.threads, t'.task = t.task ∧ t.log ⊆ t'.log := by
  rcases step_cases h with ⟨task, rfl, rfl⟩ | ⟨i, u, o, k, rfl, hi, hprog, rfl⟩ | ⟨m, s, rfl, hs, rfl⟩
  · exact ⟨t, List.mem_append_left _ ht, rfl, List.Subset.refl _⟩
  · have hlt : i < c.threads.length := (List.getElem?_eq_some_iff.mp hi).1
    obtain ⟨j, hj⟩ := List.getElem?_of_mem ht
    by_cases hji : j = i
    · subst hji
      rw [hi] at hj
      cases hj
      exact ⟨_, List.mem_set hlt _, rfl, List.subset_append_left _ _⟩
    · refine ⟨t, List.mem_iff_getElem?.mpr ⟨j, ?_⟩, rfl, List.Subset.refl _⟩
      rwa [List.getElem?_set_ne (Ne.symm hji)]
  · exact ⟨t, ht, rfl, List.Subset.refl _⟩

theorem safe_nil {s : σ} (hs : R.inv s) : Safe R D ⟨[], s⟩ := ⟨hs, nofun, nofun⟩

theorem Safe.post_of_done (hc : Safe R D c) (ht : t ∈ c.threads) (hdone : t.done = true) :
    ∃ r, (D t.task).post t.log r c.state := by
  have hsafe := hc.threads t ht
  cases hprog : t.prog with
  | pure a =>
    rw [hprog] at hsafe
    exact ⟨_, hsafe c.state ⟨R.refl _, hc.inv⟩⟩
  | throw e =>
    rw [hprog] at hsafe
    exact ⟨_, hsafe c.state ⟨R.refl _, hc.inv⟩⟩
  | call o k => simp [Thread.done, Thread.next?, hprog] at hdone

/-! ### What the logs know -/

def Calls (K : S.Op → Prop) (log : List (Entry S ε)) : Prop := ∃ e ∈ log, K e.op

instance {K : S.Op → Prop} [DecidablePred K] {log : List (Entry S ε)} : Decidable (Calls K log) :=
  inferInstanceAs (Decidable (∃ e ∈ log, K e.op))

theorem calls_snoc {K : S.Op → Prop} {log : List (Entry S ε)} {e : Entry S ε} :
    Calls K (log ++ [e]) ↔ Calls K log ∨ K e.op := by
  simp only [Calls, List.mem_append, List.mem_singleton, or_and_right, exists_or, exists_eq_left]

/-- **A fact of the state has an author**: what was not so at first, and no move of the outside world makes
    so, was brought about by a call of some thread. -/
theorem exists_author {Q : σ → Prop} {A : Entry S ε → Prop} (h : Run (step P) ok c as c')
    (hcall : ∀ o s, ¬ Q s → Q (P.handle o s).2 → A ⟨o, (P.handle o s).1⟩)
    (hmove : ∀ m s s', ¬ Q s → P.move m s = some s' → ¬ Q s') (hinit : ¬ Q c.state) :
    Q c'.state → ∃ t ∈ c'.threads, ∃ e ∈ t.log, A e := by
  refine h.invariant (P := fun _ c => Q c.state →
    ∃ t ∈ c.threads, ∃ e ∈ t.log, A e) (fun hQ => absurd hQ hinit) ?_
  intro _ c a c' ih _ hstep hQ
  rcases step_cases hstep with ⟨task, rfl, rfl⟩ | ⟨i, t, o, k, rfl, hi, hprog, rfl⟩ | ⟨m, s, rfl, hs, rfl⟩
  · obtain ⟨u, hu, e, he, hA⟩ := ih hQ
    exact ⟨u, List.mem_append_left _ hu, e, he, hA⟩
  · have hlt : i < c.threads.length := (List.getElem?_eq_some_iff.mp hi).1
    by_cases hbefore : Q c.state
    · obtain ⟨u, hu, e, he, hA⟩ := ih hbefore
      obtain ⟨u', hu', _, hlog⟩ := step_grows hstep hu
      exact ⟨u', hu', e, hlog he, hA⟩
    · exact ⟨_, List.mem_set hlt _, _, List.mem_concat_self, hcall o c.state hbefore hQ⟩
  · by_cases hbefore : Q c.state
    · exact ih hbefore
    · exact absurd hQ (hmove m c.state s hbefore hs)

end Pool

end Effect
