import SyncForge.Effect.Pool

/-!
# `Effect.History` — when a call was made

The log of a thread says which calls it made, not when. `exists_moment` finds the step of the run in which a
call was made, with the run before and the run after it. Threads are followed by their place in the pool.
-/

namespace Effect.Pool

open Transition (Run)

variable {S : Sig} {ε τ σ μ : Type} {P : Setup S ε τ σ μ} {c c' : Pool S ε τ σ}
  {ok : Pool S ε τ σ → Act τ μ → Prop} {as : List (Act τ μ)} {j : Nat}

/-- Thread `j` makes the call `e` in `c`, which leads to `c'`. -/
structure Fires (P : Setup S ε τ σ μ) (j : Nat) (e : Entry S ε) (c c' : Pool S ε τ σ) : Prop where
  step : step P c (.fire j) = some c'
  call : ∃ t k, c.threads[j]? = some t ∧ t.prog = .call e.op k
  answer : e.answer = (P.handle e.op c.state).1
  state : c'.state = (P.handle e.op c.state).2

/-- **What a step does to a thread**: it is new, it stays, or it makes a call. -/
theorem thread_step {a : Act τ μ} {t' : Thread S ε τ} (h : step P c a = some c')
    (hj : c'.threads[j]? = some t') :
    (c.threads[j]? = none ∧ a = .start t'.task ∧ t' = ⟨t'.task, [], P.body t'.task⟩) ∨ c.threads[j]? = some t' ∨
      ∃ t e, c.threads[j]? = some t ∧ t'.task = t.task ∧ t'.log = t.log ++ [e] ∧ a = .fire j ∧ Fires P j e c c' := by
  rcases step_cases h with ⟨task, rfl, rfl⟩ | ⟨i, t, o, k, rfl, hi, hprog, rfl⟩ | ⟨m, s, rfl, hs, rfl⟩
  · rcases Nat.lt_trichotomy j c.threads.length with hlt | heq | hgt
    · rw [List.getElem?_append_left hlt] at hj
      exact .inr (.inl hj)
    · subst heq
      rw [List.getElem?_append_right (Nat.le_refl _), Nat.sub_self] at hj
      cases hj
      exact .inl ⟨List.getElem?_eq_none (Nat.le_refl _), rfl, rfl⟩
    · rw [List.getElem?_eq_none (by simp only [List.length_append, List.length_singleton]; omega)] at hj
      cases hj
  · have hlt : i < c.threads.length := (List.getElem?_eq_some_iff.mp hi).1
    by_cases hji : j = i
    · subst hji
      rw [List.getElem?_set_self hlt] at hj
      cases hj
      exact .inr (.inr ⟨t, ⟨o, (P.handle o c.state).1⟩, hi, rfl, rfl, rfl, h, ⟨t, k, hi, hprog⟩, rfl, rfl⟩)
    · rw [List.getElem?_set_ne (Ne.symm hji)] at hj
      exact .inr (.inl hj)
  · exact .inr (.inl hj)

variable {t : Thread S ε τ}

theorem fires_of_next {o : S.Op} (h : step P c (.fire j) = some c') (hj : c.threads[j]? = some t)
    (hnext : t.next? = some o) : Fires P j ⟨o, (P.handle o c.state).1⟩ c c' := by
  obtain ⟨k, hprog⟩ := Thread.call_of_next hnext
  refine ⟨h, ⟨t, k, hj, hprog⟩, rfl, ?_⟩
  rw [step, hj] at h
  dsimp only at h
  rw [fired, hprog] at h
  cases h
  rfl

theorem Fires.eq {e e' : Entry S ε} (h : Fires P j e c c') (h' : Fires P j e' c c') : e = e' := by
  obtain ⟨t, k, ht, hprog⟩ := h.call
  obtain ⟨t', k', ht', hprog'⟩ := h'.call
  cases ht.symm.trans ht'
  obtain ⟨hop, -⟩ := Prog.call.inj (hprog.symm.trans hprog')
  have hanswer := h.answer
  have hanswer' := h'.answer
  cases e
  cases e'
  dsimp only at hop hanswer hanswer'
  subst hop
  rw [hanswer, hanswer']

theorem Fires.mem_before {i : Nat} {e e' : Entry S ε} {t' : Thread S ε τ} (h : Fires P i e c c')
    (hj : c'.threads[j]? = some t') (he : e' ∈ t'.log) (hne : e' ≠ e) : ∃ t, c.threads[j]? = some t ∧
    t.task = t'.task ∧ e' ∈ t.log := by
  rcases thread_step h.step hj with ⟨-, hact, -⟩ | ht | ⟨t, f, ht, htask, hlog, hact, hfires⟩
  · cases hact
  · exact ⟨t', ht, rfl, he⟩
  · cases hact
    obtain rfl := h.eq hfires
    rw [hlog] at he
    rcases List.mem_append.mp he with he | he
    · exact ⟨t, ht, htask.symm, he⟩
    · exact absurd (List.mem_singleton.mp he) hne

theorem thread_stays (h : Run (step P) ok c as c') (hj : c.threads[j]? = some t) :
    ∃ t', c'.threads[j]? = some t' ∧ t'.task = t.task ∧ t.log ⊆ t'.log := by
  refine h.invariant (P := fun _ c' => ∃ t', c'.threads[j]? = some t' ∧ t'.task = t.task ∧ t.log ⊆ t'.log)
    ⟨t, hj, rfl, List.Subset.refl _⟩ ?_
  rintro _ d a d' ⟨u, hu, htask, hlog⟩ - hstep
  rcases step_cases hstep with ⟨task, rfl, rfl⟩ | ⟨i, v, o, k, rfl, hi, hprog, rfl⟩ | ⟨m, s, rfl, hs, rfl⟩
  · exact ⟨u, by rw [List.getElem?_append_left (List.getElem?_eq_some_iff.mp hu).1]; exact hu, htask, hlog⟩
  · by_cases hji : j = i
    · subst hji
      cases hu.symm.trans hi
      refine ⟨_, List.getElem?_set_self (List.getElem?_eq_some_iff.mp hi).1, htask, ?_⟩
      exact List.Subset.trans hlog (List.subset_append_left _ _)
    · exact ⟨u, by rw [List.getElem?_set_ne (Ne.symm hji)]; exact hu, htask, hlog⟩
  · exact ⟨u, hu, htask, hlog⟩

theorem done_stays (h : Run (step P) ok c as c') (hj : c.threads[j]? = some t) (hdone : t.done = true) :
    c'.threads[j]? = some t := by
  refine h.invariant (P := fun _ c' => c'.threads[j]? = some t) hj ?_
  intro _ d a d' hd _ hstep
  rcases step_cases hstep with ⟨task, rfl, rfl⟩ | ⟨i, v, o, k, rfl, hi, hprog, rfl⟩ | ⟨m, s, rfl, hs, rfl⟩
  · rwa [List.getElem?_append_left (List.getElem?_eq_some_iff.mp hd).1]
  · by_cases hji : j = i
    · subst hji
      cases hd.symm.trans hi
      rw [Thread.not_done hprog] at hdone
      cases hdone
    · rwa [List.getElem?_set_ne (Ne.symm hji)]
  · exact hd

theorem exists_moment {e : Entry S ε} (h : Run (step P) ok c as c')
    (hj : c'.threads[j]? = some t) (he : e ∈ t.log) :
    (∃ t0, c.threads[j]? = some t0 ∧ e ∈ t0.log) ∨ ∃ as1 as2 d d', as = as1 ++ .fire j :: as2 ∧
      Run (step P) ok c as1 d ∧ ok d (.fire j) ∧ Fires P j e d d' ∧ Run (step P) ok d' as2 c' := by
  induction h generalizing t with
  | refl => exact .inl ⟨t, hj, he⟩
  | @tail bs d d' a hrun hok hstep ih =>
    -- an earlier call: the last step joins the run after the moment
    have earlier : ∀ u, d.threads[j]? = some u → e ∈ u.log → (∃ t0, c.threads[j]? = some t0 ∧ e ∈ t0.log) ∨
        ∃ as1 as2 f f', bs ++ [a] = as1 ++ .fire j :: as2 ∧ Run (step P) ok c as1 f ∧ ok f (.fire j) ∧
          Fires P j e f f' ∧ Run (step P) ok f' as2 d' := by
      intro u hu heu
      rcases ih hu heu with hinit | ⟨as1, as2, f, f', rfl, hbefore, hgo, hfires, hafter⟩
      · exact .inl hinit
      · refine .inr ⟨as1, as2 ++ [a], f, f', ?_, hbefore, hgo, hfires, hafter.tail hok hstep⟩
        rw [List.append_assoc, List.cons_append]
    rcases thread_step hstep hj with ⟨-, -, ht⟩ | ht | ⟨u, e', hu, -, hlog, rfl, hfires⟩
    · rw [ht] at he
      exact absurd he List.not_mem_nil
    · exact earlier t ht he
    · rw [hlog] at he
      rcases List.mem_append.mp he with he | he
      · exact earlier u hu he
      · obtain rfl := List.mem_singleton.mp he
        exact .inr ⟨bs, [], d, d', rfl, hrun, hok, hfires, .refl⟩

end Effect.Pool
