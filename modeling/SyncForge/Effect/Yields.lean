import SyncForge.Effect.Triple

/-!
# `Effect.Yields` — what a program returns when nothing goes wrong

`Yields h A p s post`: if every answer the run of `p` from `s` gets is one that `A` allows, then `p` returns a
value, and
`post` holds of the value and of the state then. It is `Monitor.wp` of the monitor `answering`, for programs
that do not throw on allowed answers; the rules below spare their users the outcomes that cannot occur.
-/

namespace Effect.Prog

variable {S : Sig} {ε σ α β : Type}

/-- If all answers are allowed ones, `p` returns a value from `s`, and `post` holds of it and the state
    then. -/
def Yields (h : Handler S ε σ) (A : (o : S.Op) → Except ε (S.Res o) → Bool) (p : Prog S ε α) (s : σ)
    (post : α → σ → Prop) : Prop :=
  (answering h A).wp p (fun s' r => ∃ a, r = .ok a ∧ post a s') s

variable {h : Handler S ε σ} {A : (o : S.Op) → Except ε (S.Res o) → Bool} {p : Prog S ε α} {s : σ}
  {post mid : α → σ → Prop} {post' : β → σ → Prop}

theorem yields_return {a : α} (hpost : post a s) : Yields h A (Pure.pure a) s post := ⟨a, rfl, hpost⟩

theorem yields_ofExcept {r : Except ε α} {a : α} (hr : r = .ok a) (hpost : post a s) :
    Yields h A (ofExcept r) s post :=
  (Monitor.wp_ofExcept r).mpr ⟨a, hr, hpost⟩

theorem yields_perform {o : S.Op} {post : S.Res o → σ → Prop}
    (hok : ∀ a, (h o s).1 = .ok a → post a (h o s).2) (herror : ∀ e, (h o s).1 = .error e →
      A o (.error e) = false) : Yields h A (perform o) s post := by
  refine (Monitor.wp_perform o).mpr ⟨trivial, ?_⟩
  rintro r ⟨hr, hA⟩
  cases hanswer : (h o s).1 with
  | ok a => exact ⟨a, hr.trans hanswer, hok a hanswer⟩
  | error e =>
    rw [hr, hanswer, herror e hanswer] at hA
    cases hA

theorem yields_mono (hp : Yields h A p s mid) (hpost : ∀ a s', mid a s' → post a s') : Yields h A p s post :=
  Monitor.wp_mono hp (fun s' _ ⟨a, hr, ha⟩ => ⟨a, hr, hpost a s' ha⟩)

theorem yields_bind {f : α → Prog S ε β} (hp : Yields h A p s mid)
    (hf : ∀ a s', mid a s' → Yields h A (f a) s' post') : Yields h A (p >>= f) s post' := by
  refine Monitor.wp_seq hp (fun s' a ha => ?_) (fun s' e he => ?_)
  · obtain ⟨_, hr, ha⟩ := ha
    cases hr
    exact hf a s' ha
  · obtain ⟨_, hr, _⟩ := he
    cases hr

/-- **Sequence rule** when the outcome of the first part is looked at. -/
theorem yields_attempt {f : Except ε α → Prog S ε β} (hp : Yields h A p s mid)
    (hf : ∀ a s', mid a s' → Yields h A (f (.ok a)) s' post') : Yields h A (p.attempt >>= f) s post' := by
  refine Monitor.wp_seq_attempt hp ?_
  rintro s' _ ⟨a, rfl, ha⟩
  exact hf a s' ha

theorem run_of_yields (hp : Yields h A p s post) (hs : meets h A p s = true) : ∃ a, (run h p s).1 = .ok a ∧
    post a (run h p s).2 :=
  run_of_wp hp hs

end Effect.Prog
