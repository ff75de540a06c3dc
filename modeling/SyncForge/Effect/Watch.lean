import SyncForge.Effect.Scope
import SyncForge.Effect.Triple

/-!
# `Effect.Watch` — the calls of a run alone

The monitor `watching` follows a run of its own handler and lets calls of one kind pass. What its `wp` shows
is that all calls of the run are of that kind, and that the postcondition holds at its end; the rules are
those of `Monitor.wp`. The condition of `guarding` is on the state, too: it holds wherever the run is cut
short (`advance`).
-/

namespace Effect.Prog

variable {S : Sig} {ε σ α : Type} {h : Handler S ε σ} {K : S.Op → Prop} {p : Prog S ε α} {s : σ}

def watching (h : Handler S ε σ) (K : S.Op → Prop) : Monitor S ε σ where
  next s o _ := (h o s).2
  may _ o := K o
  adm s o r := r = (h o s).1

theorem trace_of_wp {post : σ → Except ε α → Prop} (hp : (watching h K).wp p post s) :
    (∀ e ∈ trace h p s, K e.op) ∧ post (run h p s).2 (run h p s).1 := by
  induction p generalizing s with
  | pure a => exact ⟨nofun, hp⟩
  | throw e => exact ⟨nofun, hp⟩
  | call o k ih =>
    obtain ⟨hrest, hpost⟩ := ih _ (hp.2 _ rfl)
    refine ⟨fun e he => ?_, hpost⟩
    rcases List.mem_cons.mp he with rfl | he
    · exact hp.1
    · exact hrest e he

theorem watch_of_only {I : σ → Prop} (hp : Only K p) (hcall : ∀ s o, K o → I s → I (h o s).2) (hs : I s) :
    (watching h K).wp p (fun s' _ => I s') s :=
  wp_of_only hp (fun s' o hs' ho => ⟨ho, fun _ _ => hcall s' o ho hs'⟩) hs

/-! ## Runs that are cut short -/

/-- What is left of a program after `n` calls, and the state then. -/
def advance (h : Handler S ε σ) : Nat → Prog S ε α → σ → Prog S ε α × σ
  | n + 1, .call o k, s => advance h n (k (h o s).1) (h o s).2
  | _, p, s => (p, s)

def next? : Prog S ε α → Option S.Op
  | .call o _ => some o
  | _ => none

/-- The monitor of one run: `C` holds at every call. -/
def guarding (h : Handler S ε σ) (C : S.Op → σ → Prop) : Monitor S ε σ where
  next s o _ := (h o s).2
  may s o := C o s
  adm s o r := r = (h o s).1

variable {C : S.Op → σ → Prop} {post : σ → Except ε α → Prop} {s : σ}

theorem guarding_run (hp : (guarding h C).wp p post s) : post (run h p s).2 (run h p s).1 := by
  induction p generalizing s with
  | pure a => exact hp
  | throw e => exact hp
  | call o k ih => exact ih _ (hp.2 _ rfl)

theorem guarding_advance (hp : (guarding h C).wp p post s) (n : Nat) :
    (guarding h C).wp (advance h n p s).1 post (advance h n p s).2 := by
  induction n generalizing p s with
  | zero => exact hp
  | succ n ih =>
    cases p with
    | pure a => exact hp
    | throw e => exact hp
    | call o k => exact ih (hp.2 _ rfl)

theorem guarding_call {o : S.Op} {k : Except ε (S.Res o) → Prog S ε α} {r : Except ε (S.Res o)} {s' : σ}
    (hC : C o s) (ho : h o s = (r, s')) (hk : (guarding h C).wp (k r) post s') :
    (guarding h C).wp (.call o k) post s := by
  refine ⟨hC, ?_⟩
  rintro _ rfl
  change (guarding h C).wp (k (h o s).1) post (h o s).2
  rw [ho]
  exact hk

end Effect.Prog
