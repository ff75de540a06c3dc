import SyncForge.Effect.Monitor

/-!
# `Effect.Serial` — taking turns, and one after the other

Two programs take turns. If every call of the first is independent of the calls the second has made so far,
the first could as well have run to its end before (`Serialized`). A `Footprint` says which regions of the
state a call touches and writes; what the environment decides about a call is an input of it.
-/

namespace Effect

structure Footprint (S : Sig) (ε σ ι : Type) where
  handle : ι → Prog.Handler S ε σ
  Region : Type
  Val : Region → Type
  get : (ρ : Region) → σ → Val ρ
  /-- The calls the footprint is about. -/
  known : S.Op → Prop
  touches : S.Op → Region → Prop
  writes : S.Op → Region → Prop
  touches_of_writes : ∀ o ρ, writes o ρ → touches o ρ
  /-- A call leaves alone what it does not write. -/
  frame : ∀ x o s ρ, known o → ¬ writes o ρ → get ρ (handle x o s).2 = get ρ s
  /-- What a call touches decides its answer and what it writes. -/
  determined : ∀ x o s s', known o → (∀ ρ, touches o ρ → get ρ s = get ρ s') →
    (handle x o s).1 = (handle x o s').1 ∧ ∀ ρ, writes o ρ → get ρ (handle x o s).2 = get ρ (handle x o s').2

namespace Footprint

open Prog

variable {S : Sig} {ε σ ι α β : Type} (F : Footprint S ε σ ι)

def Alike (s s' : σ) : Prop := ∀ ρ, F.get ρ s = F.get ρ s'

def Independent (o o' : S.Op) : Prop :=
  ∀ ρ, (F.writes o ρ → ¬ F.touches o' ρ) ∧ (F.writes o' ρ → ¬ F.touches o ρ)

variable {F} {s s' t : σ} {o o' : S.Op} {x x' : ι}

theorem Alike.refl (s : σ) : F.Alike s s := fun _ => rfl

theorem Alike.symm (h : F.Alike s s') : F.Alike s' s := fun ρ => (h ρ).symm

theorem Alike.trans (h : F.Alike s s') (h' : F.Alike s' t) : F.Alike s t := fun ρ => (h ρ).trans (h' ρ)

theorem Independent.symm (h : F.Independent o o') : F.Independent o' o := fun ρ => ⟨(h ρ).2, (h ρ).1⟩

/-! ## Two calls -/

theorem Alike.handle (h : F.Alike s s') (ho : F.known o) (x : ι) :
    (F.handle x o s).1 = (F.handle x o s').1 ∧ F.Alike (F.handle x o s).2 (F.handle x o s').2 := by
  obtain ⟨hanswer, hwrites⟩ := F.determined x o s s' ho (fun ρ _ => h ρ)
  refine ⟨hanswer, fun ρ => ?_⟩
  by_cases hw : F.writes o ρ
  · exact hwrites ρ hw
  · rw [F.frame x o s ρ ho hw, F.frame x o s' ρ ho hw]
    exact h ρ

theorem Independent.untouched (h : F.Independent o o') (ho : F.known o) (x : ι) (s : σ) :
    ∀ ρ, F.touches o' ρ → F.get ρ (F.handle x o s).2 = F.get ρ s :=
  fun ρ htouch => F.frame x o s ρ ho (fun hw => (h ρ).1 hw htouch)

theorem Independent.answer (h : F.Independent o o') (ho : F.known o) (ho' : F.known o') (x x' : ι) (s : σ) :
    (F.handle x' o' (F.handle x o s).2).1 = (F.handle x' o' s).1 :=
  (F.determined x' o' _ _ ho' (h.untouched ho x s)).1

theorem Independent.commute (h : F.Independent o o') (ho : F.known o) (ho' : F.known o') (x x' : ι) (s : σ) :
    F.Alike (F.handle x' o' (F.handle x o s).2).2 (F.handle x o (F.handle x' o' s).2).2 := by
  have hfirst := (F.determined x o _ _ ho (h.symm.untouched ho' x' s)).2
  have hsecond := (F.determined x' o' _ _ ho' (h.untouched ho x s)).2
  intro ρ
  by_cases hw : F.writes o ρ
  · -- the other call does not even touch this region
    have hno : ¬ F.writes o' ρ := fun hw' => (h ρ).1 hw (F.touches_of_writes o' ρ hw')
    rw [F.frame x' o' _ ρ ho' hno, hfirst ρ hw]
  · rw [F.frame x o _ ρ ho hw]
    by_cases hw' : F.writes o' ρ
    · exact hsecond ρ hw'
    · rw [F.frame x' o' _ ρ ho' hw', F.frame x' o' _ ρ ho' hw', F.frame x o _ ρ ho hw]

/-! ## One program, call by call -/

/-- With the inputs `xs` the program makes the calls `os`, and is then left as `p'` in `s'`. -/
inductive Drives (F : Footprint S ε σ ι) (p : Prog S ε α) (s : σ) :
    List ι → List S.Op → Prog S ε α → σ → Prop where
  | refl : Drives F p s [] [] p s
  | tail {xs : List ι} {os : List S.Op} {o : S.Op} {k : Except ε (S.Res o) → Prog S ε α} {s' : σ} (x : ι) :
      Drives F p s xs os (.call o k) s' →
      Drives F p s (xs ++ [x]) (os ++ [o]) (k (F.handle x o s').1) (F.handle x o s').2

variable {p p' : Prog S ε α} {q q' : Prog S ε β} {xs ys : List ι} {os os' : List S.Op}

theorem Drives.known (h : Drives F p s xs os p' s') (hp : Only F.known p) :
    Only F.known p' ∧ ∀ o ∈ os, F.known o := by
  induction h with
  | refl => exact ⟨hp, fun o ho => by cases ho⟩
  | tail x _ ih =>
    obtain ⟨⟨ho, hk⟩, hos⟩ := ih
    refine ⟨hk _, fun o' ho' => ?_⟩
    rcases List.mem_append.mp ho' with ho' | ho'
    · exact hos o' ho'
    · rwa [List.mem_singleton.mp ho']

/-- **A call may be made before the program** instead of after it, if it is independent of the calls of the
    program. -/
theorem Drives.push (h : Drives F p s xs os p' s') (hp : Only F.known p) (ho : F.known o)
    (hos : ∀ o' ∈ os, F.Independent o o') (x : ι) :
    ∃ t', Drives F p (F.handle x o s).2 xs os p' t' ∧ F.Alike t' (F.handle x o s').2 ∧
      (F.handle x o s').1 = (F.handle x o s).1 := by
  induction h with
  | refl => exact ⟨_, .refl, .refl _, rfl⟩
  | @tail xs os o' k s' y hprev ih =>
    obtain ⟨t', hd, ht', hanswer⟩ := ih (fun o'' h => hos o'' (List.mem_append_left _ h))
    have hind : F.Independent o o' := hos o' (List.mem_concat_self)
    have ho' : F.known o' := (hprev.known hp).1.1
    obtain ⟨hsame, halike⟩ := ht'.handle ho' y
    -- the last call of the program gets the same answer after the pushed one, so the program goes on alike
    have hk : (F.handle y o' t').1 = (F.handle y o' s').1 := hsame.trans (hind.answer ho ho' x y s')
    refine ⟨_, hk ▸ hd.tail y, halike.trans (hind.commute ho ho' x y s'), ?_⟩
    rwa [hind.symm.answer ho' ho y x s']

/-! ## Two programs -/

/-- The programs `p` and `q`, started in `s` and taking turns, are left as `p'` and `q'` in `s'`; the same
    calls made by `p` alone and then by `q` leave them so in a state that looks alike. `os` are the calls `q`
    has made. -/
def Serialized (F : Footprint S ε σ ι) (p : Prog S ε α) (q : Prog S ε β) (s : σ) (xs ys : List ι)
    (os : List S.Op) (p' : Prog S ε α) (q' : Prog S ε β) (s' : σ) : Prop :=
  ∃ os' s1 s2, Drives F p s xs os' p' s1 ∧ Drives F q s1 ys os q' s2 ∧ F.Alike s2 s'

theorem Serialized.start (p : Prog S ε α) (q : Prog S ε β) (s : σ) : Serialized F p q s [] [] [] p q s :=
  ⟨[], s, s, .refl, .refl, .refl s⟩

theorem Serialized.congr (h : Serialized F p q s xs ys os p' q' s') (hs : F.Alike s' t) :
    Serialized F p q s xs ys os p' q' t := by
  obtain ⟨os', s1, s2, hp, hq, halike⟩ := h
  exact ⟨os', s1, s2, hp, hq, halike.trans hs⟩

variable {k : Except ε (S.Res o) → Prog S ε β}

theorem Serialized.right (h : Serialized F p q s xs ys os p' (.call o k) s') (hq : Only F.known q) (x : ι) :
    Serialized F p q s xs (ys ++ [x]) (os ++ [o]) p' (k (F.handle x o s').1) (F.handle x o s').2 := by
  obtain ⟨os', s1, s2, hdp, hdq, halike⟩ := h
  obtain ⟨hanswer, hstate⟩ := halike.handle (hdq.known hq).1.1 x
  exact ⟨os', s1, _, hdp, hanswer ▸ hdq.tail x, hstate⟩

/-- **A turn of the first program**, with a call that is independent of all the second one has made. -/
theorem Serialized.left {k : Except ε (S.Res o) → Prog S ε α}
    (h : Serialized F p q s xs ys os (.call o k) q' s') (hp : Only F.known p) (hq : Only F.known q)
    (hos : ∀ o' ∈ os, F.Independent o o') (x : ι) :
    Serialized F p q s (xs ++ [x]) ys os (k (F.handle x o s').1) q' (F.handle x o s').2 := by
  obtain ⟨os', s1, s2, hdp, hdq, halike⟩ := h
  have ho : F.known o := (hdp.known hp).1.1
  -- the new call is moved in front of all that `q` did
  obtain ⟨t', hdq', ht', hanswer⟩ := hdq.push hq ho hos x
  obtain ⟨hsame, hstate⟩ := halike.handle ho x
  have hk : (F.handle x o s1).1 = (F.handle x o s').1 := hanswer.symm.trans hsame
  exact ⟨os' ++ [o], _, t', hk ▸ hdp.tail x, hdq', ht'.trans hstate⟩

/-! ## A handler that reads the inputs -/

structure Reads (F : Footprint S ε σ ι) (h : Handler S ε σ) (input : σ → ι) : Prop where
  handle : ∀ o s, F.known o → (h o s).1 = (F.handle (input s) o s).1 ∧
    F.Alike (h o s).2 (F.handle (input s) o s).2

variable {h : Handler S ε σ} {input : σ → ι}

theorem Serialized.turn_right (hreads : Reads F h input)
    (hser : Serialized F p q s xs ys os p' (.call o k) s') (hq : Only F.known q) :
    Serialized F p q s xs (ys ++ [input s']) (os ++ [o]) p' (k (h o s').1) (h o s').2 := by
  have ho : F.known o := by
    obtain ⟨_, _, _, _, hdq, _⟩ := hser
    exact (hdq.known hq).1.1
  obtain ⟨hanswer, hstate⟩ := hreads.handle o s' ho
  rw [hanswer]
  exact (hser.right hq (input s')).congr hstate.symm

theorem Serialized.turn_left (hreads : Reads F h input) {k : Except ε (S.Res o) → Prog S ε α}
    (hser : Serialized F p q s xs ys os (.call o k) q' s') (hp : Only F.known p) (hq : Only F.known q)
    (hos : ∀ o' ∈ os, F.Independent o o') :
    Serialized F p q s (xs ++ [input s']) ys os (k (h o s').1) q' (h o s').2 := by
  have ho : F.known o := by
    obtain ⟨_, _, _, hdp, _, _⟩ := hser
    exact (hdp.known hp).1.1
  obtain ⟨hanswer, hstate⟩ := hreads.handle o s' ho
  rw [hanswer]
  exact (hser.left hp hq hos (input s')).congr hstate.symm

/-- The next inputs are `xs`, whatever is called. -/
def Follows (h : Handler S ε σ) (input : σ → ι) : List ι → σ → Prop
  | [], _ => True
  | x :: xs, s => input s = x ∧ ∀ o, Follows h input xs (h o s).2

theorem Drives.run (hreads : Reads F h input) (hd : Drives F p s xs os p' s') (hp : Only F.known p) {u : σ}
    (hu : F.Alike u s) {zs : List ι} (hfollows : Follows h input (xs ++ zs) u) :
    ∃ u', Prog.run h p u = Prog.run h p' u' ∧ F.Alike u' s' ∧ Follows h input zs u' := by
  induction hd generalizing zs with
  | refl => exact ⟨u, rfl, hu, hfollows⟩
  | @tail xs os o k s' x hprev ih =>
    rw [List.append_assoc] at hfollows
    obtain ⟨u', hrun, halike, hinput, hrest⟩ := ih hfollows
    have ho : F.known o := (hprev.known hp).1.1
    -- the handler answers as the footprint does with the input it reads, and that is `x`
    obtain ⟨hanswer, hstate⟩ := hreads.handle o u' ho
    obtain ⟨hsame, hafter⟩ := halike.handle ho x
    rw [hinput] at hanswer hstate
    refine ⟨(h o u').2, ?_, hstate.trans hafter, hrest o⟩
    rw [hrun, run_call, hanswer, hsame]

/-- **Serialized runs.** Two programs that took turns and have ended could have run one after the other, given
    the same inputs. -/
theorem Serialized.run {r : Except ε α} {r' : Except ε β} (hreads : Reads F h input)
    (hser : Serialized F p q s xs ys os (ofExcept r) (ofExcept r') s')
    (hp : Only F.known p) (hq : Only F.known q) {u : σ} (hu : F.Alike u s)
    (hfollows : Follows h input (xs ++ ys) u) :
      (Prog.run h p u).1 = r ∧ (Prog.run h q (Prog.run h p u).2).1 = r' ∧
      F.Alike (Prog.run h q (Prog.run h p u).2).2 s' := by
  obtain ⟨os', s1, s2, hdp, hdq, halike⟩ := hser
  obtain ⟨u1, hrun, hu1, hrest⟩ := hdp.run hreads hp hu hfollows
  rw [run_ofExcept] at hrun
  have hnil : Follows h input (ys ++ []) u1 := by
    rwa [List.append_nil]
  obtain ⟨u2, hrun', hu2, _⟩ := hdq.run hreads hq hu1 hnil
  rw [run_ofExcept] at hrun'
  rw [hrun]
  dsimp only
  rw [hrun']
  exact ⟨rfl, rfl, hu2.trans halike⟩

end Footprint
end Effect
