import SyncForge.Cluster.System
import SyncForge.Worker.Calls
import SyncForge.Deployment
import Mathlib.Data.List.Induction

/-!
# `Cluster.Claim` — the idempotency claim is a lock

`processed_events` holds a row for an event while some execution works on it, and for good once it was
applied. A thread's own calls say where it stands with the claim (`Hold`); the invariant `Exclusive` ties the
threads to the row: the holder of a claim is the only one.
-/

namespace SyncForge.Cluster

open Effect Effect.Prog Store
open Monitor (wp_bind)
open Thread (result start)
open Deployment (annCreated policy world)

/-! ## What one execution does about its claim -/

inductive Hold where
  | fresh | refused | held | released
deriving DecidableEq, Repr

def quiet : Call → Bool
  | .random => true
  | .store (.claimProcessedEvent _) => false
  | .store (.releaseProcessedEvent _) => false
  | .store o => !o.writesCanonical
  | _ => false

/-- Calls made under the claim of `key`: anything but a claim, and no release of another key. -/
def inside (key : EventKey) : Call → Bool
  | .store (.claimProcessedEvent _) => false
  | .store (.releaseProcessedEvent k) => k = key
  | _ => true

def Hold.next (g : Hold) (o : Call) (r : Except GoError (sig.Res o)) : Hold :=
  match g, o, r with
  | .fresh, .store (.claimProcessedEvent _), .ok true => .held
  | .fresh, .store (.claimProcessedEvent _), _ => .refused
  | .held, .store (.releaseProcessedEvent _), _ => .released
  | g, _, _ => g

def claimMonitor (key : EventKey) : Monitor sig GoError Hold where
  next := Hold.next
  may g o :=
    match g with
    | .fresh => o = .store (.claimProcessedEvent key)
    | .held => inside key o = true
    | _ => quiet o = true
  adm _ _ _ := True

def hold (log : List (Entry sig GoError)) : Hold := log.foldl (fun g e => g.next e.op e.answer) .fresh

@[simp] theorem hold_snoc (log : List (Entry sig GoError)) (e : Entry sig GoError) :
    hold (log ++ [e]) = (hold log).next e.op e.answer := by
  simp [hold]

/-- `Process` returned with the claim kept exactly when it applied the event. -/
def Verdict (g : Hold) : Except GoError Outcome → Prop
  | .ok .applied => g = .held
  | .ok .reconciled => g = .held
  | _ => g = .refused ∨ g = .released

variable {key : EventKey} {o : Call} {g : Hold} {log : List (Entry sig GoError)} {t t' : Thread}
  {w w' : World} {c c' : Config} {i : Nat}

theorem isWork_inside (h : o.isWork = true) : inside key o = true := by
  cases o with
  | store s => cases s <;> first | rfl | cases h
  | _ => rfl

theorem isWork_next (h : o.isWork = true) (r : Except GoError (sig.Res o)) : Hold.next .held o r = .held := by
  cases o with
  | store s => cases s <;> first | rfl | cases h
  | _ => rfl

theorem isBookkeeping_quiet (h : o.isBookkeeping = true) : quiet o = true := by
  cases o with
  | store s => cases s <;> first | rfl | cases h
  | random => rfl
  | _ => cases h

theorem quiet_next (h : quiet o = true) (r : Except GoError (sig.Res o)) : g.next o r = g := by
  cases o with
  | store s => cases s <;> first | (cases g <;> rfl) | cases h
  | random => cases g <;> rfl
  | _ => cases h

variable {env : Env} {ev : Event} {status : SourceEventStatus}

theorem dispatch_wp : (claimMonitor ev.key).wp (dispatch env ev) (fun g _ => g = .held) .held := by
  refine wp_of_only dispatch_only (fun g o hg ho => ?_) rfl
  subst hg
  exact ⟨isWork_inside ho, fun r _ => isWork_next ho r⟩

variable {post : Hold → Except GoError Unit → Prop}

theorem release_wp (hpost : post .released (.ok ())) :
    (claimMonitor ev.key).wp (release ev status) post .held := by
  unfold release mark
  rw [wp_bind, wp_tryStmt]
  refine ⟨by simp [claimMonitor, inside], fun r _ => ?_⟩
  exact wp_tryStmt.mpr ⟨rfl, fun _ _ => hpost⟩

theorem mark_wp (hpost : post .held (.ok ())) : (claimMonitor ev.key).wp (mark ev status) post .held :=
  wp_tryStmt.mpr ⟨rfl, fun _ _ => hpost⟩

/-- **`Process` and its claim**: whatever the answers, it follows the protocol and ends with its verdict. -/
theorem process_wp : (claimMonitor ev.key).wp (process env ev) Verdict .fresh := by
  unfold process
  rw [wp_bind, Monitor.wp_perform]
  refine ⟨rfl, fun r _ => ?_⟩
  cases r with
  | error e => exact .inl rfl
  | ok claimed =>
    cases claimed with
    | false => exact .inl rfl
    | true =>
      show (claimMonitor ev.key).wp (processClaimed env ev) Verdict .held
      unfold processClaimed
      rw [wp_bind, Monitor.wp_attempt]
      refine Monitor.wp_mono dispatch_wp (fun g r hg => ?_)
      subst hg
      cases r with
      | error e => exact (wp_bind _ _).mpr (release_wp (.inr rfl))
      | ok dispatched =>
        cases dispatched with
        | noPolicy => exact (wp_bind _ _).mpr (release_wp (.inr rfl))
        | applied => exact (wp_bind _ _).mpr (mark_wp rfl)
        | reconciled => exact (wp_bind _ _).mpr (mark_wp rfl)

/-! ## What a thread's log says -/

def Allowed (key : EventKey) (log : List (Entry sig GoError)) : Prop :=
  ∀ pre e post, log = pre ++ e :: post → (claimMonitor key).may (hold pre) e.op

theorem allowed_nil (key : EventKey) : Allowed key [] := by
  intro pre e post h
  simp at h

variable {e : Entry sig GoError}

theorem allowed_snoc (hlog : Allowed key log) (he : (claimMonitor key).may (hold log) e.op) :
    Allowed key (log ++ [e]) := by
  intro pre x post h
  rcases List.eq_nil_or_concat post with rfl | ⟨post', y, rfl⟩
  · obtain ⟨rfl, hx⟩ := List.append_inj' h rfl
    cases hx
    exact he
  · rw [List.concat_eq_append, ← List.cons_append, ← List.append_assoc] at h
    obtain ⟨h', _⟩ := List.append_inj' h rfl
    exact hlog pre x post' h'

/-- The log obtained the claim of `key`. -/
def Claimed (key : EventKey) (log : List (Entry sig GoError)) : Prop :=
  (⟨.store (.claimProcessedEvent key), .ok true⟩ : Entry sig GoError) ∈ log

/-- The log made a release of `key`, successful or not. -/
def Released (key : EventKey) (log : List (Entry sig GoError)) : Prop :=
  ∃ e ∈ log, e.op = .store (.releaseProcessedEvent key)

theorem claimed_snoc : Claimed key (log ++ [e]) ↔ Claimed key log ∨
    e = ⟨.store (.claimProcessedEvent key), .ok true⟩ := by
  simp [Claimed, eq_comm]

theorem released_snoc : Released key (log ++ [e]) ↔ Released key log ∨
    e.op = .store (.releaseProcessedEvent key) := by
  simp [Released, or_and_right, exists_or]

structure LogSpec (key : EventKey) (log : List (Entry sig GoError)) : Prop where
  fresh : hold log = .fresh → log = []
  refused : hold log = .refused → ∀ k, ¬ Claimed k log ∧ ¬ Released k log
  held : hold log = .held → Claimed key log ∧ ∀ k, ¬ Released k log
  released : hold log = .released → Claimed key log ∧ Released key log
  own : ∀ k, Claimed k log → k = key

theorem quiet_not_claim (h : quiet o = true) (key : EventKey) :
    o ≠ .store (.claimProcessedEvent key) ∧ o ≠ .store (.releaseProcessedEvent key) := by
  constructor <;> (rintro rfl; cases h)

theorem next_other (hc : ∀ k, o ≠ .store (.claimProcessedEvent k))
    (hr : ∀ k, o ≠ .store (.releaseProcessedEvent k)) (r : Except GoError (sig.Res o)) : g.next o r = g := by
  cases o with
  | store s =>
    cases s with
    | claimProcessedEvent k => exact absurd rfl (hc k)
    | releaseProcessedEvent k => exact absurd rfl (hr k)
    | _ => cases g <;> rfl
  | _ => cases g <;> rfl

theorem allowed_of_snoc (h : Allowed key (log ++ [e])) :
    Allowed key log ∧ (claimMonitor key).may (hold log) e.op :=
  ⟨fun pre x post hx => h pre x (post ++ [e]) (by rw [hx, List.append_assoc, List.cons_append]),
    h log e [] rfl⟩

theorem LogSpec.snoc_other (h : LogSpec key log) (hne : hold log ≠ .fresh)
    (hc : ∀ k, e.op ≠ .store (.claimProcessedEvent k)) (hr : ∀ k, e.op ≠ .store (.releaseProcessedEvent k)) :
    LogSpec key (log ++ [e]) := by
  have hhold : hold (log ++ [e]) = hold log := by rw [hold_snoc, next_other hc hr]
  have hclaimed : ∀ k, Claimed k (log ++ [e]) ↔ Claimed k log := by
    intro k
    rw [claimed_snoc, or_iff_left]
    rintro rfl
    exact hc k rfl
  have hreleased : ∀ k, Released k (log ++ [e]) ↔ Released k log := by
    intro k
    rw [released_snoc, or_iff_left (hr k)]
  constructor
  · intro hg; exact absurd (hhold ▸ hg) hne
  · intro hg k; rw [hclaimed, hreleased]; exact h.refused (hhold ▸ hg) k
  · intro hg
    obtain ⟨h1, h2⟩ := h.held (hhold ▸ hg)
    exact ⟨(hclaimed key).mpr h1, fun k hk => h2 k ((hreleased k).mp hk)⟩
  · intro hg
    obtain ⟨h1, h2⟩ := h.released (hhold ▸ hg)
    exact ⟨(hclaimed key).mpr h1, (hreleased key).mpr h2⟩
  · intro k hk; exact h.own k ((hclaimed k).mp hk)

theorem logSpec_claim {r : Except GoError Bool} : LogSpec key [⟨.store (.claimProcessedEvent key), r⟩] := by
  have hreleased : ∀ k, ¬ Released k [(⟨.store (.claimProcessedEvent key), r⟩ : Entry sig GoError)] := by
    intro k
    simp [Released]
  have hown : ∀ k, Claimed k [(⟨.store (.claimProcessedEvent key), r⟩ : Entry sig GoError)] →
      k = key ∧ r = .ok true := by
    intro k hk
    have hk := List.mem_singleton.mp hk
    cases hk
    exact ⟨rfl, rfl⟩
  have hcase : (r = .ok true ∧ hold [⟨.store (.claimProcessedEvent key), r⟩] = .held) ∨
      (r ≠ .ok true ∧ hold [⟨.store (.claimProcessedEvent key), r⟩] = .refused) := by
    match r with
    | .ok true => exact .inl ⟨rfl, rfl⟩
    | .ok false => exact .inr ⟨by simp, rfl⟩
    | .error _ => exact .inr ⟨by simp, rfl⟩
  rcases hcase with ⟨rfl, hg⟩ | ⟨hr, hg⟩
  · constructor
    · intro h; rw [hg] at h; cases h
    · intro h; rw [hg] at h; cases h
    · intro _; exact ⟨.head _, hreleased⟩
    · intro h; rw [hg] at h; cases h
    · intro k hk; exact (hown k hk).1
  · constructor
    · intro h; rw [hg] at h; cases h
    · intro _ k; exact ⟨fun hk => hr (hown k hk).2, hreleased k⟩
    · intro h; rw [hg] at h; cases h
    · intro h; rw [hg] at h; cases h
    · intro k hk; exact (hown k hk).1

/-- **The summary is about the log**: what `hold` says of an allowed log is what its entries say. -/
theorem logSpec_of_allowed (h : Allowed key log) : LogSpec key log := by
  induction log using List.reverseRecOn with
  | nil => exact ⟨fun _ => rfl, nofun, nofun, nofun, fun k hk => absurd hk (by simp [Claimed])⟩
  | append_singleton log e ih =>
    obtain ⟨hlog, hmay⟩ := allowed_of_snoc h
    have ih := ih hlog
    have hquiet : quiet e.op = true → hold log ≠ .fresh → LogSpec key (log ++ [e]) := fun hq hne =>
      ih.snoc_other hne (fun k => (quiet_not_claim hq k).1) (fun k => (quiet_not_claim hq k).2)
    cases hg : hold log with
    | fresh =>
      -- an empty log, and the claim
      rw [hg] at hmay
      obtain ⟨o, r⟩ := e
      have ho : o = .store (.claimProcessedEvent key) := hmay
      subst ho
      rw [ih.fresh hg]
      exact logSpec_claim
    | refused => exact hquiet (by rw [hg] at hmay; exact hmay) (by simp [hg])
    | released => exact hquiet (by rw [hg] at hmay; exact hmay) (by simp [hg])
    | held =>
      rw [hg] at hmay
      by_cases hrel : e.op = .store (.releaseProcessedEvent key)
      · obtain ⟨o, r⟩ := e
        simp only at hrel
        subst hrel
        have hnext : hold (log ++ [⟨.store (.releaseProcessedEvent key), r⟩]) = .released := by
          rw [hold_snoc, hg]; rfl
        constructor
        · intro h'; rw [hnext] at h'; cases h'
        · intro h'; rw [hnext] at h'; cases h'
        · intro h'; rw [hnext] at h'; cases h'
        · intro _
          exact ⟨claimed_snoc.mpr (.inl (ih.held hg).1), released_snoc.mpr (.inr rfl)⟩
        · intro k hk
          rcases claimed_snoc.mp hk with hk | hk
          · exact ih.own k hk
          · cases hk
      · refine ih.snoc_other (by simp [hg]) (fun k hk => ?_) (fun k hk => ?_)
        · rw [hk] at hmay; cases hmay
        · rw [hk] at hmay
          have hkey : k = key := by simpa [claimMonitor, inside] using hmay
          exact hrel (hkey ▸ hk)

/-! ## Threads follow the protocol -/

theorem finish_only (task : Task) (ev : Event) (r : Except GoError Outcome) :
    OnlyBookkeeping (task.finish env ev r) := by
  cases r with
  | ok outcome =>
    cases task with
    | retry row => exact Retry.settle_only row
    | _ => exact trivial
  | error e =>
    cases task with
    | handle value => exact dispatchFailure_only
    | invoke ev' => exact trivial
    | retry row => exact Retry.reschedule_only row e

theorem reject_only (task : Task) (e : GoError) : OnlyBookkeeping (task.reject e) := by
  cases task with
  | retry row => exact only_bind bookkeeping_handsOff.deadLetter (fun _ => only_tryStmt rfl)
  | _ => exact trivial

def Disciplined (t : Thread) : Prop :=
  match t.stage with
  | .processing ev p =>
    t.task.event? = some ev ∧ Allowed ev.key t.log ∧ (claimMonitor ev.key).wp p Verdict (hold t.log)
  | .finishing (some (ev, r)) p =>
    t.task.event? = some ev ∧ Allowed ev.key t.log ∧ Verdict (hold t.log) r ∧ OnlyBookkeeping p
  | .finishing none p =>
    t.task.event? = none ∧ (∀ e ∈ t.log, quiet e.op = true) ∧ hold t.log = .fresh ∧ OnlyBookkeeping p

theorem start_disciplined (task : Task) : Disciplined (start env task) := by
  unfold Disciplined start Task.event?
  cases task.bytes.unmarshal with
  | ok ev => exact ⟨rfl, allowed_nil _, process_wp⟩
  | error e => exact ⟨rfl, by simp, rfl, reject_only task e⟩

variable {r : Except GoError Outcome}

/-- Bookkeeping is allowed to a thread whose `Process` has returned. -/
theorem verdict_may (hv : Verdict g r) (ho : o.isBookkeeping = true) : (claimMonitor key).may g o := by
  have hquiet := isBookkeeping_quiet ho
  cases g with
  | fresh =>
    match r, hv with
    | .error _, h => rcases h with h | h <;> cases h
    | .ok .duplicate, h => rcases h with h | h <;> cases h
    | .ok .noPolicy, h => rcases h with h | h <;> cases h
  | held =>
    cases o with
    | store s => cases s <;> first | rfl | cases hquiet
    | _ => rfl
  | refused => exact hquiet
  | released => exact hquiet

theorem fire_disciplined (hd : Disciplined t) (hf : Fire env t w t' w') : Disciplined t' := by
  cases hf with
  | processCall hstage =>
    simp only [Disciplined, hstage] at hd
    obtain ⟨hev, hlog, hmay, hk⟩ := hd
    refine ⟨hev, allowed_snoc hlog hmay, ?_⟩
    rw [hold_snoc]
    exact hk _ trivial
  | processReturn hstage =>
    simp only [Disciplined, hstage, Monitor.wp_ofExcept] at hd
    exact ⟨hd.1, hd.2.1, hd.2.2, finish_only _ _ _⟩
  | @finishCall res o k hstage =>
    cases res with
    | some er =>
      obtain ⟨ev, r⟩ := er
      simp only [Disciplined, hstage] at hd
      obtain ⟨hev, hlog, hv, ho, hk⟩ := hd
      refine ⟨hev, allowed_snoc hlog (verdict_may hv ho), ?_, hk _⟩
      rwa [hold_snoc, quiet_next (isBookkeeping_quiet ho)]
    | none =>
      simp only [Disciplined, hstage] at hd
      obtain ⟨hev, hlog, hg, ho, hk⟩ := hd
      refine ⟨hev, ?_, ?_, hk _⟩
      · intro e he
        rcases List.mem_append.mp he with he | he
        · exact hlog e he
        · rw [List.mem_singleton.mp he]; exact isBookkeeping_quiet ho
      · rwa [hold_snoc, quiet_next (isBookkeeping_quiet ho)]

/-! ## Calls and the claim rows -/

theorem quiet_writesClaim (h : quiet o = true) (key : EventKey) : o.writesClaim key = false := by
  cases o with
  | store s => cases s <;> first | rfl | cases h
  | _ => rfl

theorem writesClaim_other (hc : ∀ k, o ≠ .store (.claimProcessedEvent k))
    (hr : o ≠ .store (.releaseProcessedEvent key)) : o.writesClaim key = false := by
  cases o with
  | store s =>
    cases s with
    | claimProcessedEvent k => exact absurd rfl (hc k)
    | releaseProcessedEvent k =>
      have hne : k ≠ key := fun h => hr (by rw [h])
      simp [Call.writesClaim, StoreOp.writesClaim, hne]
    | _ => rfl
  | _ => rfl

/-- How one allowed call moves the execution and the claim rows: not at all (or the claim was refused), by
    obtaining the claim, or by giving it up. -/
inductive ClaimEffect (key : EventKey) (w w' : World) (g g' : Hold) : Prop
  | none (hg : g' = g ∨ g' = .refused) (hrows : ∀ k, w'.db.processed k = w.db.processed k)
  | obtained (hg : g' = .held) (hbefore : w.db.processed key = false) (hafter : w'.db.processed key = true)
      (hrows : ∀ k, k ≠ key → w'.db.processed k = w.db.processed k)
  | released (hg : g = .held) (hg' : g' = .released)
      (hrows : ∀ k, k ≠ key → w'.db.processed k = w.db.processed k)

theorem claim_effect_claim : ClaimEffect key w (World.handle env (.store (.claimProcessedEvent key)) w).2
      .fresh (Hold.next .fresh (.store (.claimProcessedEvent key))
        (World.handle env (.store (.claimProcessedEvent key)) w).1) := by
  have hother : ∀ k, k ≠ key →
      (World.handle env (.store (.claimProcessedEvent key)) w).2.db.processed k = w.db.processed k := by
    intro k hk
    exact World.handle_processed (by simp [Call.writesClaim, StoreOp.writesClaim, Ne.symm hk])
  rcases @World.handle_claim env w key with ⟨e, he⟩ | ⟨hans, hafter⟩
  · exact .none (.inr (by rw [he]; rfl)) (fun k => by rw [he]; rfl)
  · cases hrow : w.db.processed key with
    | false => exact .obtained (by rw [hans, hrow]; rfl) hrow hafter hother
    | true =>
      refine .none (.inr (by rw [hans, hrow]; rfl)) (fun k => ?_)
      by_cases hk : k = key
      · rw [hk, hafter, hrow]
      · exact hother k hk

theorem claim_effect (hmay : (claimMonitor key).may g o) :
    ClaimEffect key w (World.handle env o w).2 g (g.next o (World.handle env o w).1) := by
  have hquiet : quiet o = true → ClaimEffect key w (World.handle env o w).2 g
      (g.next o (World.handle env o w).1) := fun hq =>
    .none (.inl (quiet_next hq _)) (fun k => World.handle_processed (quiet_writesClaim hq k))
  cases g with
  | fresh =>
    have ho : o = .store (.claimProcessedEvent key) := hmay
    subst ho
    exact claim_effect_claim
  | refused => exact hquiet hmay
  | released => exact hquiet hmay
  | held =>
    have hc : ∀ k, o ≠ .store (.claimProcessedEvent k) := by
      rintro k rfl
      cases hmay
    by_cases hrel : o = .store (.releaseProcessedEvent key)
    · subst hrel
      refine .released rfl rfl (fun k hk => World.handle_processed ?_)
      simp [Call.writesClaim, StoreOp.writesClaim, Ne.symm hk]
    · have hr : ∀ k, o ≠ .store (.releaseProcessedEvent k) := by
        rintro k rfl
        have hk : k = key := by simpa [claimMonitor, inside] using hmay
        exact hrel (by rw [hk])
      exact .none (.inl (next_other hc hr _))
        (fun k => World.handle_processed (writesClaim_other hc (hr k)))

theorem fire_task (hf : Fire env t w t' w') : t'.task = t.task :=
  hf.program.1

theorem fire_claims (hd : Disciplined t) (hf : Fire env t w t' w') :
    (∃ ev, t.task.event? = some ev ∧ ClaimEffect ev.key w w' (hold t.log) (hold t'.log)) ∨
      t.task.event? = none ∧ ∀ k, w'.db.processed k = w.db.processed k := by
  cases hf with
  | processCall hstage =>
    simp only [Disciplined, hstage] at hd
    exact .inl ⟨_, hd.1, by rw [hold_snoc]; exact claim_effect hd.2.2.1⟩
  | @processReturn ev r hstage =>
    simp only [Disciplined, hstage] at hd
    exact .inl ⟨_, hd.1, .none (.inl rfl) (fun _ => rfl)⟩
  | @finishCall res o k hstage =>
    cases res with
    | some er =>
      simp only [Disciplined, hstage] at hd
      obtain ⟨hev, _, hv, ho, _⟩ := hd
      exact .inl ⟨_, hev, by rw [hold_snoc]; exact claim_effect (verdict_may hv ho)⟩
    | none =>
      simp only [Disciplined, hstage] at hd
      obtain ⟨hev, _, _, ho, _⟩ := hd
      exact .inr ⟨hev, fun k => World.handle_processed (quiet_writesClaim (isBookkeeping_quiet ho) k)⟩

/-! ## The lock invariant -/

/-- The thread at `i` holds the claim of `key`. -/
def Holds (c : Config) (i : Nat) (key : EventKey) : Prop :=
  ∃ t ev, c.threads[i]? = some t ∧ t.task.event? = some ev ∧ ev.key = key ∧ hold t.log = .held

structure Exclusive (c : Config) : Prop where
  disciplined : ∀ (i : Nat) t, c.threads[i]? = some t → Disciplined t
  row : ∀ i key, Holds c i key → c.world.db.processed key = true
  unique : ∀ i j key, Holds c i key → Holds c j key → i = j

theorem exclusive_initial (w : World) : Exclusive (initial w) := by
  constructor
  · intro i t h; simp [initial] at h
  · rintro i key ⟨t, _, h, _⟩; simp [initial] at h
  · rintro i j key ⟨t, _, h, _⟩; simp [initial] at h

theorem exclusive_of_back (hc : Exclusive c) (hdisc : ∀ (i : Nat) t, c'.threads[i]? = some t → Disciplined t)
    (hback : ∀ i key, Holds c' i key → Holds c i key ∧ c'.world.db.processed key = c.world.db.processed key) :
    Exclusive c' :=
  ⟨hdisc, fun i key h => (hback i key h).2.trans (hc.row i key (hback i key h).1),
    fun i j key hi hj => hc.unique i j key (hback i key hi).1 (hback j key hj).1⟩

theorem exclusive_quiet (env : Env) (hc : Exclusive c) (hdb : c'.world.db = c.world.db)
    (horigin : ∀ (i : Nat) t, c'.threads[i]? = some t →
      c.threads[i]? = some t ∨ ∃ task, t = start env task) : Exclusive c' := by
  refine exclusive_of_back hc (fun i t hi => ?_) ?_
  · rcases horigin i t hi with hi | ⟨task, rfl⟩
    · exact hc.disciplined i t hi
    · exact start_disciplined task
  · rintro i key ⟨t, ev, hi, hev, hkey, hheld⟩
    rcases horigin i t hi with hi | ⟨task, rfl⟩
    · exact ⟨⟨t, ev, hi, hev, hkey, hheld⟩, by rw [hdb]⟩
    · cases hheld

section Moved

variable {c : Config} {i : Nat} {t t' : Thread} {w' : World}

theorem holds_fire (hf : Fire env t c.world t' w') {j : Nat}
    (h : Holds { c with threads := c.threads.set i t', world := w' } j key) :
    (j ≠ i ∧ Holds c j key) ∨ (j = i ∧ ∃ ev, t.task.event? = some ev ∧ ev.key = key ∧
      hold t'.log = .held) := by
  obtain ⟨u, ev, hj, hev, hkey, hheld⟩ := h
  rcases thread_set hj with ⟨rfl, rfl⟩ | ⟨hij, hj⟩
  · exact .inr ⟨rfl, ev, by rw [← fire_task hf]; exact hev, hkey, hheld⟩
  · exact .inl ⟨hij, u, ev, hj, hev, hkey, hheld⟩

theorem disciplined_fire (hc : Exclusive c) (hi : c.threads[i]? = some t) (hf : Fire env t c.world t' w')
    (j : Nat) (u : Thread) (hj : (c.threads.set i t')[j]? = some u) : Disciplined u := by
  rcases thread_set hj with ⟨_, rfl⟩ | ⟨_, hj⟩
  · exact fire_disciplined (hc.disciplined i t hi) hf
  · exact hc.disciplined j u hj

theorem exclusive_obtained {key0 : EventKey} (hc : Exclusive c)
    (hdisc : ∀ (j : Nat) u, c'.threads[j]? = some u → Disciplined u)
    (hbefore : c.world.db.processed key0 = false) (hafter : c'.world.db.processed key0 = true)
    (hrows : ∀ k, k ≠ key0 → c'.world.db.processed k = c.world.db.processed k)
    (hback : ∀ j key, Holds c' j key → Holds c j key ∨ (key = key0 ∧ j = i)) : Exclusive c' := by
  have hnobody : ∀ j, ¬ Holds c j key0 := by
    intro j hj
    rw [hc.row j _ hj] at hbefore
    cases hbefore
  have hcase : ∀ j key, Holds c' j key → (key ≠ key0 ∧ Holds c j key) ∨ (key = key0 ∧ j = i) := fun j key h =>
    (hback j key h).imp_left (fun hj => ⟨fun hk => hnobody j (hk ▸ hj), hj⟩)
  refine ⟨hdisc, fun j key h => ?_, fun j k key hj hk => ?_⟩
  · rcases hcase j key h with ⟨hne, h⟩ | ⟨rfl, _⟩
    · exact (hrows key hne).trans (hc.row j key h)
    · exact hafter
  · rcases hcase j key hj with ⟨hne, hj⟩ | ⟨rfl, rfl⟩
    · rcases hcase k key hk with ⟨_, hk⟩ | ⟨hk, _⟩
      · exact hc.unique j k key hj hk
      · exact absurd hk hne
    · rcases hcase k _ hk with ⟨hne, _⟩ | ⟨_, rfl⟩
      · exact absurd rfl hne
      · rfl

theorem exclusive_fire (hc : Exclusive c) (hi : c.threads[i]? = some t) (hf : Fire env t c.world t' w') :
    Exclusive { c with threads := c.threads.set i t', world := w' } := by
  have hdisc := disciplined_fire hc hi hf
  rcases fire_claims (hc.disciplined i t hi) hf with ⟨ev, hev, heff⟩ | ⟨hev, hrows⟩
  · have hself : ∀ key, (∃ ev', t.task.event? = some ev' ∧ ev'.key = key ∧ hold t'.log = .held) →
        key = ev.key ∧ hold t'.log = .held := by
      rintro key ⟨ev', hev', hkey, hheld⟩
      rw [hev] at hev'
      cases hev'
      exact ⟨hkey.symm, hheld⟩
    cases heff with
    | none hg hrows =>
      refine exclusive_of_back hc hdisc (fun j key h => ⟨?_, hrows key⟩)
      rcases holds_fire hf h with ⟨_, hj⟩ | ⟨rfl, hj⟩
      · exact hj
      · obtain ⟨rfl, hheld⟩ := hself key hj
        rcases hg with hg | hg
        · exact ⟨t, ev, hi, hev, rfl, hg ▸ hheld⟩
        · rw [hg] at hheld
          cases hheld
    | obtained hg hbefore hafter hrows =>
      refine exclusive_obtained (i := i) hc hdisc hbefore hafter hrows (fun j key h => ?_)
      rcases holds_fire hf h with ⟨_, hj⟩ | ⟨rfl, hj⟩
      · exact .inl hj
      · exact .inr ⟨(hself key hj).1, rfl⟩
    | released hg hg' hrows =>
      -- the thread that moved was the holder, so no other thread's row is touched
      refine exclusive_of_back hc hdisc (fun j key h => ?_)
      rcases holds_fire hf h with ⟨hji, hj⟩ | ⟨rfl, hj⟩
      · refine ⟨hj, hrows key (fun hk => hji ?_)⟩
        exact hc.unique j i key hj ⟨t, ev, hi, hev, hk.symm, hg⟩
      · rw [hg'] at hj
        obtain ⟨_, _, _, hj⟩ := hj
        cases hj
  · refine exclusive_of_back hc hdisc (fun j key h => ⟨?_, hrows key⟩)
    rcases holds_fire hf h with ⟨_, hj⟩ | ⟨_, ev, hev', _⟩
    · exact hj
    · rw [hev] at hev'
      cases hev'

end Moved

/-- **Step lemma**: an event has at most one holder of its claim. -/
theorem exclusive_step {l : Label} (hc : Exclusive c) (hs : Step env c l c') : Exclusive c' := by
  by_cases hl : ∃ i, l = .fire i
  · obtain ⟨i, rfl⟩ := hl
    cases hs with
    | fire hi hf => exact exclusive_fire hc hi hf
  · have hne : ∀ i, l ≠ .fire i := fun i h => hl ⟨i, h⟩
    refine exclusive_quiet env hc (hs.db_eq hne) (fun i t hi => ?_)
    rcases hs.thread_origin hi with h | ⟨task, h, _⟩ | ⟨_, _, h, _⟩
    · exact .inl h
    · exact .inr ⟨task, h⟩
    · exact absurd h (hne i)

theorem exclusive_reach {ok : Config → Label → Prop} (hc : Exclusive c) (hr : Reach env ok c c') :
    Exclusive c' := by
  induction hr with
  | refl => exact hc
  | tail l _ _ hstep ih => exact exclusive_step ih (step_inv hstep)

/-! ## Exclusion and finality -/

/-- The thread is between its successful claim of `key` and its release of it, or its return. -/
def Thread.InSection (t : Thread) (key : EventKey) : Prop :=
  Claimed key t.log ∧ ¬ Released key t.log ∧ t.result = none

theorem Disciplined.allowed (hd : Disciplined t) : (∃ ev, t.task.event? = some ev ∧ Allowed ev.key t.log) ∨
      t.task.event? = none ∧ ∀ e ∈ t.log, quiet e.op = true := by
  unfold Disciplined at hd
  split at hd
  · exact .inl ⟨_, hd.1, hd.2.1⟩
  · exact .inl ⟨_, hd.1, hd.2.1⟩
  · exact .inr ⟨hd.1, hd.2.1⟩

theorem inSection_holds (hc : Exclusive c) (hi : c.threads[i]? = some t) (hsec : t.InSection key) :
    Holds c i key := by
  obtain ⟨hclaimed, hnot, _⟩ := hsec
  rcases (hc.disciplined i t hi).allowed with ⟨ev, hev, hlog⟩ | ⟨_, hlog⟩
  · have hspec := logSpec_of_allowed hlog
    obtain rfl := hspec.own key hclaimed
    refine ⟨t, ev, hi, hev, rfl, ?_⟩
    cases hg : hold t.log with
    | held => rfl
    | fresh => rw [hspec.fresh hg] at hclaimed; simp [Claimed] at hclaimed
    | refused => exact absurd hclaimed (hspec.refused hg _).1
    | released => exact absurd (hspec.released hg).2 hnot
  · exact absurd rfl (quiet_not_claim (hlog _ hclaimed) key).1

theorem quiet_harmless (h : quiet o = true) : o.isProvider = false ∧ o.writesCanonical = false := by
  cases o with
  | store s => cases s <;> first | exact ⟨rfl, rfl⟩ | cases h
  | random => exact ⟨rfl, rfl⟩
  | _ => cases h

theorem claimed_before (hd : Disciplined t) {pre post : List (Entry sig GoError)}
    (hlog : t.log = pre ++ e :: post)
    (he : e.op.isProvider = true ∨ ∃ k, e.op = .store (.releaseProcessedEvent k)) :
    ∃ ev, t.task.event? = some ev ∧ Claimed ev.key pre ∧
      ∀ k, e.op = .store (.releaseProcessedEvent k) → k = ev.key := by
  have hnotquiet : quiet e.op ≠ true := by
    rcases he with he | ⟨k, he⟩
    · intro hq
      rw [(quiet_harmless hq).1] at he
      cases he
    · rw [he]; simp [quiet]
  rcases hd.allowed with ⟨ev, hev, hall⟩ | ⟨_, hall⟩
  · have hmay := hall pre e post hlog
    have hpre : Allowed ev.key pre := by
      intro pre' x post' hx
      exact hall pre' x (post' ++ e :: post) (by rw [hlog, hx, List.append_assoc, List.cons_append])
    cases hg : hold pre with
    | fresh =>
      rw [hg] at hmay
      have ho : e.op = .store (.claimProcessedEvent ev.key) := hmay
      rw [ho] at he
      rcases he with he | ⟨k, he⟩ <;> cases he
    | refused => rw [hg] at hmay; exact absurd hmay hnotquiet
    | released => rw [hg] at hmay; exact absurd hmay hnotquiet
    | held =>
      refine ⟨ev, hev, ((logSpec_of_allowed hpre).held hg).1, fun k hk => ?_⟩
      rw [hg, hk] at hmay
      simpa [claimMonitor, inside] using hmay
  · exact absurd (hall e (by rw [hlog]; simp)) hnotquiet

/-- The next call of a thread that does not hold the claim, or whose `Process` has returned, is harmless. -/
theorem nextCall_harmless (hd : Disciplined t) (ho : t.nextCall = some o)
    (h : hold t.log ≠ .held ∨ t.result ≠ none) : o.isProvider = false ∧ o.writesCanonical = false := by
  unfold Thread.nextCall at ho
  split at ho
  · rename_i ev o' k hstage
    cases ho
    have hresult : t.result = none := by simp [result, hstage]
    simp only [Disciplined, hstage] at hd
    obtain ⟨_, _, hmay, _⟩ := hd
    cases hg : hold t.log with
    | fresh =>
      rw [hg] at hmay
      have hclaim : o = .store (.claimProcessedEvent ev.key) := hmay
      subst hclaim
      exact ⟨rfl, rfl⟩
    | refused => rw [hg] at hmay; exact quiet_harmless hmay
    | released => rw [hg] at hmay; exact quiet_harmless hmay
    | held =>
      rcases h with h | h
      · exact absurd hg h
      · exact absurd hresult h
  · rename_i res o' k hstage
    cases ho
    cases res with
    | some er =>
      simp only [Disciplined, hstage] at hd
      exact quiet_harmless (isBookkeeping_quiet hd.2.2.2.1)
    | none =>
      simp only [Disciplined, hstage] at hd
      exact quiet_harmless (isBookkeeping_quiet hd.2.2.2.1)
  · cases ho

theorem claim_own (hd : Disciplined t) (hev : t.task.event? = some ev)
    (ho : t.nextCall = some (.store (.claimProcessedEvent key))) : key = ev.key := by
  unfold Thread.nextCall at ho
  split at ho
  · rename_i e o k hstage
    cases ho
    simp only [Disciplined, hstage] at hd
    obtain ⟨he, _, hmay, _⟩ := hd
    rw [hev] at he
    cases he
    cases hg : hold t.log with
    | fresh =>
      rw [hg] at hmay
      cases hmay
      rfl
    | _ => rw [hg] at hmay; cases hmay
  · rename_i res o k hstage
    cases ho
    cases res with
    | some er =>
      simp only [Disciplined, hstage] at hd
      cases hd.2.2.2.1
    | none =>
      simp only [Disciplined, hstage] at hd
      cases hd.2.2.2.1
  · cases ho

theorem fire_result (hf : Fire env t w t' w') (hres : t.result = some r) : t'.result = some r := by
  cases hf with
  | processCall hstage => simp [result, hstage] at hres
  | processReturn hstage => simp [result, hstage] at hres
  | finishCall hstage => simpa [result, hstage] using hres

theorem result_persists {ok : Config → Label → Prop} (hr : Reach env ok c c') (hi : c.threads[i]? = some t)
    (hres : t.result = some r) : ∃ t', c'.threads[i]? = some t' ∧ t'.task = t.task ∧ t'.result = some r := by
  induction hr with
  | refl => exact ⟨t, hi, rfl, hres⟩
  | tail l _ _ hstep ih =>
    obtain ⟨u, hu, htask, hures⟩ := ih
    rcases (step_inv hstep).thread_persists hu with hu' | ⟨u', hu', hf⟩
    · exact ⟨u, hu', htask, hures⟩
    · exact ⟨u', hu', (fire_task hf).trans htask, fire_result hf hures⟩

theorem applied_holds (hc : Exclusive c) (hi : c.threads[i]? = some t) (hev : t.task.event? = some ev)
    (hres : t.result = some (.ok .applied) ∨ t.result = some (.ok .reconciled)) : Holds c i ev.key := by
  have hd := hc.disciplined i t hi
  refine ⟨t, ev, hi, hev, rfl, ?_⟩
  unfold Disciplined at hd
  split at hd
  · rename_i hstage; simp [result, hstage] at hres
  · rename_i ev' r p hstage
    simp only [result, hstage, Option.map_some, Option.some.injEq] at hres
    rcases hres with rfl | rfl
    · exact hd.2.2.1
    · exact hd.2.2.1
  · rename_i hstage; simp [result, hstage] at hres

/-- **The claim is a lock, and final once the event is applied.** In every run, whatever calls fail: two
    executions are never in the section of one key; a thread releases a claim or calls a provider only after
    it obtained the claim of its own event; and once an execution that found a policy has returned `nil`, no
    execution of that key is ever again about to call a provider or to change a canonical record. -/
theorem claim_excludes_and_is_final {w : World} {c : Config}
    (hr : Reach env (fun _ _ => True) (initial w) c) :
    (∀ (i j : Nat) (t u : Thread) key, c.threads[i]? = some t → c.threads[j]? = some u →
      t.InSection key → u.InSection key → i = j) ∧
    (∀ (i : Nat) (t : Thread), c.threads[i]? = some t → ∀ pre e post, t.log = pre ++ e :: post →
      (e.op.isProvider = true ∨ ∃ k, e.op = .store (.releaseProcessedEvent k)) →
      ∃ ev, t.task.event? = some ev ∧ Claimed ev.key pre ∧ ∀ k, e.op = .store (.releaseProcessedEvent k) → k = ev.key) ∧
    (∀ (i : Nat) (t : Thread) ev, c.threads[i]? = some t → t.task.event? = some ev →
      t.result = some (.ok .applied) ∨ t.result = some (.ok .reconciled) → ∀ c', Reach env (fun _ _ => True) c c' →
      ∀ (j : Nat) (u : Thread) ev', c'.threads[j]? = some u → u.task.event? = some ev' → ev'.key = ev.key →
      ∀ o, u.nextCall = some o →
        o.isProvider = false ∧ (World.handle env o c'.world).2.db.canonical = c'.world.db.canonical) := by
  have hc : Exclusive c := exclusive_reach (exclusive_initial w) hr
  refine ⟨?_, ?_, ?_⟩
  · intro i j t u key hi hj ht hu
    exact hc.unique i j key (inSection_holds hc hi ht) (inSection_holds hc hj hu)
  · intro i t hi pre e post hlog he
    exact claimed_before (hc.disciplined i t hi) hlog he
  · intro i t ev hi hev hres c' hr' j u ev' hj hev' hkey o ho
    have hc' : Exclusive c' := exclusive_reach hc hr'
    have hlater : ∃ t', c'.threads[i]? = some t' ∧ t'.task = t.task ∧
        (t'.result = some (.ok .applied) ∨ t'.result = some (.ok .reconciled)) := by
      rcases hres with hres | hres
      · obtain ⟨t', hi', htask, hres'⟩ := result_persists hr' hi hres
        exact ⟨t', hi', htask, .inl hres'⟩
      · obtain ⟨t', hi', htask, hres'⟩ := result_persists hr' hi hres
        exact ⟨t', hi', htask, .inr hres'⟩
    obtain ⟨t', hi', htask, hres'⟩ := hlater
    have hheld := applied_holds hc' hi' (by rw [htask]; exact hev) hres'
    have hharmless : o.isProvider = false ∧ o.writesCanonical = false := by
      apply nextCall_harmless (hc'.disciplined j u hj) ho
      by_cases hji : j = i
      · subst hji
        rw [hi'] at hj
        cases hj
        right
        intro hnone
        rw [hnone] at hres'
        rcases hres' with h | h <;> cases h
      · left
        intro hg
        exact hji (hc'.unique j i ev.key ⟨u, ev', hj, hev', hkey, hg⟩ hheld)
    exact ⟨hharmless.1, World.handle_canonical hharmless.2⟩

theorem claim_final_after_delivery : ∃ c t, Reach Deployment.env (fun _ _ => True)
        (initial (world [policy "salesforce" "hubspot"])) c ∧
      c.threads[0]? = some t ∧ t.result = some (.ok .applied) ∧ ∀ c', Reach Deployment.env (fun _ _ => True) c c' →
        ∀ (j : Nat) (u : Thread) ev', c'.threads[j]? = some u → u.task.event? = some ev' →
        ev'.key = ⟨"t1", "salesforce", "e1"⟩ → ∀ o, u.nextCall = some o → o.isProvider = false ∧
            (World.handle Deployment.env o c'.world).2.db.canonical = c'.world.db.canonical := by
  let ev := annCreated
  let w := world [policy "salesforce" "hubspot"]
  let ls := Label.deliver (.event ev) :: List.replicate 12 (.fire 0)
  have hrun : ((run Deployment.env ls (initial w)).bind (fun c => c.threads[0]?)).map
      (fun t => (t.task.event?.map Event.key, t.result))
        = some (some ⟨"t1", "salesforce", "e1"⟩, some (.ok .applied)) := by
    decide +kernel
  obtain ⟨t, hbind, ht⟩ := Option.map_eq_some_iff.mp hrun
  obtain ⟨c, hc, h0⟩ := Option.bind_eq_some_iff.mp hbind
  obtain ⟨hkey, hres⟩ := Prod.mk.inj ht
  obtain ⟨ev', hev, hkey⟩ := Option.map_eq_some_iff.mp hkey
  have hreach := reach_of_run hc
  refine ⟨c, t, hreach, h0, hres, ?_⟩
  rw [← hkey]
  exact (claim_excludes_and_is_final hreach).2.2 0 t ev' h0 hev (.inl hres)

end SyncForge.Cluster
